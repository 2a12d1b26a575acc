import Registrar.Answer.Group
import Registrar.Proofs.Answer.Row
import Registrar.Proofs.Query.Grouping

namespace Registrar

def Rule.values (r : Rule) (group : List Record) : List Cell :=
  group.filterMap fun record => record.get? r.key.field

theorem Rule.Legal.name_ne_text {r : Rule} (h : r.Legal) (k : Key) : r.name ≠ k.text :=
  fun heq => h.unseparated (heq ▸ k.separator_mem_text)

namespace Grouping

variable {g : Grouping} {first : Record} {rest : List Record}

def keyCells (g : Grouping) (first : Record) : List (String × Cell) :=
  g.keys.map fun k => (k.text, (first.get? k.field).getD (.text ""))

def ruleCells (g : Grouping) (group : List Record) : List (String × Cell) :=
  g.rules.map fun r => (r.name, r.aggregate.apply (r.values group))

theorem row_cons_eq (hfound : ∀ k ∈ g.keys, ∃ cell, first.get? k.field = some cell) :
    g.row (first :: rest) = Row.ofList (g.keyCells first ++ g.ruleCells (first :: rest)) := by
  have hcell : ∀ k ∈ g.keys,
      first.get? k.field = some ((first.get? k.field).getD (.text "")) := by
    intro k hk
    obtain ⟨cell, h⟩ := hfound k hk
    rw [h, Option.getD_some]
  have hkeys := Row.foldl_push? g.keys Key.text _ _ hcell []
  rw [List.nil_append] at hkeys
  exact (congrArg (g.rules.foldl _) hkeys).trans
    (Row.foldl_push? g.rules Rule.name _ _ (fun _ _ => rfl) (g.keyCells first))

theorem get?_row_key (hlegal : g.Legal)
    (hfound : ∀ k ∈ g.keys, ∃ cell, first.get? k.field = some cell) {k : Key} (hk : k ∈ g.keys) :
    (g.row (first :: rest)).get? k.text = first.get? k.field := by
  obtain ⟨cell, hcell⟩ := hfound k hk
  rw [row_cons_eq hfound, hcell]
  refine Row.get?_ofList ?_ fun entry hentry hname => ?_
  · rw [List.map_append, List.mem_append]
    exact .inl (List.mem_map.mpr ⟨_, List.mem_map_of_mem hk, rfl⟩)
  · rcases List.mem_append.mp hentry with h | h
    · obtain ⟨l, hl, rfl⟩ := List.mem_map.mp h
      cases Key.text_injective (hlegal.proper l hl) (hlegal.proper k hk) hname
      rw [hcell, Option.getD_some]
    · obtain ⟨r, hr, rfl⟩ := List.mem_map.mp h
      exact absurd hname ((hlegal.rules r hr).name_ne_text k)

theorem get?_row_rule (hlegal : g.Legal)
    (hfound : ∀ k ∈ g.keys, ∃ cell, first.get? k.field = some cell) {r : Rule} (hr : r ∈ g.rules) :
    (g.row (first :: rest)).get? r.name =
      some (r.aggregate.apply (r.values (first :: rest))) := by
  rw [row_cons_eq hfound]
  refine Row.get?_ofList ?_ fun entry hentry hname => ?_
  · rw [List.map_append, List.mem_append]
    exact .inr (List.mem_map.mpr ⟨_, List.mem_map_of_mem hr, rfl⟩)
  · rcases List.mem_append.mp hentry with h | h
    · obtain ⟨k, hk, rfl⟩ := List.mem_map.mp h
      exact absurd hname.symm ((hlegal.rules r hr).name_ne_text k)
    · obtain ⟨s, hs, rfl⟩ := List.mem_map.mp h
      cases List.inj_on_of_nodup_map hlegal.distinct hs hr hname
      rfl

theorem get?_row_of_none (hlegal : g.Legal) (h : ∀ k ∈ g.keys, first.get? k.field = none)
    (k : Key) : (g.row (first :: rest)).get? k.text = none := by
  have hkeys := @Row.get?_foldl_push?_of_none Key g.keys Key.text (fun l => first.get? l.field)
    k.text (fun l hl _ => h l hl) .empty
  have hrules := @Row.get?_foldl_push?_of_none Rule g.rules Rule.name
    (fun r => some (r.aggregate.apply (r.values (first :: rest)))) k.text
    (fun r hr hname => absurd hname ((hlegal.rules r hr).name_ne_text k))
  exact (hrules _).trans hkeys

end Grouping

end Registrar
