import Mathlib.Data.List.Forall2
import Mathlib.Data.List.Nodup
import Mathlib.Data.List.Perm.Subperm
import Registrar.Keyed

namespace Registrar.Keyed

variable {α β : Type} {entries : Keyed α} {others : Keyed β} {name : String}

theorem keys_eq_of_forall₂ {R : String × α → String × β → Prop}
    (h : List.Forall₂ (fun e f => e.1 = f.1 ∧ R e f) entries others) :
    keys entries = keys others := by
  induction h with
  | nil => rfl
  | cons hhead _ ih => exact congrArg₂ List.cons hhead.1 ih

theorem find?_eq_none_of_lt (h : ∀ e ∈ entries, name < e.1) : find? entries name = none := by
  rw [← Option.not_isSome_iff_eq_none, find?_isSome_iff]
  intro hmem
  obtain ⟨e, he, rfl⟩ := List.mem_map.mp hmem
  exact String.lt_irrefl _ (h e he)

theorem find?_cons_eq_none_of_lt {a : α} {n : String} (h : Ascending ((n, a) :: entries))
    (hname : name < n) : find? ((n, a) :: entries) name = none := by
  refine find?_eq_none_of_lt (List.forall_mem_cons.mpr ⟨hname, fun e he => ?_⟩)
  exact String.lt_trans hname ((List.pairwise_cons.mp h).1 e he)

theorem forall₂_of_find? {R : String → α → β → Prop} (h : Ascending entries)
    (h' : Ascending others)
    (hfind : ∀ name, Option.Rel (R name) (find? entries name) (find? others name)) :
    List.Forall₂ (fun e e' => e.1 = e'.1 ∧ R e.1 e.2 e'.2) entries others := by
  induction entries generalizing others with
  | nil =>
      cases others with
      | nil => exact .nil
      | cons e' rest' =>
          have hfirst := hfind e'.1
          rw [find?_cons, if_pos rfl] at hfirst
          cases hfirst
  | cons e rest ih =>
      obtain ⟨n, a⟩ := e
      have hfirst := hfind n
      rw [find?_cons, if_pos rfl] at hfirst
      cases others with
      | nil => cases hfirst
      | cons e' rest' =>
          obtain ⟨m, b⟩ := e'
          obtain ⟨hbelow, hrest⟩ := List.pairwise_cons.mp h
          obtain ⟨hbelow', hrest'⟩ := List.pairwise_cons.mp h'
          have hnm : ¬n < m := by
            intro hlt
            rw [find?_cons_eq_none_of_lt h' hlt] at hfirst
            cases hfirst
          have hmn : ¬m < n := by
            intro hlt
            have hsecond := hfind m
            rw [find?_cons_eq_none_of_lt h hlt, find?_cons, if_pos rfl] at hsecond
            cases hsecond
          cases String.le_antisymm (String.not_lt.mp hmn) (String.not_lt.mp hnm)
          rw [find?_cons, if_pos rfl] at hfirst
          cases hfirst with
          | some hab =>
              refine .cons ⟨rfl, hab⟩ (ih hrest hrest' fun name => ?_)
              by_cases hname : n = name
              · rw [← hname, find?_eq_none_of_lt hbelow, find?_eq_none_of_lt hbelow']
                exact .none
              · have hother := hfind name
                rw [find?_cons, find?_cons, if_neg hname, if_neg hname] at hother
                exact hother

theorem eq_of_find? {others : Keyed α} (h : Ascending entries) (h' : Ascending others)
    (hfind : ∀ name, find? entries name = find? others name) : entries = others := by
  have hrel := forall₂_of_find? (R := fun _ a b => a = b) h h' fun name => by
    rw [hfind name]
    cases find? others name with
    | none => exact .none
    | some => exact .some rfl
  rw [← List.forall₂_eq_eq_eq]
  exact hrel.imp fun _ _ heq => Prod.ext heq.1 heq.2

theorem ofList_perm {entries : List (String × α)} (h : (entries.map Prod.fst).Nodup) :
    (ofList entries).Perm entries := by
  have hkeys := nodup_keys (ascending_ofList entries)
  have hperm : (keys (ofList entries)).Perm (entries.map Prod.fst) :=
    (List.perm_ext_iff_of_nodup hkeys h).mpr (mem_keys_ofList entries)
  have hlength := hperm.length_eq
  rw [keys, List.length_map, List.length_map] at hlength
  have hsub : (ofList entries).Subperm entries :=
    (List.Nodup.of_map _ hkeys).subperm fun _ => mem_of_mem_ofList
  exact hsub.perm_of_length_le (Nat.le_of_eq hlength.symm)

end Registrar.Keyed
