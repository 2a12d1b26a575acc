import Registrar.Answer.Row
import Registrar.Proofs.Catalog.Record
import Registrar.Proofs.FirstOccurrences

namespace Registrar

def Record.cell? (r : Record) (c : Column) : Option Cell := c.key?.bind fun k => r.get? k.field

namespace Row

theorem ofList_append_singleton (cells : List (String × Cell)) (name : String) (value : Cell) :
    ofList (cells ++ [(name, value)]) = (ofList cells).push name value := by
  rw [ofList, List.foldl_concat]
  rfl

theorem names_ofList (cells : List (String × Cell)) :
    (ofList cells).names = (cells.map Prod.fst).eraseDups := by
  induction cells using List.reverseRecOn with
  | nil => rfl
  | append_singleton cells entry ih =>
      obtain ⟨name, value⟩ := entry
      have hnames : name ∈ (ofList cells).names ↔ name ∈ cells.map Prod.fst := by
        rw [ih, List.mem_eraseDups]
      rw [ofList_append_singleton, List.map_append, List.map_singleton]
      by_cases h : name ∈ cells.map Prod.fst
      · rw [List.eraseDups_append_singleton_of_mem h, names_push_of_mem value (hnames.mpr h), ih]
      · rw [List.eraseDups_append_singleton_of_not_mem h,
          names_push_of_not_mem value (mt hnames.mp h), ih]

theorem get?_ofList {cells : List (String × Cell)} {name : String} {value : Cell}
    (hmem : name ∈ cells.map Prod.fst) (hsame : ∀ entry ∈ cells, entry.1 = name → entry.2 = value) :
    (ofList cells).get? name = some value := by
  induction cells using List.reverseRecOn with
  | nil => cases hmem
  | append_singleton cells entry ih =>
      obtain ⟨last, cell⟩ := entry
      rw [ofList_append_singleton, get?_push]
      split
      · next heq => exact congrArg some (hsame (last, cell) (by simp) heq)
      · next hne =>
        refine ih ?_ fun entry hentry => hsame entry (List.mem_append_left _ hentry)
        simpa [Ne.symm hne] using hmem

theorem get?_ofList_eq_lookup (cells : List (String × Cell)) (name : String) :
    (ofList cells).get? name = cells.reverse.lookup name := by
  induction cells using List.reverseRecOn with
  | nil => rfl
  | append_singleton cells entry ih =>
      obtain ⟨last, cell⟩ := entry
      rw [ofList_append_singleton, get?_push, List.reverse_concat]
      by_cases h : last = name
      · rw [if_pos h, h, List.lookup_cons_self]
      · rw [if_neg h, ih, List.lookup_cons, beq_false_of_ne (Ne.symm h)]

theorem nodup_names_ofList (cells : List (String × Cell)) : (ofList cells).names.Nodup := by
  rw [names_ofList]
  exact List.nodup_eraseDups _

theorem foldl_push?_filterMap {α : Type} (items : List α) (name : α → String)
    (value : α → Option Cell) (cells : List (String × Cell)) :
    items.foldl (fun row item => row.push? (name item) (value item)) (ofList cells) =
      ofList (cells ++ items.filterMap fun item => (value item).map fun cell =>
        (name item, cell)) := by
  induction items generalizing cells with
  | nil => simp
  | cons item items ih =>
      rw [List.foldl_cons, List.filterMap_cons]
      cases value item with
      | none => exact ih cells
      | some cell =>
          have hpush := ofList_append_singleton cells (name item) cell
          rw [push?, ← hpush, ih, Option.map_some, List.append_assoc, List.singleton_append]

theorem foldl_push? {α : Type} (items : List α) (name : α → String) (value : α → Option Cell)
    (cell : α → Cell) (h : ∀ item ∈ items, value item = some (cell item))
    (cells : List (String × Cell)) :
    items.foldl (fun row item => row.push? (name item) (value item)) (ofList cells) =
      ofList (cells ++ items.map fun item => (name item, cell item)) := by
  have hcells : (items.filterMap fun item => (value item).map fun cell => (name item, cell)) =
      items.map fun item => (name item, cell item) := by
    rw [← List.filterMap_eq_map]
    refine List.filterMap_congr fun item hitem => ?_
    rw [h item hitem]
    rfl
  rw [foldl_push?_filterMap, hcells]

theorem foldl_push?_spec {α : Type} {items : List α} {name : α → String} {value : α → Option Cell}
    (hfound : ∀ item ∈ items, ∃ cell, value item = some cell)
    (hsame : ∀ a ∈ items, ∀ b ∈ items, name a = name b → value a = value b) :
    (items.foldl (fun row item => row.push? (name item) (value item)) empty).names =
        (items.map name).eraseDups ∧
      ∀ item ∈ items,
        (items.foldl (fun row item => row.push? (name item) (value item)) empty).get? (name item) =
          value item := by
  have hcell : ∀ item ∈ items, value item = some ((value item).getD (.text "")) := by
    intro item hitem
    obtain ⟨cell, h⟩ := hfound item hitem
    rw [h, Option.getD_some]
  have hrow := foldl_push? items name value _ hcell []
  change items.foldl _ empty = _ at hrow
  rw [hrow, List.nil_append]
  constructor
  · rw [names_ofList, List.map_map]
    rfl
  · intro item hitem
    rw [hcell item hitem]
    refine get?_ofList ?_ ?_
    · exact List.mem_map.mpr ⟨_, List.mem_map_of_mem hitem, rfl⟩
    · intro entry hentry hname
      obtain ⟨other, hother, rfl⟩ := List.mem_map.mp hentry
      exact congrArg (Option.getD · (.text "")) (hsame other hother item hitem hname)

theorem select_spec {columns : List Column} {row : Row}
    (hfound : ∀ c ∈ columns, ∃ cell, row.get? c.name = some cell) :
    (select columns row).names = (columns.map Column.name).eraseDups ∧
      ∀ c ∈ columns, (select columns row).get? c.name = row.get? c.name :=
  foldl_push?_spec hfound fun _ _ _ _ h => congrArg row.get? h

theorem ofRecord_eq_foldl {dataset : String} {columns : List Column}
    (hkeys : ∀ k, .key k ∈ columns → k.dataset = dataset) (r : Record) :
    ofRecord dataset columns r =
      columns.foldl (fun row c => row.push? c.name (r.cell? c)) empty := by
  refine List.foldl_ext _ _ _ fun row c hc => ?_
  cases c with
  | key k =>
      obtain ⟨d, field⟩ := k
      cases hkeys _ hc
      rfl
  | apply => rfl

theorem ofRecord_spec {dataset : String} {columns : List Column} {r : Record}
    (hkeys : ∀ c ∈ columns, ∃ k, c = .key k ∧ k.dataset = dataset)
    (hfound : ∀ k, .key k ∈ columns → ∃ cell, r.get? k.field = some cell) :
    (ofRecord dataset columns r).names = (columns.map Column.name).eraseDups ∧
      ∀ k, .key k ∈ columns → (ofRecord dataset columns r).get? k.text = r.get? k.field := by
  have hdataset : ∀ k, .key k ∈ columns → k.dataset = dataset := by
    intro k hk
    obtain ⟨l, hl, hd⟩ := hkeys _ hk
    cases hl
    exact hd
  rw [ofRecord_eq_foldl hdataset]
  have hspec : _ ∧ ∀ c ∈ columns, _ :=
    @foldl_push?_spec Column columns Column.name r.cell? ?_ ?_
  · exact ⟨hspec.1, fun k hk => hspec.2 _ hk⟩
  · intro c hc
    obtain ⟨k, rfl, _⟩ := hkeys c hc
    exact hfound k hc
  · intro a ha b hb hname
    obtain ⟨⟨_, field⟩, rfl, rfl⟩ := hkeys a ha
    obtain ⟨⟨_, other⟩, rfl, hd⟩ := hkeys b hb
    cases hd
    cases Key.field_inj hname
    rfl

theorem get?_foldl_push?_of_none {α : Type} {items : List α} {name : α → String}
    {value : α → Option Cell} {absent : String}
    (h : ∀ item ∈ items, name item = absent → value item = none) (row : Row) :
    (items.foldl (fun row item => row.push? (name item) (value item)) row).get? absent =
      row.get? absent := by
  induction items generalizing row with
  | nil => rfl
  | cons item items ih =>
      obtain ⟨hitem, hitems⟩ := List.forall_mem_cons.mp h
      rw [List.foldl_cons, ih hitems]
      cases hvalue : value item with
      | none => rfl
      | some cell =>
          have hne : name item ≠ absent := fun heq => nomatch hvalue.symm.trans (hitem heq)
          rw [push?, get?_push, if_neg hne]

theorem ofRecord_eq_empty {dataset : String} {columns : List Column} {r : Record}
    (h : ∀ k, .key k ∈ columns → r.get? k.field = none) : ofRecord dataset columns r = empty := by
  rw [ofRecord]
  induction columns with
  | nil => rfl
  | cons c columns ih =>
      have hrest := ih fun k hk => h k (List.mem_cons_of_mem _ hk)
      cases c with
      | key k =>
          rw [List.foldl_cons]
          dsimp only
          rw [h k List.mem_cons_self]
          exact hrest
      | apply name => exact hrest

theorem mem_cells_of_get? {row : Row} {name : String} {cell : Cell}
    (h : row.get? name = some cell) : (name, cell) ∈ row.cells :=
  Keyed.mem_of_find? h

def All (p : String × Cell → Prop) (row : Row) : Prop := ∀ entry ∈ row.cells, p entry

namespace All

variable {p : String × Cell → Prop} {row : Row}

theorem push (h : row.All p) {name : String} {value : Cell} (hvalue : p (name, value)) :
    (row.push name value).All p := by
  obtain ⟨cells⟩ := row
  change ∀ entry ∈ put name value cells, p entry
  induction cells with
  | nil => exact List.forall_mem_singleton.mpr hvalue
  | cons entry rest ih =>
      obtain ⟨hentry, hrest⟩ := List.forall_mem_cons.mp h
      rw [put]
      split
      · next heq => exact List.forall_mem_cons.mpr ⟨heq ▸ hvalue, hrest⟩
      · exact List.forall_mem_cons.mpr ⟨hentry, ih hrest⟩

theorem push? (h : row.All p) {name : String} {value : Option Cell}
    (hvalue : ∀ cell, value = some cell → p (name, cell)) : (row.push? name value).All p := by
  cases value with
  | none => exact h
  | some cell => exact h.push (hvalue cell rfl)

theorem select (h : row.All p) (columns : List Column) : (Row.select columns row).All p :=
  List.foldlRecOn columns _ nofun fun _ hpicked _ _ =>
    hpicked.push? fun _ hcell => h _ (mem_cells_of_get? hcell)

theorem ofRecord {dataset : String} {columns : List Column} {r : Record}
    (h : ∀ k, .key k ∈ columns → ∀ cell, r.get? k.field = some cell →
      p (Key.text ⟨dataset, k.field⟩, cell)) : (Row.ofRecord dataset columns r).All p := by
  refine List.foldlRecOn columns _ nofun fun row hrow c hc => ?_
  cases c with
  | key k => exact hrow.push? (h k hc)
  | apply name => exact hrow

end All

end Row

end Registrar
