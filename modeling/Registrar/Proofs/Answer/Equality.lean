import Mathlib.Data.Set.Card
import Registrar.Proofs.Answer.Aggregation
import Registrar.Proofs.Answer.Partition
import Registrar.Proofs.Answer.Precedence
import Registrar.Query.Filter

namespace Registrar

namespace Cell

inductive Equals : Cell → Cell → Prop
  | number {x y : Binary64} {v : WithBot (WithTop ℚ)} (hx : x.value? = some v)
      (hy : y.value? = some v) : Equals (.number x) (.number y)
  | text (s : String) : Equals (.text s) (.text s)

variable {c d : Cell}

theorem same_iff : c.same d ↔ c.Equals d := by
  constructor
  · intro h
    cases c <;> cases d
    case number.number =>
      obtain ⟨v, hx, hy⟩ := Binary64.equal_iff_value?.mp h
      exact .number hx hy
    case text.text =>
      cases of_decide_eq_true h
      exact .text _
    all_goals cases h
  · rintro (⟨hx, hy⟩ | s)
    · exact Binary64.equal_iff_value?.mpr ⟨_, hx, hy⟩
    · exact decide_eq_true rfl

def classes (R : Cell → Cell → Prop) (cells : List Cell) : Set (Set Cell) :=
  {s | ∃ c ∈ cells, s = {d | d ∈ cells ∧ R c d}}

def withCanonical (cells : List Cell) (canonical : Cell) : Set Cell :=
  {d | d ∈ cells ∧ d.canonical = canonical}

variable {cells : List Cell}

theorem injOn_withCanonical :
    Set.InjOn (withCanonical cells) (canonical '' {c | c ∈ cells}) := by
  rintro _ ⟨c, hc, rfl⟩ k _ h
  exact (Set.ext_iff.mp h c).mp ⟨hc, rfl⟩ |>.2

theorem classes_equals (h : ∀ c ∈ cells, c.Comparable) :
    classes Equals cells = withCanonical cells '' (canonical '' {c | c ∈ cells}) := by
  have hclass : ∀ c ∈ cells, {d | d ∈ cells ∧ c.Equals d} = withCanonical cells c.canonical := by
    intro c hc
    ext d
    refine and_congr_right fun hd => ?_
    rw [← same_iff, ← canonical_eq_iff (h c hc) (h d hd)]
    exact eq_comm
  ext s
  constructor
  · rintro ⟨c, hc, rfl⟩
    exact ⟨_, ⟨c, hc, rfl⟩, (hclass c hc).symm⟩
  · rintro ⟨_, ⟨c, hc, rfl⟩, rfl⟩
    exact ⟨c, hc, (hclass c hc).symm⟩

end Cell

namespace Aggregate

theorem distinct_eq_ncard {cells : List Cell} (h : ∀ c ∈ cells, c.Comparable) :
    distinct cells = (Cell.classes Cell.Equals cells).ncard := by
  have himage : (Cell.canonical '' {c | c ∈ cells}) =
      ((cells.map Cell.canonical).eraseDups.toFinset : Set Cell) := by
    ext c
    simp only [Set.mem_image, Set.mem_ofPred_eq, Finset.mem_coe, List.mem_toFinset,
      List.mem_eraseDups, List.mem_map]
  rw [Cell.classes_equals h, Cell.injOn_withCanonical.ncard_image, himage, Set.ncard_coe_finset,
    List.toFinset_card_of_nodup (List.nodup_eraseDups _), distinct_eq]

def values (xs : List Binary64) : Set (WithBot (WithTop ℚ)) := {v | ∃ x ∈ xs, x.value? = some v}

variable {xs : List Binary64}

theorem exists_isGreatest (hne : xs ≠ []) (h : ∀ x ∈ xs, x.isNan = false) :
    ∃ m v, max.apply (xs.map .number) = .number m ∧ m.value? = some v ∧
      IsGreatest (values xs) v := by
  have hmem := pick_mem Binary64.max_eq_or hne
  obtain ⟨v, hv⟩ := Binary64.exists_value? (h _ hmem)
  refine ⟨pick .max xs, v, by rw [apply, numbers_map], hv, ⟨_, hmem, hv⟩, ?_⟩
  rintro w ⟨x, hx, hw⟩
  rw [Binary64.le_iff_place hw hv]
  exact (List.max?_eq_some_iff.mp (max?_places hne h)).2 _ (List.mem_map_of_mem hx)

theorem exists_isLeast (hne : xs ≠ []) (h : ∀ x ∈ xs, x.isNan = false) :
    ∃ m v, min.apply (xs.map .number) = .number m ∧ m.value? = some v ∧
      IsLeast (values xs) v := by
  have hmem := pick_mem Binary64.min_eq_or hne
  obtain ⟨v, hv⟩ := Binary64.exists_value? (h _ hmem)
  refine ⟨pick .min xs, v, by rw [apply, numbers_map], hv, ⟨_, hmem, hv⟩, ?_⟩
  rintro w ⟨x, hx, hw⟩
  rw [Binary64.le_iff_place hv hw]
  exact (List.min?_eq_some_iff.mp (min?_places hne h)).2 _ (List.mem_map_of_mem hx)

end Aggregate

namespace Grouping

variable {g : Grouping} {records : List Record}

theorem exists_group_iff {r s : Record} (hr : r ∈ records) (hs : s ∈ records) :
    (∃ group ∈ g.partition records, r ∈ group ∧ s ∈ group) ↔ g.tuple r = g.tuple s := by
  rw [partition_eq]
  constructor
  · rintro ⟨_, hgroup, hrg, hsg⟩
    obtain ⟨t, _, rfl⟩ := List.mem_map.mp hgroup
    have hrt : g.tuple r = t := of_decide_eq_true (List.mem_filter.mp hrg).2
    have hst : g.tuple s = t := of_decide_eq_true (List.mem_filter.mp hsg).2
    rw [hrt, hst]
  · intro h
    refine ⟨_, List.mem_map_of_mem (List.mem_eraseDups.mpr (List.mem_map_of_mem hr)), ?_, ?_⟩
    · exact List.mem_filter.mpr ⟨hr, decide_eq_true rfl⟩
    · exact List.mem_filter.mpr ⟨hs, decide_eq_true h.symm⟩

theorem tuple_eq_iff_equals {r s : Record}
    (hr : ∀ k ∈ g.keys, ∀ cell ∈ r.get? k.field, cell.Comparable)
    (hs : ∀ k ∈ g.keys, ∀ cell ∈ s.get? k.field, cell.Comparable) :
    g.tuple r = g.tuple s ↔
      ∀ k ∈ g.keys, Option.Rel Cell.Equals (r.get? k.field) (s.get? k.field) := by
  rw [tuple, tuple, List.map_inj_left]
  refine forall₂_congr fun k hk => ?_
  have hr := hr k hk
  have hs := hs k hk
  cases hc : r.get? k.field <;> cases hd : s.get? k.field
  case none.none => exact iff_of_true rfl .none
  case some.some c d =>
    rw [Option.map_some, Option.map_some, Option.some.injEq,
      Cell.canonical_eq_iff (hr c hc) (hs d hd), Cell.same_iff]
    exact ⟨.some, fun h => by cases h; assumption⟩
  all_goals exact iff_of_false nofun nofun

end Grouping

theorem Filter.holds_equal_iff {r : Record} {key : Key} {literal : Binary64} :
    (Filter.number .equal key literal).holds r ↔
      ∃ cell, r.get? key.field = some cell ∧ cell.Equals (.number literal) := by
  rw [Filter.holds]
  cases r.get? key.field with
  | none => exact iff_of_false nofun nofun
  | some cell =>
      simp only [Option.some.injEq, exists_eq_left']
      rw [← Cell.same_iff]
      cases cell with
      | number => exact Iff.rfl
      | text => exact Iff.rfl

structure Cell.ToldApartBy (R : Cell → Cell → Prop) : Prop where
  counted : ∀ cells : List Cell, (∀ c ∈ cells, c.Comparable) →
    Aggregate.count.apply cells = .number (.ofNat (classes R cells).ncard)
  grouped : ∀ (g : Grouping) (records : List Record),
    (∀ r ∈ records, ∀ k ∈ g.keys, ∀ cell ∈ r.get? k.field, cell.Comparable) →
    ∀ r ∈ records, ∀ s ∈ records, ((∃ group ∈ g.partition records, r ∈ group ∧ s ∈ group) ↔
      ∀ k ∈ g.keys, Option.Rel R (r.get? k.field) (s.get? k.field))
  matched : ∀ (r : Record) (key : Key) (literal : Binary64),
    (Filter.number .equal key literal).holds r ↔
      ∃ cell, r.get? key.field = some cell ∧ R cell (.number literal)
  ordered : ∀ c d : Cell, c.Comparable → d.Comparable → (c.order d = .eq ↔ R c d)

namespace Cell

theorem toldApartBy_equals : ToldApartBy Equals where
  counted cells h := by rw [Aggregate.apply, Aggregate.distinct_eq_ncard h]
  grouped g records h r hr s hs := by
    rw [Grouping.exists_group_iff hr hs, Grouping.tuple_eq_iff_equals (h r hr) (h s hs)]
  matched r key literal := Filter.holds_equal_iff
  ordered c d hc hd := by rw [order_eq_eq_iff hc hd, same_iff]

theorem equivalence_equals :
    Equivalence fun c d : {c : Cell // c.Comparable} => c.1.Equals d.1 := by
  have hcanonical (c d : {c : Cell // c.Comparable}) :
      c.1.Equals d.1 ↔ c.1.canonical = d.1.canonical := by
    rw [canonical_eq_iff c.2 d.2, same_iff]
  simp only [hcanonical]
  exact ⟨fun _ => rfl, Eq.symm, Eq.trans⟩

end Cell

theorem Aggregate.extremes_and_classes :
    (∀ xs : List Binary64, xs ≠ [] → (∀ x ∈ xs, x.isNan = false) →
      (∃ m v, max.apply (xs.map .number) = .number m ∧ m.value? = some v ∧
        IsGreatest (values xs) v) ∧
      ∃ m v, min.apply (xs.map .number) = .number m ∧ m.value? = some v ∧
        IsLeast (values xs) v) ∧
    Cell.ToldApartBy Cell.Equals ∧
    (Equivalence fun c d : {c : Cell // c.Comparable} => c.1.Equals d.1) ∧
    Cell.Equals (.number .zero) (.number (.finite true Binary64.zeroRank)) ∧
    (∀ x s, ¬Cell.Equals (.number x) (.text s)) ∧
    ∀ n < 2 ^ 53, (Binary64.ofNat n).value? = some ((n : ℚ) : WithTop ℚ) := by
  refine ⟨fun xs hne h => ⟨exists_isGreatest hne h, exists_isLeast hne h⟩,
    Cell.toldApartBy_equals, Cell.equivalence_equals, ?_, fun x s => nofun, ?_⟩
  · exact Cell.same_iff.mp (by decide)
  · exact fun n hn => Binary64.value?_ofNat (hn.trans_eq (by decide))

def Sample.zeros : List Cell :=
  [.number .zero, .number (.finite true Binary64.zeroRank), .text "0", .number (.infinite false)]

theorem Aggregate.extremes_and_classes_zeros :
    (∀ c ∈ Sample.zeros, c.Comparable) ∧ count.apply Sample.zeros = .number (.ofNat 3) ∧
    count.apply Sample.zeros =
      .number (.ofNat (Cell.classes Cell.Equals Sample.zeros).ncard) ∧
    ∃ m v, max.apply ([.infinite true, .zero].map .number) = .number m ∧ m.value? = some v ∧
      IsGreatest (values [.infinite true, .zero]) v := by
  have hcomparable : ∀ c ∈ Sample.zeros, c.Comparable := by decide
  have hthree : distinct Sample.zeros = 3 := by
    rw [distinct_eq]
    decide +kernel
  obtain ⟨hextremes, htold, _⟩ := extremes_and_classes
  exact ⟨hcomparable, by rw [apply, hthree], htold.counted _ hcomparable,
    (hextremes _ (List.cons_ne_nil _ _) (by decide)).1⟩

end Registrar
