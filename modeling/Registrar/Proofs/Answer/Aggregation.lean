import Registrar.Answer.Aggregation
import Registrar.Proofs.Answer.Comparison
import Registrar.Proofs.Binary64.Range
import Registrar.Proofs.Catalog.Cell
import Registrar.Proofs.FirstOccurrences

theorem List.Perm.max?_eq {is js : List Int} (h : is.Perm js) : is.max? = js.max? := by
  refine Option.ext fun i => ?_
  simp only [List.max?_eq_some_iff, h.mem_iff]

theorem List.Perm.min?_eq {is js : List Int} (h : is.Perm js) : is.min? = js.min? := by
  refine Option.ext fun i => ?_
  simp only [List.min?_eq_some_iff, h.mem_iff]

namespace Registrar

namespace Binary64

variable {x y : Binary64}

theorem isNan_ofNat (n : Nat) : (ofNat n).isNan = false := by
  obtain ⟨rank, _, h⟩ := nearest_eq ((n : Int) < 0) ((n : Int).natAbs * unity) Nat.one_pos
  rw [ofNat, ofInt, h]
  split
  · rfl
  · rfl

theorem place_max (hx : x.isNan = false) (hy : y.isNan = false) :
    (x.max y).place = Max.max x.place y.place := by
  have hlt := lt_iff hx hy
  rw [max, hx]
  by_cases h : x.place < y.place
  · rw [if_neg Bool.false_ne_true, if_pos (hlt.mpr h), max_eq_right h.le]
  · rw [if_neg Bool.false_ne_true, if_neg (mt hlt.mp h), max_eq_left (not_lt.mp h)]

theorem place_min (hx : x.isNan = false) (hy : y.isNan = false) :
    (x.min y).place = Min.min x.place y.place := by
  have hlt := lt_iff hy hx
  rw [min, hx]
  by_cases h : y.place < x.place
  · rw [if_neg Bool.false_ne_true, if_pos (hlt.mpr h), min_eq_right h.le]
  · rw [if_neg Bool.false_ne_true, if_neg (mt hlt.mp h), min_eq_left (not_lt.mp h)]

end Binary64

namespace Aggregate

variable {choose : Binary64 → Binary64 → Binary64} {xs ys : List Binary64}

theorem pick_mem (hchoose : ∀ x y, choose x y = x ∨ choose x y = y) (hne : xs ≠ []) :
    pick choose xs ∈ xs := by
  obtain ⟨x, rest, rfl⟩ := List.exists_cons_of_ne_nil hne
  refine List.foldlRecOn (motive := (· ∈ x :: rest)) rest choose List.mem_cons_self
    fun best hbest y hy => ?_
  rcases hchoose best y with h | h
  · rwa [h]
  · rw [h]
    exact List.mem_cons_of_mem x hy

theorem place_foldl {op : Int → Int → Int} (hchoose : ∀ x y, choose x y = x ∨ choose x y = y)
    (hplace : ∀ x y : Binary64, x.isNan = false → y.isNan = false →
      (choose x y).place = op x.place y.place)
    {x : Binary64} {rest : List Binary64} (hx : x.isNan = false)
    (hrest : ∀ y ∈ rest, y.isNan = false) :
    (rest.foldl choose x).place = (rest.map Binary64.place).foldl op x.place := by
  induction rest generalizing x with
  | nil => rfl
  | cons y rest ih =>
      obtain ⟨hy, hrest⟩ := List.forall_mem_cons.mp hrest
      have hxy : (choose x y).isNan = false := by
        rcases hchoose x y with h | h
        · rwa [h]
        · rwa [h]
      rw [List.foldl_cons, ih hxy hrest, hplace x y hx hy, List.map_cons, List.foldl_cons]

theorem max?_places (hne : xs ≠ []) (h : ∀ x ∈ xs, x.isNan = false) :
    (xs.map Binary64.place).max? = some (pick .max xs).place := by
  obtain ⟨x, rest, rfl⟩ := List.exists_cons_of_ne_nil hne
  obtain ⟨hx, hrest⟩ := List.forall_mem_cons.mp h
  rw [List.map_cons, List.max?_cons',
    ← place_foldl Binary64.max_eq_or (fun _ _ => Binary64.place_max) hx hrest]
  rfl

theorem min?_places (hne : xs ≠ []) (h : ∀ x ∈ xs, x.isNan = false) :
    (xs.map Binary64.place).min? = some (pick .min xs).place := by
  obtain ⟨x, rest, rfl⟩ := List.exists_cons_of_ne_nil hne
  obtain ⟨hx, hrest⟩ := List.forall_mem_cons.mp h
  rw [List.map_cons, List.min?_cons',
    ← place_foldl Binary64.min_eq_or (fun _ _ => Binary64.place_min) hx hrest]
  rfl

theorem equal_pick_of_perm {extreme : List Int → Option Int}
    (hchoose : ∀ x y, choose x y = x ∨ choose x y = y)
    (hpick : ∀ xs, xs ≠ [] → (∀ x ∈ xs, x.isNan = false) →
      extreme (xs.map Binary64.place) = some (pick choose xs).place)
    (hextreme : ∀ {is js : List Int}, is.Perm js → extreme is = extreme js)
    (h : xs.Perm ys) (hxs : ∀ x ∈ xs, x.isNan = false) :
    (pick choose xs).equal (pick choose ys) := by
  have hys : ∀ y ∈ ys, y.isNan = false := fun y hy => hxs y (h.mem_iff.mpr hy)
  by_cases hne : xs = []
  · obtain rfl := hne
    cases h.nil_eq
    rfl
  · have hne' : ys ≠ [] := fun hnil => hne (hnil ▸ h).eq_nil
    rw [Binary64.equal_iff (hxs _ (pick_mem hchoose hne)) (hys _ (pick_mem hchoose hne')),
      ← Option.some.injEq, ← hpick xs hne hxs, ← hpick ys hne' hys]
    exact hextreme (h.map Binary64.place)

theorem numbers_map (xs : List Binary64) : numbers (xs.map .number) = xs := by
  rw [numbers, List.filterMap_map]
  exact List.filterMap_some

theorem isFinite_numbers {cells : List Cell} (h : ∀ c ∈ cells, c.Finite) :
    ∀ x ∈ numbers cells, x.isFinite := by
  intro x hx
  obtain ⟨c, hc, hnumber⟩ := List.mem_filterMap.mp hx
  cases c with
  | text => cases hnumber
  | number => cases hnumber; exact h _ hc

theorem distinct_eq (cells : List Cell) :
    distinct cells = (cells.map Cell.canonical).eraseDups.length := by
  rw [distinct]
  generalize cells.map Cell.canonical = canonicals
  have hsets : (Std.HashSet.ofList canonicals).Equiv (Std.HashSet.ofList canonicals.eraseDups) := by
    refine Std.HashSet.Equiv.of_forall_contains_eq fun c => ?_
    simp [Std.HashSet.contains_ofList]
  rw [hsets.size_eq, Std.HashSet.size_ofList]
  exact (List.nodup_eraseDups canonicals).imp beq_false_of_ne

theorem distinct_of_perm {cells others : List Cell} (h : cells.Perm others) :
    distinct cells = distinct others := by
  rw [distinct_eq, distinct_eq]
  exact (h.map Cell.canonical).eraseDups.length_eq

theorem same_apply_of_perm {a : Aggregate} (ha : a ∈ [max, min, count]) {cells others : List Cell}
    (h : cells.Perm others) (hcells : ∀ c ∈ cells, c.Finite) :
    (a.apply cells).same (a.apply others) := by
  have hnumbers : (numbers cells).Perm (numbers others) := h.filterMap _
  have hnan : ∀ x ∈ numbers cells, x.isNan = false :=
    fun x hx => Binary64.isNan_of_isFinite (isFinite_numbers hcells x hx)
  rcases List.mem_cons.mp ha with rfl | ha
  · exact equal_pick_of_perm Binary64.max_eq_or (fun _ => max?_places) List.Perm.max?_eq
      hnumbers hnan
  rcases List.mem_cons.mp ha with rfl | ha
  · exact equal_pick_of_perm Binary64.min_eq_or (fun _ => min?_places) List.Perm.min?_eq
      hnumbers hnan
  · cases List.mem_singleton.mp ha
    change (Binary64.ofNat (distinct cells)).equal (.ofNat (distinct others))
    rw [distinct_of_perm h]
    exact Binary64.equal_self (Binary64.isNan_ofNat _)

end Aggregate

end Registrar
