import Registrar.Json.Reader.Basic
import Registrar.Proofs.Json.Numeral

namespace Registrar

namespace Json

mutual

def isWellFormed : Json → Bool
  | .null | .bool _ | .str _ => true
  | .int i => -(UInt64.size / 2 : Int) ≤ i && i < UInt64.size
  | .real x => x.isFinite
  | .arr items => areWellFormed items
  | .obj members => members.Pairwise (fun x y => x.1 < y.1) && haveWellFormed members

def areWellFormed : List Json → Bool
  | [] => true
  | v :: rest => v.isWellFormed && areWellFormed rest

def haveWellFormed : List (String × Json) → Bool
  | [] => true
  | (_, v) :: rest => v.isWellFormed && haveWellFormed rest

end

theorem isWellFormed_int_iff {i : Int} :
    (int i).isWellFormed ↔ -(UInt64.size / 2 : Int) ≤ i ∧ i < UInt64.size := by
  rw [isWellFormed, Bool.and_eq_true, decide_eq_true_iff, decide_eq_true_iff]

theorem areWellFormed_iff {items : List Json} :
    areWellFormed items ↔ ∀ v ∈ items, v.isWellFormed := by
  induction items with
  | nil => simp [areWellFormed]
  | cons v rest ih => simp [areWellFormed, ih]

theorem haveWellFormed_iff {members : List (String × Json)} :
    haveWellFormed members ↔ ∀ m ∈ members, m.2.isWellFormed := by
  induction members with
  | nil => simp [haveWellFormed]
  | cons m rest ih => simp [haveWellFormed, ih]

theorem isWellFormed_arr_iff {items : List Json} :
    (arr items).isWellFormed ↔ ∀ v ∈ items, v.isWellFormed := by
  rw [isWellFormed, areWellFormed_iff]

theorem isWellFormed_obj_iff {members : List (String × Json)} :
    (obj members).isWellFormed ↔
      Keyed.Ascending members ∧ ∀ m ∈ members, m.2.isWellFormed := by
  rw [isWellFormed, Bool.and_eq_true, haveWellFormed_iff, decide_eq_true_iff, Keyed.Ascending]

theorem isWellFormed_ofMembers {members : List (String × Json)}
    (h : ∀ m ∈ members, m.2.isWellFormed) : (ofMembers members).isWellFormed :=
  isWellFormed_obj_iff.mpr
    ⟨Keyed.ascending_ofList members, fun m hm => h m (Keyed.mem_of_mem_ofList hm)⟩

theorem isFinite_of_number? {v : Json} (h : v.isWellFormed) {x : Binary64}
    (hx : v.number? = some x) : x.isFinite := by
  cases v with
  | int i =>
      cases hx
      obtain ⟨hlow, hhigh⟩ := isWellFormed_int_iff.mp h
      exact Binary64.isFinite_ofInt (by omega)
  | real x =>
      cases hx
      exact h
  | _ => cases hx

theorem Numeral.isWellFormed_value? {n : Numeral} {v : Json} (h : n.value? scaled? = some v) :
    v.isWellFormed := by
  unfold value? at h
  split_ifs at h with hnatural hnegative
  · cases h
    simp only [Bool.and_eq_true, decide_eq_true_iff] at hnatural
    exact isWellFormed_int_iff.mpr ⟨by omega, by omega⟩
  · cases h
    simp only [Bool.and_eq_true, decide_eq_true_iff] at hnegative
    exact isWellFormed_int_iff.mpr ⟨by omega, by omega⟩
  · obtain ⟨x, hx, rfl⟩ := Option.map_eq_some_iff.mp h
    exact isFinite_scaled? hx

namespace Written

mutual

theorem isWellFormed_value? : ∀ {depth : Nat} (w : Written) {v : Json},
    value? Numeral.scaled? depth w = some v → v.isWellFormed
  | _, .null, _, h => by cases h; rfl
  | _, .bool _, _, h => by cases h; rfl
  | _, .number n, _, h => Numeral.isWellFormed_value? h
  | _, .string text, _, h => by
      obtain ⟨s, _, rfl⟩ := Option.map_eq_some_iff.mp h
      rfl
  | 0, .array _, _, h => nomatch h
  | _ + 1, .array items, _, h => by
      obtain ⟨vs, hvs, rfl⟩ := Option.map_eq_some_iff.mp h
      exact isWellFormed_arr_iff.mpr (isWellFormed_values? items hvs)
  | 0, .object _, _, h => nomatch h
  | _ + 1, .object members, _, h => by
      obtain ⟨ms, hms, rfl⟩ := Option.map_eq_some_iff.mp h
      exact isWellFormed_ofMembers (isWellFormed_members? members hms)

theorem isWellFormed_values? : ∀ {depth : Nat} (items : List Written) {vs : List Json},
    values? Numeral.scaled? depth items = some vs → ∀ v ∈ vs, v.isWellFormed
  | _, [], _, h => by cases h; exact nofun
  | depth, w :: rest, vs, h => by
      rw [values?] at h
      obtain ⟨v, hv, h⟩ := Option.bind_eq_some_iff.mp h
      obtain ⟨others, hothers, h⟩ := Option.bind_eq_some_iff.mp h
      cases h
      exact List.forall_mem_cons.mpr ⟨isWellFormed_value? w hv, isWellFormed_values? rest hothers⟩

theorem isWellFormed_members? : ∀ {depth : Nat} (members : List (Option String × Written))
    {ms : List (String × Json)}, members? Numeral.scaled? depth members = some ms →
      ∀ m ∈ ms, m.2.isWellFormed
  | _, [], _, h => by cases h; exact nofun
  | depth, (name, w) :: rest, ms, h => by
      rw [members?] at h
      obtain ⟨n, _, h⟩ := Option.bind_eq_some_iff.mp h
      obtain ⟨v, hv, h⟩ := Option.bind_eq_some_iff.mp h
      obtain ⟨others, hothers, h⟩ := Option.bind_eq_some_iff.mp h
      cases h
      exact List.forall_mem_cons.mpr ⟨isWellFormed_value? w hv, isWellFormed_members? rest hothers⟩

end

end Written

theorem isWellFormed_read? {text : String} {v : Json} (h : read? text = some v) :
    v.isWellFormed := by
  obtain ⟨w, _, hv⟩ := Option.bind_eq_some_iff.mp h
  exact Written.isWellFormed_value? w hv

end Json

end Registrar
