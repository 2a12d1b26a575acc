import Mathlib.Data.List.Basic
import Registrar.Proofs.Json.ReadBack

theorem List.mem_intercalate_singleton {α : Type} {a b : α} (h : a ≠ b)
    (parts : List (List α)) :
    a ∈ [b].intercalate parts ↔ ∃ part ∈ parts, a ∈ part := by
  induction parts with
  | nil => simp
  | cons first rest ih =>
      cases rest with
      | nil => simp
      | cons second rest =>
          rw [intercalate_cons_cons, mem_append, mem_append, ih, mem_singleton, or_iff_left h,
            exists_mem_cons_iff _ first]

namespace Registrar

namespace Text

def isPrintable (c : Char) : Bool := 0x20 ≤ c.toNat && c.toNat < 0x7F

def isControl (c : Char) : Bool := c.toNat < 0x20 || (0x7F ≤ c.toNat && c.toNat < 0xA0)

theorem le_of_isPrintable {c : Char} (h : isPrintable c = true) : 0x20 ≤ c.toNat :=
  of_decide_eq_true (Bool.and_eq_true_iff.mp h).1

theorem lt_of_isPrintable {c : Char} (h : isPrintable c = true) : c.toNat < 0x7F :=
  of_decide_eq_true (Bool.and_eq_true_iff.mp h).2

theorem isPrintable_or_le {c : Char} (h : 0x20 ≤ c.toNat) :
    isPrintable c = true ∨ 0x7F ≤ c.toNat := by
  rw [isPrintable, Bool.and_eq_true, decide_eq_true_iff, decide_eq_true_iff]
  omega

end Text

namespace Json

open Text (isPrintable)

variable {c d : Char}

theorem shortEscape?_bounds {letter : Char} (h : shortEscape? d = some letter) :
    isPrintable letter = true ∧ d.toNat < 0x7F := by
  unfold shortEscape? at h
  split at h <;> cases h <;> decide

theorem mem_escape (h : c ∈ escape d) : isPrintable c = true ∨ 0x7F ≤ c.toNat ∧ c = d := by
  have hdigit : ∀ n < 16, isPrintable (Nat.digitChar n) = true := by decide
  unfold escape at h
  split at h
  · next letter hletter =>
    rcases List.mem_pair.mp h with rfl | rfl
    · exact .inl (by decide)
    · exact .inl (shortEscape?_bounds hletter).1
  · split at h
    · simp only [List.mem_cons, List.not_mem_nil, or_false] at h
      rcases h with rfl | rfl | rfl | rfl | rfl | rfl
      · exact .inl (by decide)
      · exact .inl (by decide)
      · exact .inl (by decide)
      · exact .inl (by decide)
      · exact .inl (hdigit _ (by omega))
      · exact .inl (hdigit _ (by omega))
    · next hblank =>
      cases List.mem_singleton.mp h
      exact (Text.isPrintable_or_le (Nat.not_lt.mp hblank)).imp_right fun hle => ⟨hle, rfl⟩

theorem escape_of_le (h : 0x7F ≤ d.toNat) : escape d = [d] := by
  unfold escape
  split
  · next letter hletter => exact absurd h (Nat.not_le.mpr (shortEscape?_bounds hletter).2)
  · rw [if_neg (by omega)]

theorem mem_quoted {text : String} (h : c ∈ (quoted text).toList) :
    isPrintable c = true ∨ 0x7F ≤ c.toNat ∧ c ∈ text.toList := by
  rw [toList_quoted, List.mem_append, List.mem_cons, List.mem_singleton] at h
  rcases h with (rfl | h) | rfl
  · exact .inl (by decide)
  · obtain ⟨d, hd, hc⟩ := List.mem_flatMap.mp h
    refine (mem_escape hc).imp_right ?_
    rintro ⟨hle, rfl⟩
    exact ⟨hle, hd⟩
  · exact .inl (by decide)

theorem mem_quoted_of_mem {text : String} (hle : 0x7F ≤ c.toNat) (h : c ∈ text.toList) :
    c ∈ (quoted text).toList := by
  rw [toList_quoted, List.mem_append, List.mem_cons]
  refine .inl (.inr (List.mem_flatMap.mpr ⟨c, h, ?_⟩))
  rw [escape_of_le hle]
  exact List.mem_singleton_self c

variable {members : List (String × String)}

theorem mem_objectText (h : c ∈ (objectText (members.map fun m => (m.1, quoted m.2))).toList) :
    isPrintable c = true ∨ 0x7F ≤ c.toNat ∧ ∃ m ∈ members, c ∈ m.1.toList ∨ c ∈ m.2.toList := by
  rw [toList_objectText, List.mem_cons, List.mem_append, List.mem_singleton] at h
  rcases h with rfl | h | rfl
  · exact .inl (by decide)
  · by_cases hcomma : c = ','
    · exact .inl (by rw [hcomma]; decide)
    · obtain ⟨part, hpart, hc⟩ := (List.mem_intercalate_singleton hcomma _).mp h
      obtain ⟨m, hm, rfl⟩ := List.mem_map.mp hpart
      rw [List.mem_append, List.mem_cons] at hc
      rcases hc with hname | rfl | hvalue
      · exact (mem_quoted hname).imp_right fun ⟨hle, hc⟩ => ⟨hle, m, hm, .inl hc⟩
      · exact .inl (by decide)
      · exact (mem_quoted hvalue).imp_right fun ⟨hle, hc⟩ => ⟨hle, m, hm, .inr hc⟩
  · exact .inl (by decide)

theorem mem_objectText_of_mem (hle : 0x7F ≤ c.toNat) {m : String × String} (hm : m ∈ members)
    (hc : c ∈ m.1.toList ∨ c ∈ m.2.toList) :
    c ∈ (objectText (members.map fun m => (m.1, quoted m.2))).toList := by
  have hcomma : c ≠ ',' := by
    rintro rfl
    exact absurd hle (by decide)
  rw [toList_objectText, List.mem_cons, List.mem_append]
  refine .inr (.inl ((List.mem_intercalate_singleton hcomma _).mpr
    ⟨_, List.mem_map_of_mem hm, ?_⟩))
  rw [List.mem_append, List.mem_cons]
  exact hc.imp (mem_quoted_of_mem hle) fun hvalue => .inr (mem_quoted_of_mem hle hvalue)

end Json

end Registrar
