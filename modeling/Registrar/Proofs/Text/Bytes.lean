import Mathlib.Tactic.Common

namespace Registrar.Text

def bytes (text : String) : List UInt8 := text.toUTF8.data.toList

theorem bytes_eq_flatMap (text : String) :
    bytes text = text.toList.flatMap String.utf8EncodeChar := by
  rw [bytes, String.toUTF8, ← String.utf8Encode_toList, List.utf8Encode]
  simp

theorem val_lt (c : Char) : c.val.toNat < 0x110000 := by
  have hvalid := c.valid
  simp only [UInt32.isValidChar, Nat.isValidChar] at hvalid
  omega

theorem encode_append_lt {c d : Char} (h : c < d) (xs ys : List UInt8) :
    String.utf8EncodeChar c ++ xs < String.utf8EncodeChar d ++ ys := by
  have hval : c.val.toNat < d.val.toNat := h
  have hmax := val_lt d
  simp only [String.utf8EncodeChar]
  generalize c.val.toNat = v at *
  generalize d.val.toNat = w at *
  have hdigit (n : ℕ) : v / n < w / n ∨ v / n = w / n :=
    Nat.lt_or_eq_of_le (Nat.div_le_div_right (Nat.le_of_lt hval))
  split_ifs <;> simp only [List.cons_append, List.nil_append, List.cons_lt_cons_iff,
    UInt8.lt_iff_toNat_lt, UInt8.toNat_ofNat', ← UInt8.toNat_inj] <;> try exact .inl (by omega)
  · rcases hdigit 64 with hfirst | hfirst
    · exact .inl (by omega)
    · exact .inr ⟨by rw [hfirst], .inl (by omega)⟩
  · rcases hdigit 4096 with hfirst | hfirst
    · exact .inl (by omega)
    · refine .inr ⟨by rw [hfirst], ?_⟩
      rcases hdigit 64 with hsecond | hsecond
      · exact .inl (by omega)
      · exact .inr ⟨by rw [hsecond], .inl (by omega)⟩
  · rcases hdigit 262144 with hfirst | hfirst
    · exact .inl (by omega)
    · refine .inr ⟨by rw [hfirst], ?_⟩
      rcases hdigit 4096 with hsecond | hsecond
      · exact .inl (by omega)
      · refine .inr ⟨by rw [hsecond], ?_⟩
        rcases hdigit 64 with hthird | hthird
        · exact .inl (by omega)
        · exact .inr ⟨by rw [hthird], .inl (by omega)⟩

theorem flatMap_lt {l m : List Char} (h : l < m) :
    l.flatMap String.utf8EncodeChar < m.flatMap String.utf8EncodeChar := by
  induction m generalizing l with
  | nil => cases h
  | cons d m ih =>
      cases l with
      | nil =>
          obtain ⟨first, rest, hd⟩ := List.exists_cons_of_ne_nil (@String.utf8EncodeChar_ne_nil d)
          rw [List.flatMap_cons, hd]
          exact List.nil_lt_cons _ _
      | cons c l =>
          rw [List.flatMap_cons, List.flatMap_cons]
          rcases List.cons_lt_cons_iff.mp h with hhead | ⟨rfl, htail⟩
          · exact encode_append_lt hhead _ _
          · exact List.append_left_lt (ih htail)

theorem lt_iff_bytes_lt {s t : String} : s < t ↔ bytes s < bytes t := by
  rw [bytes_eq_flatMap, bytes_eq_flatMap, String.lt_iff]
  constructor
  · exact flatMap_lt
  · intro h
    by_contra hnot
    rcases List.le_iff_lt_or_eq.mp (List.not_lt.mp hnot) with hlt | heq
    · exact List.lt_asymm h (flatMap_lt hlt)
    · rw [heq] at h
      exact List.lt_irrefl _ h

end Registrar.Text
