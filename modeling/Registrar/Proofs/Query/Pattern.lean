import Mathlib.Data.List.Basic
import Registrar.Query.Pattern

namespace Registrar.Pattern

def Legal (text : String) : Prop :=
  text ≠ "**" ∧
    ∀ before after, text.toList = before ++ wildcard :: after → before = [] ∨ after = []

theorem ends_only_iff {first last : Char} {middle : List Char} :
    (∀ before after, first :: (middle ++ [last]) = before ++ wildcard :: after →
        before = [] ∨ after = []) ↔ wildcard ∉ middle := by
  constructor
  · intro h hmem
    obtain ⟨before, after, rfl⟩ := List.append_of_mem hmem
    rcases h (first :: before) (after ++ [last]) (by simp) with hnil | hnil
    · cases hnil
    · exact List.append_ne_nil_of_right_ne_nil after (List.cons_ne_nil last []) hnil
  · intro h before after heq
    rcases before with _ | ⟨b, before⟩
    · exact .inl rfl
    rcases after.eq_nil_or_concat with hnil | ⟨after, a, rfl⟩
    · exact .inr hnil
    refine absurd ?_ h
    have hmiddle : middle ++ [last] = (before ++ wildcard :: after) ++ [a] := by
      simpa using (List.cons.inj heq).2
    rw [(List.append_inj' hmiddle rfl).1]
    exact List.mem_append_right _ List.mem_cons_self

theorem toList_eq_nil_or_single_or_ends (cs : List Char) :
    cs = [] ∨ (∃ c, cs = [c]) ∨ ∃ first middle last, cs = first :: (middle ++ [last]) := by
  rcases cs with _ | ⟨first, cs⟩
  · exact .inl rfl
  rcases cs.eq_nil_or_concat with rfl | ⟨middle, last, rfl⟩
  · exact .inr (.inl ⟨first, rfl⟩)
  · exact .inr (.inr ⟨first, middle, last, by simp⟩)

theorem getLast?_ends (first last : Char) (middle : List Char) :
    (first :: (middle ++ [last])).getLast? = some last := by
  rw [← List.cons_append, List.getLast?_concat]

theorem dropLast_ends (first last : Char) (middle : List Char) :
    (first :: (middle ++ [last])).dropLast = first :: middle := by
  rw [← List.cons_append, List.dropLast_concat]

theorem parse?_isSome_iff (text : String) : (parse? text).isSome ↔ Legal text := by
  have hstars : text = "**" ↔ text.toList = [wildcard, wildcard] := by
    rw [← String.toList_inj]
    rfl
  rw [Legal, Ne, hstars, parse?]
  generalize text.toList = cs
  rcases toList_eq_nil_or_single_or_ends cs with rfl | ⟨c, rfl⟩ | ⟨first, middle, last, rfl⟩
  · simp
  · rcases eq_or_ne c wildcard with rfl | hc
    · simp [List.cons_eq_append_iff]
    · simp [hc, hc.symm, List.cons_eq_append_iff]
  · rw [ends_only_iff]
    rcases eq_or_ne first wildcard with rfl | hfirst <;>
      rcases eq_or_ne last wildcard with rfl | hlast
    · by_cases hmiddle : wildcard ∈ middle <;> simp [getLast?_ends, hmiddle]
    · have hne : middle ++ [last] ≠ [wildcard] := by simp [List.append_eq_singleton_iff, hlast]
      simp [getLast?_ends, hlast, hlast.symm, hne]
    · simp [getLast?_ends, dropLast_ends, hfirst, hfirst.symm]
    · simp [getLast?_ends, hfirst, hlast, hfirst.symm, hlast.symm]

example : parse? "a*b" = none ∧ parse? "**" = none ∧ parse? "*a*" = some (.contains "a") := by
  decide

def text : Pattern → String
  | .any => "*"
  | .contains inner => "*" ++ inner ++ "*"
  | .startsWith inner => inner ++ "*"
  | .endsWith inner => "*" ++ inner
  | .exact inner => inner

theorem text_of_parse? {raw : String} {p : Pattern} (h : parse? raw = some p) : p.text = raw := by
  have hstar : "*".toList = [wildcard] := rfl
  rw [← String.toList_inj]
  unfold parse? at h
  generalize raw.toList = cs at h ⊢
  rcases toList_eq_nil_or_single_or_ends cs with rfl | ⟨c, rfl⟩ | ⟨first, middle, last, rfl⟩
  · cases h
    rfl
  · rcases eq_or_ne c wildcard with rfl | hc
    · cases h
      rfl
    · obtain rfl : .exact (String.ofList [c]) = p := by simpa [hc, hc.symm] using h
      rw [text, String.toList_ofList]
  · rcases eq_or_ne first wildcard with rfl | hfirst <;>
      rcases eq_or_ne last wildcard with rfl | hlast
    · obtain ⟨_, _, rfl⟩ :
          wildcard ∉ middle ∧ middle ≠ [] ∧ .contains (String.ofList middle) = p := by
        simpa [getLast?_ends] using h
      simp [text, hstar]
    · obtain ⟨_, rfl⟩ :
          wildcard ∉ middle ∧ .endsWith (String.ofList (middle ++ [last])) = p := by
        simpa [getLast?_ends, hlast, hlast.symm] using h
      simp [text, hstar]
    · obtain ⟨_, rfl⟩ :
          wildcard ∉ middle ∧ .startsWith (String.ofList (first :: middle)) = p := by
        simpa [getLast?_ends, dropLast_ends, hfirst, hfirst.symm] using h
      simp [text, hstar]
    · obtain ⟨_, rfl⟩ :
          wildcard ∉ middle ∧ .exact (String.ofList (first :: (middle ++ [last]))) = p := by
        simpa [getLast?_ends, hfirst, hlast, hfirst.symm, hlast.symm] using h
      rw [text, String.toList_ofList]

end Registrar.Pattern
