import Registrar.Proofs.Query.Pattern

namespace Registrar.Pattern

inductive Fills : List Char → List Char → Prop
  | nil : Fills [] []
  | wild (filling : List Char) {pattern value : List Char} (h : Fills pattern value) :
      Fills (wildcard :: pattern) (filling ++ value)
  | plain {c : Char} (hc : c ≠ wildcard) {pattern value : List Char} (h : Fills pattern value) :
      Fills (c :: pattern) (c :: value)

theorem fills_nil_iff {value : List Char} : Fills [] value ↔ value = [] := by
  constructor
  · rintro ⟨⟩
    rfl
  · rintro rfl
    exact .nil

theorem fills_wild_iff {pattern value : List Char} :
    Fills (wildcard :: pattern) value ↔
      ∃ filling rest, value = filling ++ rest ∧ Fills pattern rest := by
  constructor
  · intro h
    cases h with
    | wild filling h => exact ⟨filling, _, rfl, h⟩
    | plain hc => exact absurd rfl hc
  · rintro ⟨filling, rest, rfl, h⟩
    exact .wild filling h

theorem fills_append_iff {inner : List Char} (hinner : wildcard ∉ inner)
    {pattern value : List Char} :
    Fills (inner ++ pattern) value ↔ ∃ rest, value = inner ++ rest ∧ Fills pattern rest := by
  induction inner generalizing value with
  | nil => simp
  | cons c inner ih =>
      obtain ⟨hc, hinner⟩ := not_or.mp (mt List.mem_cons.mpr hinner)
      constructor
      · intro h
        cases h with
        | wild => exact absurd rfl hc
        | plain _ h =>
            obtain ⟨rest, rfl, hrest⟩ := (ih hinner).mp h
            exact ⟨rest, rfl, hrest⟩
      · rintro ⟨rest, rfl, hrest⟩
        exact .plain (Ne.symm hc) ((ih hinner).mpr ⟨rest, rfl, hrest⟩)

theorem fills_plain_iff {inner value : List Char} (hinner : wildcard ∉ inner) :
    Fills inner value ↔ value = inner := by
  have h := @fills_append_iff inner hinner [] value
  simpa [fills_nil_iff] using h

theorem fills_wildcard (value : List Char) : Fills [wildcard] value :=
  fills_wild_iff.mpr ⟨value, [], (List.append_nil value).symm, .nil⟩

def Settled : Pattern → Prop
  | .any => True
  | .contains inner => wildcard ∉ inner.toList
  | .startsWith inner => wildcard ∉ inner.toList
  | .endsWith inner => wildcard ∉ inner.toList
  | .exact inner => wildcard ∉ inner.toList

theorem settled_of_parse? {raw : String} {p : Pattern} (h : parse? raw = some p) : p.Settled := by
  unfold parse? at h
  extract_lets cs leading trailing opened inner text at h
  split at h
  · cases h
    trivial
  · split at h
    · cases h
    · next hinner =>
      have htext : wildcard ∉ text.toList := by rwa [String.toList_ofList]
      clear_value leading trailing inner text
      cases leading <;> cases trailing <;> dsimp only at h
      case true.true =>
        split at h
        · cases h
        · cases h
          exact htext
      all_goals
        cases h
        exact htext

theorem holds_iff_fills {p : Pattern} (hp : p.Settled) (value : String) :
    p.holds value ↔ Fills p.text.toList value.toList := by
  have hstar : "*".toList = [wildcard] := rfl
  cases p with
  | any => exact iff_of_true rfl (fills_wildcard _)
  | contains inner =>
      rw [holds, String.contains_string_iff, text, String.toList_append, String.toList_append,
        hstar, List.append_assoc, List.singleton_append, fills_wild_iff]
      constructor
      · rintro ⟨filling, rest, h⟩
        refine ⟨filling, inner.toList ++ rest, ?_, ?_⟩
        · rw [← h, List.append_assoc]
        · exact (fills_append_iff hp).mpr ⟨rest, rfl, fills_wildcard rest⟩
      · rintro ⟨filling, tail, h, hfills⟩
        obtain ⟨rest, rfl, _⟩ := (fills_append_iff hp).mp hfills
        exact ⟨filling, rest, by rw [h, List.append_assoc]⟩
  | startsWith inner =>
      rw [holds, List.isPrefixOf_iff_prefix, text, String.toList_append, hstar,
        fills_append_iff hp]
      constructor
      · rintro ⟨rest, h⟩
        exact ⟨rest, h.symm, fills_wildcard rest⟩
      · rintro ⟨rest, h, _⟩
        exact ⟨rest, h.symm⟩
  | endsWith inner =>
      rw [holds, List.isSuffixOf_iff_suffix, text, String.toList_append, hstar,
        List.singleton_append, fills_wild_iff]
      constructor
      · rintro ⟨filling, h⟩
        exact ⟨filling, inner.toList, h.symm, (fills_plain_iff hp).mpr rfl⟩
      · rintro ⟨filling, rest, h, hfills⟩
        cases (fills_plain_iff hp).mp hfills
        exact ⟨filling, h.symm⟩
  | exact inner =>
      rw [holds, decide_eq_true_iff, text, fills_plain_iff hp, String.toList_inj]

theorem fills_of_parse? (raw : String) :
    ((parse? raw).isSome ↔ raw = "*" ∨ Legal raw) ∧
    ∀ p, parse? raw = some p →
      (∀ value, p.holds value ↔ Fills raw.toList value.toList) ∧
      ∀ other, parse? other = some p → other = raw := by
  constructor
  · rw [parse?_isSome_iff]
    refine ⟨.inr, ?_⟩
    rintro (rfl | h)
    · exact (parse?_isSome_iff "*").mp rfl
    · exact h
  · intro p hp
    have htext := text_of_parse? hp
    refine ⟨fun value => ?_, fun other hother => ?_⟩
    · rw [← htext]
      exact holds_iff_fills (settled_of_parse? hp) value
    · rw [← htext, text_of_parse? hother]

theorem fills_overlap :
    parse? "*éaé*" = some (.contains "éaé") ∧
      Fills "*éaé*".toList "éaéaé*".toList ∧ ¬Fills "*éaé*".toList "éa*é".toList := by
  have hparse : parse? "*éaé*" = some (.contains "éaé") := by decide
  obtain ⟨hmatches, _⟩ := (fills_of_parse? "*éaé*").2 _ hparse
  refine ⟨hparse, (hmatches "éaéaé*").mp ?_, mt (hmatches "éa*é").mpr ?_⟩
  · rw [holds, String.contains_string_iff]
    decide
  · rw [holds, String.contains_string_iff]
    decide

end Registrar.Pattern
