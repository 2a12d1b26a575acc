namespace Registrar

structure Key where
  dataset : String
  field : String
  deriving DecidableEq, Repr

namespace Key

def separator : Char := '_'

def text (k : Key) : String :=
  k.dataset ++ String.singleton separator ++ k.field

def parse? (raw : String) : Option Key :=
  let dataset := raw.toList.takeWhile (· ≠ separator)
  match raw.toList.dropWhile (· ≠ separator) with
  | [] => none
  | _ :: field =>
      if dataset = [] ∨ field = [] ∨ separator ∈ field then none
      else some ⟨String.ofList dataset, String.ofList field⟩

def Proper (k : Key) : Prop :=
  k.dataset ≠ "" ∧ k.field ≠ "" ∧ separator ∉ k.dataset.toList ∧ separator ∉ k.field.toList

instance (k : Key) : Decidable k.Proper := inferInstanceAs (Decidable (_ ∧ _ ∧ _ ∧ _))

theorem toList_text (k : Key) :
    k.text.toList = k.dataset.toList ++ separator :: k.field.toList := by
  simp [text, String.toList_append]

theorem dropWhile_head {cs rest : List Char} {c : Char}
    (h : cs.dropWhile (· ≠ separator) = c :: rest) : c = separator := by
  have hc := List.head?_dropWhile_not (· ≠ separator) cs
  rw [h] at hc
  simpa using hc

theorem text_of_parse? {raw : String} {k : Key} (h : parse? raw = some k) : k.text = raw := by
  unfold parse? at h
  split at h
  · contradiction
  · next c field hdrop =>
    dsimp only at h
    split at h
    · contradiction
    · cases h
      have hc := dropWhile_head hdrop
      subst hc
      have happ := List.takeWhile_append_dropWhile (p := (· ≠ separator)) (l := raw.toList)
      rw [hdrop] at happ
      rw [← String.toList_inj, toList_text]
      simpa using happ

theorem parse?_text {k : Key} (hd : k.dataset ≠ "") (hf : k.field ≠ "")
    (hds : separator ∉ k.dataset.toList) (hfs : separator ∉ k.field.toList) :
    parse? k.text = some k := by
  have hall : ∀ c ∈ k.dataset.toList, (decide (c ≠ separator)) = true := by
    intro c hc
    exact decide_eq_true fun h => hds (h ▸ hc)
  have htake : k.text.toList.takeWhile (· ≠ separator) = k.dataset.toList := by
    rw [toList_text, List.takeWhile_append_of_pos hall]
    simp
  have hdrop : k.text.toList.dropWhile (· ≠ separator) = separator :: k.field.toList := by
    rw [toList_text, List.dropWhile_append_of_pos hall]
    simp
  simp only [parse?, htake, hdrop]
  simp [hd, hf, hfs]

theorem proper_of_parse? {raw : String} {k : Key} (h : parse? raw = some k) : k.Proper := by
  unfold parse? at h
  split at h
  · contradiction
  · dsimp only at h
    split at h
    · contradiction
    · next hparts =>
      cases h
      obtain ⟨hd, hf, hs⟩ := not_or.mp hparts |>.imp id not_or.mp
      refine ⟨by simpa using hd, by simpa using hf, ?_, by simpa using hs⟩
      rw [String.toList_ofList]
      intro hmem
      have hall := List.all_eq_true.mp (List.all_takeWhile (p := (· ≠ separator)) (l := raw.toList))
      exact of_decide_eq_true (hall _ hmem) rfl

theorem parse?_eq_some_iff {raw : String} {k : Key} :
    parse? raw = some k ↔ k.Proper ∧ raw = k.text := by
  constructor
  · exact fun h => ⟨proper_of_parse? h, (text_of_parse? h).symm⟩
  · rintro ⟨⟨hd, hf, hds, hfs⟩, rfl⟩
    exact parse?_text hd hf hds hfs

theorem text_injective {k l : Key} (hk : k.Proper) (hl : l.Proper) (h : k.text = l.text) :
    k = l := by
  have hk' := parse?_eq_some_iff.mpr ⟨hk, rfl⟩
  have hl' := parse?_eq_some_iff.mpr ⟨hl, h⟩
  exact Option.some.inj (hk'.symm.trans hl')

theorem field_inj {dataset field other : String}
    (h : text ⟨dataset, field⟩ = text ⟨dataset, other⟩) : field = other := by
  rw [← String.toList_inj, toList_text, toList_text] at h
  exact String.toList_inj.mp (List.cons.inj (List.append_cancel_left h)).2

theorem separator_mem_text (k : Key) : separator ∈ k.text.toList := by
  rw [toList_text]
  exact List.mem_append_right _ List.mem_cons_self

theorem count_separator_text (k : Key) :
    k.text.toList.count separator =
      k.dataset.toList.count separator + k.field.toList.count separator + 1 := by
  rw [toList_text, List.count_append, List.count_cons_self, Nat.add_assoc]

theorem proper_iff_count {k : Key} :
    k.Proper ↔ k.dataset ≠ "" ∧ k.field ≠ "" ∧ k.text.toList.count separator = 1 := by
  rw [count_separator_text, Proper, ← List.count_eq_zero, ← List.count_eq_zero]
  refine and_congr_right fun _ => and_congr_right fun _ => ?_
  omega

theorem parse?_isSome_iff {raw : String} :
    (parse? raw).isSome ↔ raw.toList.count separator = 1 ∧
      ∃ dataset field, dataset ≠ "" ∧ field ≠ "" ∧
        raw = dataset ++ String.singleton separator ++ field := by
  rw [Option.isSome_iff_exists]
  constructor
  · rintro ⟨k, hk⟩
    obtain ⟨hproper, rfl⟩ := parse?_eq_some_iff.mp hk
    obtain ⟨hd, hf, hcount⟩ := proper_iff_count.mp hproper
    exact ⟨hcount, k.dataset, k.field, hd, hf, rfl⟩
  · rintro ⟨hcount, d, f, hd, hf, rfl⟩
    exact ⟨⟨d, f⟩, parse?_eq_some_iff.mpr ⟨proper_iff_count.mpr ⟨hd, hf, hcount⟩, rfl⟩⟩

end Key

end Registrar
