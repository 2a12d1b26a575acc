import Registrar.Answer.Session
import Registrar.Proofs.Query.Acceptance

namespace Registrar

theorem QueryFault.code_eq_iff {fault : QueryFault} :
    fault.code = "QUERY_UNKNOWN_DATASET" ↔ ∃ id, fault = .unknownDataset id := by
  cases fault with
  | rejected cause =>
      have hcode : cause.code.text ≠ "QUERY_UNKNOWN_DATASET" := by
        cases cause.code <;> decide
      exact iff_of_false hcode nofun
  | unknownDataset id => exact iff_of_true rfl ⟨id, rfl⟩
  | tooLarge =>
      have hcode : TooLarge.code ≠ "QUERY_UNKNOWN_DATASET" := by decide
      exact iff_of_false hcode nofun

namespace Answer

variable {limit : Nat} {known : Known} {records : String → Option (List Record)} {value : Json}

theorem ofQuery_of_bound {b : Bound} {rs : List Record} (hb : Bound.ofJson known value = .ok b)
    (hrs : records b.dataset = some rs) :
    ofQuery limit known records value = (ofRecords limit b rs).mapError .tooLarge := by
  simp only [ofQuery, hb, hrs]
  cases ofRecords limit b rs <;> rfl

theorem ofQuery_eq_ok_iff {a : Answer} :
    ofQuery limit known records value = .ok a ↔
      ∃ b rs, Bound.ofJson known value = .ok b ∧ records b.dataset = some rs ∧
        ofRecords limit b rs = .ok a := by
  rw [ofQuery]
  cases hb : Bound.ofJson known value with
  | error => simp
  | ok b =>
      cases hrs : records b.dataset with
      | none => simp [hrs]
      | some rs => cases ha : ofRecords limit b rs <;> simp [hrs, ha]

theorem unknown_of_ofQuery {id : String}
    (h : ofQuery limit known records value = .error (.unknownDataset id)) :
    (∃ kind, Keyed.find? known id = some kind) ∧ records id = none := by
  rw [ofQuery] at h
  split at h
  · cases h
  · next b hb =>
    have hknown := ((Bound.ofJson_eq_ok_iff _ _ _).mp hb).2.2
    split at h
    · next hnone =>
      cases h
      exact ⟨⟨b.kind, hknown⟩, hnone⟩
    · split at h <;> cases h

end Answer

end Registrar
