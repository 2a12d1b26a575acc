import Registrar.Proofs.Answer.Average
import Registrar.Proofs.Answer.Grouped
import Registrar.Proofs.Answer.Plain
import Registrar.Proofs.Registry.Invariant
import Registrar.Proofs.Service.Texts

namespace Registrar

namespace Cell

structure Present (c : Cell) : Prop where
  finite : c.Finite
  json : c.toJson ≠ .null
  wire : c.wire ≠ "null"

theorem Finite.toJson_ne_null {c : Cell} (h : c.Finite) : c.toJson ≠ .null := by
  intro hnull
  cases c with
  | text => cases hnull
  | number x =>
      have hfinite : x.isFinite = true := h
      rw [toJson, Json.ofBinary64, hfinite] at hnull
      cases hshort : x.shortInt? <;> rw [hshort] at hnull <;> cases hnull

theorem Finite.present {c : Cell} (h : c.Finite) : c.Present := by
  refine ⟨h, h.toJson_ne_null, fun hwire => h.toJson_ne_null ?_⟩
  have hcell : Json.readAs? _ c.wire = some c.toJson := c.returns_nearest
  rw [hwire, Json.spells_null.readAs?] at hcell
  exact (Option.some.inj hcell).symm

end Cell

namespace Aggregate

def Fits (a : Aggregate) (cells : List Cell) : Prop :=
  match a with
  | .max | .min => True
  | .sum => (total (numbers cells) * .ofNat 100).isFinite
  | .avg =>
      ((Total.ofList (numbers cells)).toBinary64 / .ofNat (numbers cells).length *
        .ofNat 100).isFinite
  | .count => distinct cells < UInt64.size

instance : (a : Aggregate) → (cells : List Cell) → Decidable (a.Fits cells)
  | .max, _ => isTrue trivial
  | .min, _ => isTrue trivial
  | .sum, _ => inferInstanceAs (Decidable (_ = true))
  | .avg, _ => inferInstanceAs (Decidable (_ = true))
  | .count, _ => inferInstanceAs (Decidable (_ < _))

end Aggregate

namespace Grouping

variable {g : Grouping} {group : List Record}

end Grouping

namespace Bound

end Bound

def Dataset.FromJson (d : Dataset) : Prop :=
  ∃ payload : Json, payload.isWellFormed ∧ parseRecords d.kind payload = .ok d.records

namespace Registry

def FromJson (r : Registry) : Prop := ∀ e ∈ r.datasets, e.2.FromJson

end Registry

namespace Sample

def serving (hall : Json) : Registry :=
  (Registry.fresh 5000).after [.addJson "" "halls" .rooms (.arr [hall])]

end Sample

end Registrar
