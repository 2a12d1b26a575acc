import Registrar.Proofs.Success

namespace Except

variable {ε α β : Type} {x : Except ε α} {p q : ε → Prop}

def Raises (x : Except ε α) (p : ε → Prop) : Prop := ∀ e, x = .error e → p e

theorem raises_ok {a : α} : (.ok a : Except ε α).Raises p := nofun

theorem raises_pure {a : α} : (pure a : Except ε α).Raises p := nofun

theorem raises_error {e : ε} (h : p e) : (.error e : Except ε α).Raises p := by
  rintro _ ⟨⟩
  exact h

theorem raises_throw {e : ε} (h : p e) : (throw e : Except ε α).Raises p := raises_error h

theorem Raises.mono (hx : x.Raises p) (h : ∀ e, p e → q e) : x.Raises q :=
  fun e he => h e (hx e he)

theorem Raises.bind {f : α → Except ε β} (hx : x.Raises p)
    (hf : ∀ a, x = .ok a → (f a).Raises p) : (x >>= f).Raises p := by
  intro e he
  rcases bind_eq_error_iff.mp he with he | ⟨a, ha, he⟩
  · exact hx e he
  · exact hf a ha e he

theorem Raises.map (hx : x.Raises p) (f : α → β) : (f <$> x).Raises p := by
  cases x with
  | ok => exact raises_ok
  | error e => exact raises_error (hx e rfl)

theorem raises_mapM {f : α → Except ε β} {xs : List α} (h : ∀ x ∈ xs, (f x).Raises p) :
    (xs.mapM f).Raises p := by
  induction xs with
  | nil => exact raises_pure
  | cons x xs ih =>
      obtain ⟨hx, hxs⟩ := List.forall_mem_cons.mp h
      rw [List.mapM_cons]
      exact hx.bind fun _ _ => (ih hxs).bind fun _ _ => raises_pure

theorem raises_forM {f : α → Except ε Unit} {xs : List α} (h : ∀ x ∈ xs, (f x).Raises p) :
    (forM xs f : Except ε Unit).Raises p := by
  induction xs with
  | nil => exact raises_pure
  | cons x xs ih =>
      obtain ⟨hx, hxs⟩ := List.forall_mem_cons.mp h
      exact hx.bind fun _ _ => ih hxs

end Except
