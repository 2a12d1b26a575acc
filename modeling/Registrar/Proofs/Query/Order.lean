import Registrar.Proofs.Query.Shape
import Registrar.Query.Reader

namespace Registrar

open Query

theorem Direction.ofToken?_eq_some_iff {token : String} {d : Direction} :
    ofToken? token = some d ↔ token = d.token := by
  constructor
  · intro h
    unfold ofToken? at h
    split at h <;> cases h <;> rfl
  · rintro rfl
    exact ofToken?_token d

namespace Order

def keys : Order → List String
  | .single key => [key]
  | .composite _ keys => keys

structure Legal (columns : List String) (o : Order) : Prop where
  nonempty : o.keys ≠ []
  within : ∀ key ∈ o.keys, key ∈ columns

inductive Written : Order → Json → Prop
  | single (key : String) : Written (.single key) (.str key)
  | composite {members : Keyed Json} {directionKey : String} (direction : Direction)
      (keys : List String) (named : directionKey ∈ directionKeys)
      (exactly : Shape.Exactly ["keys", directionKey] [] members)
      (directed : Keyed.find? members directionKey = some (.str direction.token))
      (listed : Keyed.find? members "keys" = some (.arr (keys.map .str))) :
      Written (.composite direction keys) (.obj members)

variable {columns : List String}

theorem checkKey_eq_ok_iff {key : String} : checkKey columns key = .ok () ↔ key ∈ columns := by
  simp [checkKey]

theorem readKey_eq_ok_iff {value : Json} {key : String} :
    readKey columns value = .ok key ↔ key ∈ columns ∧ value = .str key := by
  simp only [readKey, Except.bind_eq_ok_iff, Shape.string_eq_ok_iff, Except.pure_eq_ok_iff]
  constructor
  · rintro ⟨_, rfl, _, hkey, rfl⟩
    exact ⟨checkKey_eq_ok_iff.mp hkey, rfl⟩
  · rintro ⟨hkey, rfl⟩
    exact ⟨key, rfl, (), checkKey_eq_ok_iff.mpr hkey, rfl⟩

theorem find?_directionKeys {members : Keyed Json} {directionKey : String}
    (named : directionKey ∈ directionKeys)
    (exactly : Shape.Exactly ["keys", directionKey] [] members) :
    directionKeys.find? (Keyed.contains members) = some directionKey := by
  have hthere : Keyed.contains members directionKey = true :=
    (Keyed.find?_isSome_iff _ _).mpr (exactly.1 _ (by simp))
  have hnamed : directionKey = "dir" ∨ directionKey = "direction" := by
    simpa [directionKeys] using named
  rcases hnamed with rfl | rfl
  · simp [directionKeys, hthere]
  · have hother : Keyed.contains members "dir" = false := by
      rw [Bool.eq_false_iff]
      intro hdir
      have hmem := exactly.2 "dir" ((Keyed.find?_isSome_iff _ _).mp hdir)
      simp at hmem
    simp [directionKeys, hthere, hother]

theorem readComposite_eq_ok_iff {members : Keyed Json} {o : Order} :
    readComposite columns members = .ok o ↔ o.Legal columns ∧ Written o (.obj members) := by
  unfold readComposite
  constructor
  · intro h
    split at h
    · exact (Except.throw_eq_ok_iff.mp h).elim
    · next directionKey hfind =>
      simp only [Except.bind_eq_ok_iff, Shape.member_eq_ok_iff, Shape.string_eq_ok_iff] at h
      obtain ⟨_, hexact, _, hdirected, token, rfl, h⟩ := h
      split at h
      · exact (Except.throw_eq_ok_iff.mp h).elim
      · next direction htoken =>
        simp only [Except.bind_eq_ok_iff, Shape.member_eq_ok_iff, Shape.nonEmptyArray_eq_ok_iff,
          Except.mapM_eq_ok_iff fun _ _ => readKey_eq_ok_iff, Except.pure_eq_ok_iff] at h
        obtain ⟨_, hlisted, _, ⟨rfl, hne⟩, keys, ⟨hwithin, rfl⟩, rfl⟩ := h
        cases Direction.ofToken?_eq_some_iff.mp htoken
        refine ⟨⟨fun hnil => hne (List.map_eq_nil_iff.mpr hnil), hwithin⟩, ?_⟩
        exact .composite direction keys (List.mem_of_find?_eq_some hfind)
          (Shape.exactKeys_eq_ok_iff.mp hexact) hdirected hlisted
  · rintro ⟨⟨hne, hwithin⟩, hwritten⟩
    cases hwritten with
    | composite direction keys named exactly directed listed =>
        simp only [find?_directionKeys named exactly, Except.bind_eq_ok_iff,
          Shape.member_eq_ok_iff, Shape.string_eq_ok_iff]
        refine ⟨(), Shape.exactKeys_eq_ok_iff.mpr exactly, _, directed, _, rfl, ?_⟩
        simp only [Direction.ofToken?_token, Except.bind_eq_ok_iff, Shape.member_eq_ok_iff,
          Shape.nonEmptyArray_eq_ok_iff, Except.mapM_eq_ok_iff fun _ _ => readKey_eq_ok_iff,
          Except.pure_eq_ok_iff]
        refine ⟨_, listed, _, ⟨rfl, fun hnil => hne (List.map_eq_nil_iff.mp hnil)⟩, keys, ?_, rfl⟩
        exact ⟨hwithin, rfl⟩

theorem ofJson_eq_ok_iff {value : Json} {o : Order} :
    ofJson columns value = .ok o ↔ o.Legal columns ∧ Written o value := by
  cases value with
  | str key =>
      simp only [ofJson, Except.bind_eq_ok_iff, Except.pure_eq_ok_iff]
      constructor
      · rintro ⟨_, hkey, rfl⟩
        refine ⟨⟨by simp [keys], ?_⟩, .single key⟩
        simpa [keys] using checkKey_eq_ok_iff.mp hkey
      · rintro ⟨⟨_, hwithin⟩, hwritten⟩
        cases hwritten
        exact ⟨(), checkKey_eq_ok_iff.mpr (hwithin key (by simp [keys])), rfl⟩
  | obj members => exact readComposite_eq_ok_iff
  | _ => exact ⟨fun h => (Except.throw_eq_ok_iff.mp h).elim, fun h => nomatch h.2⟩

end Order

end Registrar
