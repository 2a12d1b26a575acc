import Registrar.Proofs.Query.Shape
import Registrar.Query.Where

namespace Registrar

open Query

theorem Comparison.ofToken?_eq_some_iff {token : String} {c : Comparison} :
    ofToken? token = some c ↔ token = c.token := by
  constructor
  · intro h
    unfold ofToken? at h
    split at h <;> cases h <;> rfl
  · rintro rfl
    exact ofToken?_token c

namespace Filter

mutual

inductive Written : Filter → Json → Prop
  | not {inner : Filter} {payload : Json} (body : Written inner payload) :
      Written (.not inner) (.obj [("NOT", payload)])
  | and {parts : List Filter} {items : List Json} (nonempty : parts ≠ [])
      (body : ListWritten parts items) : Written (.and parts) (.obj [("AND", .arr items)])
  | or {parts : List Filter} {items : List Json} (nonempty : parts ≠ [])
      (body : ListWritten parts items) : Written (.or parts) (.obj [("OR", .arr items)])
  | number (comparison : Comparison) {key : Key} {literal : Json} {x : Binary64}
      (proper : key.Proper) (value : literal.number? = some x) :
      Written (.number comparison key x) (.obj [(comparison.token, .obj [(key.text, literal)])])
  | text {key : Key} {raw : String} {pattern : Pattern}
      (proper : key.Proper) (value : Pattern.parse? raw = some pattern) :
      Written (.text key pattern) (.obj [("IS", .obj [(key.text, .str raw)])])

inductive ListWritten : List Filter → List Json → Prop
  | nil : ListWritten [] []
  | cons {f : Filter} {rest : List Filter} {item : Json} {items : List Json}
      (head : Written f item) (tail : ListWritten rest items) :
      ListWritten (f :: rest) (item :: items)

end

theorem ListWritten.ne_nil_iff {parts : List Filter} {items : List Json}
    (h : ListWritten parts items) : parts ≠ [] ↔ items ≠ [] := by
  cases h <;> simp

theorem written_of_readNumber {c : Comparison} {payload : Json} {f : Filter}
    (h : readNumber c payload = .ok f) : Written f (.obj [(c.token, payload)]) := by
  simp only [readNumber, Except.bind_eq_ok_iff, Shape.single_eq_ok_iff, Shape.key_eq_ok_iff] at h
  obtain ⟨⟨raw, literal⟩, rfl, key, ⟨hkey, rfl⟩, h⟩ := h
  split at h
  · next x hx =>
    cases Except.pure_eq_ok_iff.mp h
    exact .number c hkey hx
  · exact (Except.throw_eq_ok_iff.mp h).elim

theorem written_of_readText {payload : Json} {f : Filter}
    (h : readText payload = .ok f) : Written f (.obj [("IS", payload)]) := by
  simp only [readText, Except.bind_eq_ok_iff, Shape.single_eq_ok_iff, Shape.key_eq_ok_iff,
    Shape.string_eq_ok_iff] at h
  obtain ⟨⟨raw, literal⟩, rfl, key, ⟨hkey, rfl⟩, text, hliteral, h⟩ := h
  dsimp only at hliteral
  subst hliteral
  split at h
  · next pattern hpattern =>
    cases Except.pure_eq_ok_iff.mp h
    exact .text hkey hpattern
  · exact (Except.throw_eq_ok_iff.mp h).elim

theorem ofItems_cons_eq_ok_iff {item : Json} {items : List Json} {parts : List Filter} :
    ofItems (item :: items) = .ok parts ↔
      ∃ f rest, ofJson item = .ok f ∧ ofItems items = .ok rest ∧ parts = f :: rest := by
  simp only [ofItems, Except.bind_eq_ok_iff, Except.pure_eq_ok_iff]
  constructor
  · rintro ⟨f, hf, rest, hrest, rfl⟩
    exact ⟨f, rest, hf, hrest, rfl⟩
  · rintro ⟨f, rest, hf, hrest, rfl⟩
    exact ⟨f, hf, rest, hrest, rfl⟩

theorem ofJson_comparison (c : Comparison) (payload : Json) :
    ofJson (.obj [(c.token, payload)]) = readNumber c payload := by
  cases c <;> rfl

theorem ofJson_and_cons (item : Json) (items : List Json) :
    ofJson (.obj [("AND", .arr (item :: items))]) = .and <$> ofItems (item :: items) := by
  rfl

theorem ofJson_or_cons (item : Json) (items : List Json) :
    ofJson (.obj [("OR", .arr (item :: items))]) = .or <$> ofItems (item :: items) := by
  rfl

theorem written_of_ofJson {value : Json} {f : Filter} (h : ofJson value = .ok f) :
    Written f value := by
  revert f
  refine ofJson.induct (fun value => ∀ {f}, ofJson value = .ok f → Written f value)
    (fun items => ∀ {parts}, ofItems items = .ok parts → ListWritten parts items)
    ?noneOfAll ?all ?notAll ?noneOfAny ?any ?notAny ?notObject ?not ?text ?number ?unknown
    ?several ?other ?nil ?cons value
  case all =>
    intro item items ih f h
    simp only [ofJson, Except.bind_eq_ok_iff, Except.pure_eq_ok_iff] at h
    obtain ⟨parts, hparts, rfl⟩ := h
    obtain ⟨first, rest, -, -, rfl⟩ := ofItems_cons_eq_ok_iff.mp hparts
    exact .and (List.cons_ne_nil _ _) (ih hparts)
  case any =>
    intro item items ih f h
    simp only [ofJson, Except.bind_eq_ok_iff, Except.pure_eq_ok_iff] at h
    obtain ⟨parts, hparts, rfl⟩ := h
    obtain ⟨first, rest, -, -, rfl⟩ := ofItems_cons_eq_ok_iff.mp hparts
    exact .or (List.cons_ne_nil _ _) (ih hparts)
  case not =>
    intro payload members hpayload ih f h
    simp only [ofJson, hpayload, Except.bind_eq_ok_iff, Except.pure_eq_ok_iff] at h
    obtain ⟨inner, hinner, rfl⟩ := h
    exact .not (ih hinner)
  case text =>
    intro payload f h
    exact written_of_readText h
  case number =>
    intro tag payload c htag _ _ _ _ f h
    cases Comparison.ofToken?_eq_some_iff.mp htag
    rw [ofJson_comparison] at h
    exact written_of_readNumber h
  case nil =>
    intro parts h
    cases Except.pure_eq_ok_iff.mp h
    exact .nil
  case cons =>
    intro item items ihitem ihitems parts h
    obtain ⟨f, rest, hf, hrest, rfl⟩ := ofItems_cons_eq_ok_iff.mp h
    exact .cons (ihitem hf) (ihitems hrest)
  case noneOfAll | noneOfAny => exact nofun
  case notAll | notAny =>
    intro payload hnil hcons f h
    cases payload with
    | arr items =>
        cases items with
        | nil => exact (hnil rfl).elim
        | cons item items => exact (hcons item items rfl).elim
    | _ => cases h
  case notObject =>
    intro payload hpayload f h
    simp [ofJson, hpayload, Except.throw_eq_ok_iff] at h
  case unknown =>
    intro tag payload htag hand hor hnot his f h
    rw [ofJson.eq_def] at h
    simp [htag, Except.throw_eq_ok_iff] at h
  case several =>
    intro members hmany f h
    simp [ofJson, Except.throw_eq_ok_iff] at h
  case other =>
    intro value hone hmany f h
    simp [ofJson, Except.throw_eq_ok_iff] at h

theorem object_of_written {f : Filter} {value : Json} (h : Written f value) :
    ∃ members, value = .obj members := by
  cases h <;> exact ⟨_, rfl⟩

theorem ofJson_of_written {value : Json} {f : Filter} (h : Written f value) :
    ofJson value = .ok f := by
  refine @Written.rec (fun f value _ => ofJson value = .ok f)
    (fun parts items _ => ofItems items = .ok parts) ?not ?and ?or ?number ?text ?nil ?cons
    f value h
  case not =>
    intro inner payload hbody ih
    obtain ⟨members, rfl⟩ := object_of_written hbody
    simp only [ofJson, Json.object?, ih]
    rfl
  case and =>
    intro parts items hne hbody ih
    cases hbody with
    | nil => exact absurd rfl hne
    | cons => rw [ofJson_and_cons, ih]; rfl
  case or =>
    intro parts items hne hbody ih
    cases hbody with
    | nil => exact absurd rfl hne
    | cons => rw [ofJson_or_cons, ih]; rfl
  case number =>
    intro c key literal x hkey hx
    rw [ofJson_comparison]
    simp only [readNumber, Except.bind_eq_ok_iff, Shape.single_eq_ok_iff, Shape.key_eq_ok_iff]
    refine ⟨_, rfl, key, ⟨hkey, rfl⟩, ?_⟩
    rw [hx]
    rfl
  case text =>
    intro key raw pattern hkey hpattern
    change readText _ = _
    simp only [readText, Except.bind_eq_ok_iff, Shape.single_eq_ok_iff, Shape.key_eq_ok_iff,
      Shape.string_eq_ok_iff]
    refine ⟨_, rfl, key, ⟨hkey, rfl⟩, _, rfl, ?_⟩
    rw [hpattern]
    rfl
  case nil => rfl
  case cons =>
    intro f rest item items hhead htail ihhead ihtail
    exact ofItems_cons_eq_ok_iff.mpr ⟨f, rest, ihhead, ihtail, rfl⟩

theorem ofJson_eq_ok_iff {value : Json} {f : Filter} : ofJson value = .ok f ↔ Written f value :=
  ⟨written_of_ofJson, ofJson_of_written⟩

end Filter

end Registrar
