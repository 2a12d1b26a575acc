import Registrar.Proofs.Query.Shape
import Registrar.Query.Reader

namespace Registrar

open Query

theorem Aggregate.ofToken?_eq_some_iff {token : String} {a : Aggregate} :
    ofToken? token = some a ↔ token = a.token := by
  constructor
  · intro h
    unfold ofToken? at h
    split at h <;> cases h <;> rfl
  · rintro rfl
    exact ofToken?_token a

namespace Rule

structure Legal (r : Rule) : Prop where
  nonempty : r.name ≠ ""
  unseparated : Key.separator ∉ r.name.toList
  proper : r.key.Proper

def toJson (r : Rule) : Json :=
  .obj [(r.name, .obj [(r.aggregate.token, .str r.key.text)])]

theorem checkName_eq_ok_iff {name : String} :
    checkName name = .ok () ↔ name ≠ "" ∧ Key.separator ∉ name.toList := by
  unfold checkName
  split
  · next h => simp [h]
  · next h =>
    split
    · next hs => simpa using fun _ => by simpa using hs
    · next hs => simpa [h] using hs

theorem ofJson_eq_ok_iff {value : Json} {r : Rule} :
    ofJson value = .ok r ↔ r.Legal ∧ value = r.toJson := by
  constructor
  · intro h
    simp only [ofJson, Except.bind_eq_ok_iff, Shape.single_eq_ok_iff] at h
    obtain ⟨⟨name, body⟩, rfl, _, hname, ⟨token, target⟩, hbody, h⟩ := h
    obtain ⟨hne, hsep⟩ := checkName_eq_ok_iff.mp hname
    cases ha : Aggregate.ofToken? token with
    | none => simp [ha, Except.throw_eq_ok_iff] at h
    | some aggregate =>
        simp only [ha, Except.bind_eq_ok_iff, Shape.string_eq_ok_iff, Shape.key_eq_ok_iff,
          Except.pure_eq_ok_iff] at h
        obtain ⟨_, htarget, key, ⟨hkey, rfl⟩, rfl⟩ := h
        refine ⟨⟨hne, hsep, hkey⟩, ?_⟩
        dsimp only at hbody htarget
        rw [toJson, hbody, htarget, Aggregate.ofToken?_eq_some_iff.mp ha]
  · rintro ⟨⟨hne, hsep, hkey⟩, rfl⟩
    simp only [ofJson, Except.bind_eq_ok_iff, Shape.single_eq_ok_iff]
    refine ⟨_, rfl, (), checkName_eq_ok_iff.mpr ⟨hne, hsep⟩, _, rfl, ?_⟩
    simp only [Aggregate.ofToken?_token, Except.bind_eq_ok_iff, Shape.string_eq_ok_iff,
      Shape.key_eq_ok_iff, Except.pure_eq_ok_iff]
    exact ⟨r.key.text, rfl, r.key, ⟨hkey, rfl⟩, rfl⟩

theorem ofItems_cons_eq_ok_iff {declared : List String} {item : Json} {items : List Json}
    {rules : List Rule} :
    ofItems declared (item :: items) = .ok rules ↔
      ∃ r rest, ofJson item = .ok r ∧ r.name ∉ declared ∧
        ofItems (r.name :: declared) items = .ok rest ∧ rules = r :: rest := by
  simp only [ofItems, Except.bind_eq_ok_iff]
  constructor
  · rintro ⟨r, hr, h⟩
    split at h
    · simp [Except.bind_eq_ok_iff, Except.throw_eq_ok_iff] at h
    · next hd =>
      simp only [Except.bind_eq_ok_iff, Except.pure_eq_ok_iff] at h
      obtain ⟨rest, hrest, rfl⟩ := h
      exact ⟨r, rest, hr, by simpa using hd, hrest, rfl⟩
  · rintro ⟨r, rest, hr, hd, hrest, rfl⟩
    refine ⟨r, hr, ?_⟩
    rw [if_neg (by simpa using hd)]
    simp only [Except.bind_eq_ok_iff, Except.pure_eq_ok_iff]
    exact ⟨rest, hrest, rfl⟩

theorem ofItems_eq_ok_iff {declared : List String} {items : List Json} {rules : List Rule} :
    ofItems declared items = .ok rules ↔
      (∀ r ∈ rules, r.Legal ∧ r.name ∉ declared) ∧ (rules.map name).Nodup ∧
        items = rules.map toJson := by
  induction items generalizing declared rules with
  | nil =>
      rw [ofItems, Except.pure_eq_ok_iff]
      constructor
      · rintro rfl
        simp
      · rintro ⟨_, _, hitems⟩
        exact (List.map_eq_nil_iff.mp hitems.symm).symm
  | cons item items ih =>
      rw [ofItems_cons_eq_ok_iff]
      constructor
      · rintro ⟨r, rest, hr, hd, hrest, rfl⟩
        obtain ⟨hlegal, hnodup, rfl⟩ := ih.mp hrest
        obtain ⟨hlegal_r, rfl⟩ := ofJson_eq_ok_iff.mp hr
        refine ⟨?_, ?_, rfl⟩
        · rw [List.forall_mem_cons]
          refine ⟨⟨hlegal_r, hd⟩, fun s hs => ⟨(hlegal s hs).1, ?_⟩⟩
          exact fun hmem => (hlegal s hs).2 (List.mem_cons_of_mem _ hmem)
        · rw [List.map_cons, List.nodup_cons]
          refine ⟨fun hmem => ?_, hnodup⟩
          obtain ⟨s, hs, hname⟩ := List.mem_map.mp hmem
          exact (hlegal s hs).2 (hname ▸ List.mem_cons_self)
      · rintro ⟨hlegal, hnodup, hitems⟩
        cases rules with
        | nil => cases hitems
        | cons r rest =>
            obtain ⟨rfl, rfl⟩ := List.cons.inj hitems
            obtain ⟨⟨hr, hd⟩, hrest⟩ := List.forall_mem_cons.mp hlegal
            obtain ⟨hfresh, hnodup⟩ := List.nodup_cons.mp hnodup
            refine ⟨r, rest, ofJson_eq_ok_iff.mpr ⟨hr, rfl⟩, hd, ih.mpr ⟨?_, hnodup, rfl⟩, rfl⟩
            intro s hs
            refine ⟨(hrest s hs).1, fun hmem => ?_⟩
            rcases List.mem_cons.mp hmem with heq | hmem
            · exact hfresh (heq ▸ List.mem_map_of_mem hs)
            · exact (hrest s hs).2 hmem

end Rule

namespace Key

def toJson (k : Key) : Json := .str k.text

end Key

namespace Grouping

structure Legal (g : Grouping) : Prop where
  nonempty : g.keys ≠ []
  proper : ∀ k ∈ g.keys, k.Proper
  rules : ∀ r ∈ g.rules, r.Legal
  distinct : (g.rules.map Rule.name).Nodup

theorem readKey_eq_ok_iff {value : Json} {k : Key} :
    readKey value = .ok k ↔ k.Proper ∧ value = k.toJson := by
  simp only [readKey, Except.bind_eq_ok_iff, Shape.string_eq_ok_iff, Shape.key_eq_ok_iff]
  constructor
  · rintro ⟨_, rfl, hk, rfl⟩
    exact ⟨hk, rfl⟩
  · rintro ⟨hk, rfl⟩
    exact ⟨k.text, rfl, hk, rfl⟩

inductive Written (g : Grouping) : Json → Prop
  | sections {members : Keyed Json} (exactly : Shape.Exactly ["GROUP", "APPLY"] [] members)
      (group : Keyed.find? members "GROUP" = some (.arr (g.keys.map Key.toJson)))
      (apply : Keyed.find? members "APPLY" = some (.arr (g.rules.map Rule.toJson))) :
      Written g (.obj members)

theorem ofJson_eq_ok_iff {value : Json} {g : Grouping} :
    ofJson value = .ok g ↔ g.Legal ∧ g.Written value := by
  simp only [ofJson, Except.bind_eq_ok_iff, Shape.object_eq_ok_iff, Shape.member_eq_ok_iff,
    Shape.nonEmptyArray_eq_ok_iff, Shape.array_eq_ok_iff, Rule.ofItems_eq_ok_iff,
    Except.mapM_eq_ok_iff fun _ _ => readKey_eq_ok_iff, Except.pure_eq_ok_iff]
  constructor
  · rintro ⟨members, rfl, _, hexact, _, hgroup, _, ⟨rfl, hne⟩, keys, ⟨hkeys, rfl⟩, _, happly, _,
      rfl, rules, ⟨hrules, hnodup, rfl⟩, rfl⟩
    refine ⟨⟨?_, hkeys, fun r hr => (hrules r hr).1, hnodup⟩,
      .sections (Shape.exactKeys_eq_ok_iff.mp hexact) hgroup happly⟩
    exact fun hnil => hne (List.map_eq_nil_iff.mpr hnil)
  · rintro ⟨⟨hne, hkeys, hrules, hnodup⟩, @⟨members, hexact, hgroup, happly⟩⟩
    refine ⟨members, rfl, (), Shape.exactKeys_eq_ok_iff.mpr hexact, _, hgroup, _, ⟨rfl, ?_⟩,
      g.keys, ⟨hkeys, rfl⟩, _, happly, _, rfl, g.rules, ⟨?_, hnodup, rfl⟩, rfl⟩
    · exact fun hnil => hne (List.map_eq_nil_iff.mp hnil)
    · exact fun r hr => ⟨hrules r hr, List.not_mem_nil⟩

theorem rule?_isSome_iff {g : Grouping} {name : String} :
    (g.rule? name).isSome ↔ ∃ r ∈ g.rules, r.name = name := by
  simp [rule?]

end Grouping

namespace Column

def toJson (c : Column) : Json := .str c.name

def Legal (grouping : Option Grouping) : Column → Prop
  | .key k => k.Proper ∧ ∀ g ∈ grouping, k ∈ g.keys
  | .apply name =>
      Key.separator ∉ name.toList ∧ ∃ g ∈ grouping, ∃ r ∈ g.rules, r.name = name

theorem legal_of_ofName {g : Grouping} {name : String} {c : Column}
    (h : ofName (some g) name = .ok c) : c.Legal (some g) ∧ name = c.name := by
  simp only [ofName] at h
  split at h
  · simp only [Except.bind_eq_ok_iff, Shape.key_eq_ok_iff] at h
    obtain ⟨k, ⟨hk, rfl⟩, h⟩ := h
    split at h
    · next hmem =>
      cases Except.pure_eq_ok_iff.mp h
      refine ⟨⟨hk, fun g' hg => ?_⟩, rfl⟩
      cases hg
      simpa using hmem
    · exact (Except.throw_eq_ok_iff.mp h).elim
  · next hsep =>
    split at h
    · next hrule =>
      cases Except.pure_eq_ok_iff.mp h
      exact ⟨⟨by simpa using hsep, g, rfl, Grouping.rule?_isSome_iff.mp hrule⟩, rfl⟩
    · exact (Except.throw_eq_ok_iff.mp h).elim

theorem ofName_of_legal {g : Grouping} {c : Column} (h : c.Legal (some g)) :
    ofName (some g) c.name = .ok c := by
  cases c with
  | key k =>
      have hsep : (k.text.toList.contains Key.separator) = true := by
        simpa using k.separator_mem_text
      simp only [ofName, name, hsep, if_true, Except.bind_eq_ok_iff, Shape.key_eq_ok_iff]
      refine ⟨k, ⟨h.1, rfl⟩, ?_⟩
      rw [if_pos (by simpa using h.2 g rfl)]
      rfl
  | apply name =>
      obtain ⟨hsep, g', hg, hrule⟩ := h
      cases hg
      change ofName (some g) name = .ok (.apply name)
      simp only [ofName]
      rw [if_neg (by simpa using hsep), if_pos (Grouping.rule?_isSome_iff.mpr hrule)]
      rfl

theorem ofName_eq_ok_iff {grouping : Option Grouping} {name : String} {c : Column} :
    ofName grouping name = .ok c ↔ c.Legal grouping ∧ name = c.name := by
  cases grouping with
  | none =>
      simp only [ofName, Except.bind_eq_ok_iff, Shape.key_eq_ok_iff, Except.pure_eq_ok_iff]
      constructor
      · rintro ⟨k, ⟨hk, rfl⟩, rfl⟩
        exact ⟨⟨hk, nofun⟩, rfl⟩
      · rintro ⟨hlegal, rfl⟩
        cases c with
        | key k => exact ⟨k, ⟨hlegal.1, rfl⟩, rfl⟩
        | apply name =>
            obtain ⟨_, _, hg, _⟩ := hlegal
            cases hg
  | some g =>
      constructor
      · exact legal_of_ofName
      · rintro ⟨hlegal, rfl⟩
        exact ofName_of_legal hlegal

theorem ofJson_eq_ok_iff {grouping : Option Grouping} {value : Json} {c : Column} :
    ofJson grouping value = .ok c ↔ c.Legal grouping ∧ value = c.toJson := by
  simp only [ofJson, Except.bind_eq_ok_iff, Shape.string_eq_ok_iff, ofName_eq_ok_iff]
  constructor
  · rintro ⟨_, rfl, hc, rfl⟩
    exact ⟨hc, rfl⟩
  · rintro ⟨hc, rfl⟩
    exact ⟨c.name, rfl, hc, rfl⟩

end Column

end Registrar
