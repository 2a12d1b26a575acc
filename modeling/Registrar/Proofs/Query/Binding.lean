import Mathlib.Data.List.Nodup
import Registrar.Proofs.Success
import Registrar.Query.Binding

namespace Registrar

namespace Filter

variable (kind : Kind)

mutual

def Typed : Filter → Prop
  | .not inner => Typed inner
  | .and parts => ListTyped parts
  | .or parts => ListTyped parts
  | .number _ key _ => kind.classify key.field = .numeric
  | .text key _ => kind.classify key.field = .textual

def ListTyped : List Filter → Prop
  | [] => True
  | f :: rest => Typed f ∧ ListTyped rest

end

theorem checkNumeric_eq_ok_iff (key : Key) :
    checkNumeric kind key = .ok () ↔ kind.classify key.field = .numeric := by
  unfold checkNumeric
  split <;> simp_all

theorem checkTextual_eq_ok_iff (key : Key) :
    checkTextual kind key = .ok () ↔ kind.classify key.field = .textual := by
  unfold checkTextual
  split <;> simp_all

mutual

theorem check_eq_ok_iff : ∀ f : Filter, f.check kind = .ok () ↔ f.Typed kind
  | .not inner => check_eq_ok_iff inner
  | .and parts => checkAll_eq_ok_iff parts
  | .or parts => checkAll_eq_ok_iff parts
  | .number _ key _ => checkNumeric_eq_ok_iff kind key
  | .text key _ => checkTextual_eq_ok_iff kind key

theorem checkAll_eq_ok_iff :
    ∀ parts : List Filter, checkAll kind parts = .ok () ↔ ListTyped kind parts
  | [] => ⟨fun _ => trivial, fun _ => rfl⟩
  | f :: rest => by
      rw [ListTyped, ← check_eq_ok_iff f, ← checkAll_eq_ok_iff rest]
      exact Except.bind_unit_eq_ok_iff

end

mutual

theorem classify_ne_unknown : ∀ f : Filter, f.Typed kind → ∀ k ∈ f.keys,
    kind.classify k.field ≠ .unknown
  | .not inner, h => classify_ne_unknown inner h
  | .and parts, h => listClassify_ne_unknown parts h
  | .or parts, h => listClassify_ne_unknown parts h
  | .number _ _ _, h => List.forall_mem_singleton.mpr fun hunknown => nomatch h.symm.trans hunknown
  | .text _ _, h => List.forall_mem_singleton.mpr fun hunknown => nomatch h.symm.trans hunknown

theorem listClassify_ne_unknown : ∀ parts : List Filter, ListTyped kind parts →
    ∀ k ∈ listKeys parts, kind.classify k.field ≠ .unknown
  | [], _ => nofun
  | f :: rest, ⟨hf, hrest⟩ =>
      List.forall_mem_append.mpr ⟨classify_ne_unknown f hf, listClassify_ne_unknown rest hrest⟩

end

end Filter

def Column.Known (kind : Kind) : Column → Prop
  | .key k => kind.classify k.field ≠ .unknown
  | .apply _ => True

def Rule.Typed (kind : Kind) (r : Rule) : Prop :=
  kind.classify r.key.field ≠ .unknown ∧
    (r.aggregate.requiresNumeric = true → kind.classify r.key.field = .numeric)

@[mk_iff]
structure Grouping.Typed (kind : Kind) (g : Grouping) : Prop where
  keys : ∀ key ∈ g.keys, kind.classify key.field ≠ .unknown
  rules : ∀ r ∈ g.rules, r.Typed kind

namespace Query

@[mk_iff]
structure Typed (kind : Kind) (q : Query) : Prop where
  filter : ∀ f ∈ q.filter, f.Typed kind
  columns : ∀ c ∈ q.columns, c.Known kind
  grouping : ∀ g ∈ q.grouping, g.Typed kind

theorem checkKnown_eq_ok_iff (kind : Kind) (key : Key) :
    checkKnown kind key = .ok () ↔ kind.classify key.field ≠ .unknown := by
  simp [checkKnown, FieldClass.isKnown]

theorem checkColumn_eq_ok_iff (kind : Kind) (c : Column) :
    checkColumn kind c = .ok () ↔ c.Known kind := by
  cases c with
  | key k => exact checkKnown_eq_ok_iff kind k
  | apply => exact ⟨fun _ => trivial, fun _ => rfl⟩

theorem checkRule_eq_ok_iff (kind : Kind) (r : Rule) :
    checkRule kind r = .ok () ↔ r.Typed kind := by
  unfold checkRule Rule.Typed
  split <;> simp_all

theorem check_eq_ok_iff (kind : Kind) (q : Query) : q.check kind = .ok () ↔ q.Typed kind := by
  obtain ⟨filter, columns, order, grouping⟩ := q
  cases filter <;> cases grouping <;>
    simp [check, typed_iff, Grouping.typed_iff, Except.bind_unit_eq_ok_iff, Except.forM_eq_ok_iff,
      Filter.check_eq_ok_iff, checkColumn_eq_ok_iff, checkKnown_eq_ok_iff,
      checkRule_eq_ok_iff]

theorem mem_datasets_iff (q : Query) (id : String) :
    id ∈ q.datasets ↔ ∃ k ∈ q.keys, k.dataset = id := by
  rw [datasets, Keyed.mem_keys_ofList]
  simp

theorem datasets_eq_singleton_iff (q : Query) (id : String) :
    q.datasets = [id] ↔ q.keys ≠ [] ∧ ∀ k ∈ q.keys, k.dataset = id := by
  constructor
  · intro h
    constructor
    · intro hnil
      have hid : id ∈ q.datasets := h ▸ List.mem_singleton_self id
      rw [mem_datasets_iff, hnil] at hid
      obtain ⟨k, hk, _⟩ := hid
      cases hk
    · intro k hk
      have hid : k.dataset ∈ q.datasets := (mem_datasets_iff q _).mpr ⟨k, hk, rfl⟩
      rw [h] at hid
      exact List.mem_singleton.mp hid
  · rintro ⟨hne, hall⟩
    obtain ⟨k, hk⟩ := List.exists_mem_of_ne_nil _ hne
    have hthere : id ∈ q.datasets := (mem_datasets_iff q id).mpr ⟨k, hk, hall k hk⟩
    have honly : ∀ name ∈ q.datasets, name = id := by
      intro name hname
      obtain ⟨l, hl, rfl⟩ := (mem_datasets_iff q name).mp hname
      exact hall l hl
    have hnodup : q.datasets.Nodup := Keyed.nodup_keys (Keyed.ascending_ofList _)
    have hperm : q.datasets.Perm [id] := by
      refine (List.perm_ext_iff_of_nodup hnodup (List.nodup_singleton id)).mpr fun name => ?_
      rw [List.mem_singleton]
      exact ⟨honly name, fun h => h ▸ hthere⟩
    exact List.perm_singleton.mp hperm

theorem bind_eq_ok_iff (known : Known) (q : Query) (id : String) (kind : Kind) :
    q.bind known = .ok (id, kind) ↔
      (q.keys ≠ [] ∧ ∀ k ∈ q.keys, k.dataset = id) ∧ Keyed.find? known id = some kind := by
  rw [← datasets_eq_singleton_iff, bind]
  split
  · next h => simp [h]
  · next name h =>
    rw [h, List.singleton_inj]
    cases hfind : Keyed.find? known name with
    | none =>
        constructor
        · nofun
        · rintro ⟨rfl, hk⟩
          exact absurd (hfind.symm.trans hk) nofun
    | some k =>
        rw [Except.ok.injEq, Prod.mk.injEq]
        constructor
        · rintro ⟨rfl, rfl⟩
          exact ⟨rfl, hfind⟩
        · rintro ⟨rfl, hk⟩
          exact ⟨rfl, Option.some.inj (hfind.symm.trans hk)⟩
  · next _ hone =>
    exact ⟨nofun, fun h => absurd h.1 (hone id)⟩

end Query

end Registrar
