import Registrar.Proofs.Answer.Grouped
import Registrar.Proofs.Answer.Plain
import Registrar.Proofs.Registry.Invariant
import Registrar.Proofs.Registry.Replies

namespace Registrar

def Call.isQuery : Call → Bool
  | .query .. => true
  | _ => false

theorem QueryFault.code_eq_tooLarge_iff (fault : QueryFault) :
    fault.code = "QUERY_RESULT_TOO_LARGE" ↔ ∃ cause, fault = .tooLarge cause := by
  cases fault with
  | rejected cause =>
      have hcode : cause.code.text ≠ "QUERY_RESULT_TOO_LARGE" := by
        cases cause.code <;> decide
      exact iff_of_false hcode nofun
  | unknownDataset =>
      have hcode : "QUERY_UNKNOWN_DATASET" ≠ "QUERY_RESULT_TOO_LARGE" := by decide
      exact iff_of_false hcode nofun
  | tooLarge cause => exact iff_of_true rfl ⟨cause, rfl⟩

namespace Reply

@[simp] def isAnswer : Reply → Bool
  | .answered _ => true
  | _ => false

@[simp] def isExecution : Reply → Bool
  | .answered (.ok _) => true
  | _ => false

@[simp] def isRejection : Reply → Bool
  | .answered (.error _) => true
  | _ => false

@[simp] def isTooLarge : Reply → Bool
  | .answered (.error fault) => fault.code = "QUERY_RESULT_TOO_LARGE"
  | _ => false

@[simp] def isAddition : Reply → Bool
  | .added (.ok _) => true
  | _ => false

@[simp] def isRemoval : Reply → Bool
  | .removed (.ok _) => true
  | _ => false

@[simp] def rows : Reply → Nat
  | .answered (.ok rows) => rows.length
  | _ => 0

theorem countP_isAnswer (replies : List Reply) :
    replies.countP isAnswer = replies.countP isExecution + replies.countP isRejection := by
  induction replies with
  | nil => rfl
  | cons p rest ih =>
      simp only [List.countP_cons, ih]
      rcases p with _ | _ | _ | (_ | _) <;> simp <;> omega

end Reply

theorem Step.isAnswer_result (s : Step) : s.outcome.result.isAnswer = s.call.isQuery := by
  obtain ⟨r, c⟩ := s
  cases c <;> rfl

namespace Counters

def record (c : Counters) : Reply → Counters
  | .added (.ok _) => c.added
  | .removed (.ok _) => c.removed
  | .answered (.ok rows) => c.executed rows.length
  | .answered (.error fault) => Registry.countFault c fault
  | _ => c

def tally (replies : List Reply) : Counters where
  queriesExecuted := .ofNat (replies.countP Reply.isExecution)
  queriesRejected := .ofNat (replies.countP Reply.isRejection)
  resultsTooLarge := .ofNat (replies.countP Reply.isTooLarge)
  datasetsAdded := .ofNat (replies.countP Reply.isAddition)
  datasetsRemoved := .ofNat (replies.countP Reply.isRemoval)
  rowsReturned := .ofNat (replies.map Reply.rows).sum

theorem tally_append_singleton (replies : List Reply) (p : Reply) :
    tally (replies ++ [p]) = (tally replies).record p := by
  simp only [tally, List.countP_append, List.countP_singleton, List.map_append, List.sum_append,
    UInt64.ofNat_add]
  cases p with
  | added result => cases result <;> simp [record, added]
  | removed result => cases result <;> simp [record, removed]
  | listed => simp [record]
  | answered result =>
      cases result with
      | ok rows => simp [record, executed]
      | error fault =>
          cases fault <;>
            simp [record, Registry.countFault, rejected, tooLarge, QueryFault.code_eq_tooLarge_iff]

theorem foldl_record (replies : List Reply) : replies.foldl record .zero = tally replies := by
  induction replies using List.reverseRecOn with
  | nil => rfl
  | append_singleton replies p ih => rw [List.foldl_concat, ih, tally_append_singleton]

end Counters

namespace Registry

theorem counters_add (r : Registry) (d : Dataset) :
    (r.add d).registry.counters = r.counters.record (.added (r.add d).result) := by
  cases h : r.tryAdd d with
  | ok s =>
      rw [add_of_ok h, (tryAdd_eq_ok_iff.mp h).2.2]
      rfl
  | error fault => rw [add_of_error h]; rfl

theorem counters_next (r : Registry) (c : Call) :
    (r.next c).counters = r.counters.record (r.perform c).result := by
  cases c with
  | add d => exact r.counters_add d
  | addJson now id kind payload =>
      simp only [next, perform, Outcome.map, addJson]
      cases Dataset.parseRecords kind payload with
      | ok records => exact r.counters_add ⟨id, kind, records, now⟩
      | error => rfl
  | remove id =>
      simp only [next, perform, Outcome.map, remove]
      cases Dataset.checkId id with
      | error => rfl
      | ok => cases Keyed.find? r.datasets id <;> rfl
  | list => rfl
  | query id value =>
      simp only [next, perform, Outcome.map, query]
      cases Answer.ofQuery r.limit r.known r.records? value <;> rfl

theorem counters_after (r : Registry) (calls : List Call) :
    (r.after calls).counters = (r.replies calls).foldl Counters.record r.counters := by
  induction calls generalizing r with
  | nil => rfl
  | cons c rest ih =>
      have hrest := ih (r.next c)
      rw [counters_next] at hrest
      exact hrest

theorem countP_isAnswer (r : Registry) (calls : List Call) :
    (r.replies calls).countP Reply.isAnswer = calls.countP Call.isQuery := by
  conv_rhs => rw [← r.map_call_steps calls]
  rw [replies, List.countP_map, List.countP_map]
  exact List.countP_congr fun s _ => by rw [Function.comp, Function.comp, s.isAnswer_result]

def Balanced (r : Registry) : Prop :=
  r.counters.datasetsAdded - r.counters.datasetsRemoved = .ofNat r.ids.length

theorem length_ids (r : Registry) : r.ids.length = r.datasets.length := List.length_map _

theorem Balanced.add {r : Registry} (h : r.Balanced) (d : Dataset) :
    (r.add d).registry.Balanced := by
  rcases r.add_cases d with heq | ⟨_, hfresh, heq⟩
  · rwa [heq]
  · have hlength := Keyed.length_insert_of_find?_none d hfresh
    rw [Balanced, length_ids] at h ⊢
    simp only [heq, hlength, UInt64.ofNat_add, ← h, Counters.added]
    grind

theorem Balanced.remove {r : Registry} (h : r.Balanced) (hr : r.Sound) (id : String) :
    (r.remove id).registry.Balanced := by
  rw [Registry.remove]
  cases Dataset.checkId id with
  | error => exact h
  | ok =>
      cases hfind : Keyed.find? r.datasets id with
      | none => exact h
      | some d =>
          rw [Balanced, length_ids] at h ⊢
          rw [← Keyed.length_erase hr.ascending hfind, UInt64.ofNat_add] at h
          simp only [Counters.removed]
          grind

theorem Balanced.next {r : Registry} (h : r.Balanced) (hr : r.Sound) (c : Call) :
    (r.next c).Balanced := by
  cases c with
  | add d => exact h.add d
  | addJson now id kind payload =>
      rcases r.addJson_cases now id kind payload with heq | ⟨records, _, heq⟩
      · exact (congrArg Balanced heq).mpr h
      · exact (congrArg Balanced heq).mpr (h.add _)
  | remove id => exact h.remove hr id
  | list => exact h
  | query id value =>
      obtain ⟨c, hadded, hremoved, heq⟩ := r.query_cases id value
      rw [Registry.next, heq, Balanced, hadded, hremoved]
      exact h

theorem Balanced.after {r : Registry} (h : r.Balanced) (hr : r.Sound) (calls : List Call) :
    (r.after calls).Balanced := by
  induction calls generalizing r with
  | nil => exact h
  | cons c rest ih => exact ih (h.next hr c) (hr.next c)

structure Accounts (c : Counters) (ids : List String) (calls : List Call) (replies : List Reply) :
    Prop where
  datasets : c.datasetsAdded - c.datasetsRemoved = .ofNat ids.length
  queries : c.queriesExecuted + c.queriesRejected = .ofNat (calls.countP Call.isQuery)
  rejected : c.queriesRejected = .ofNat (replies.countP Reply.isRejection)
  tooLarge : c.resultsTooLarge = .ofNat (replies.countP Reply.isTooLarge)
  rows : c.rowsReturned = .ofNat (replies.map Reply.rows).sum

theorem balanced_fresh (limit : Nat) : (fresh limit).Balanced := UInt64.sub_self 0

theorem accounts_after (limit : Nat) (calls : List Call) :
    Accounts ((fresh limit).after calls).counters ((fresh limit).after calls).ids calls
      ((fresh limit).replies calls) := by
  have htally : ((fresh limit).after calls).counters = .tally ((fresh limit).replies calls) :=
    (counters_after _ calls).trans (Counters.foldl_record _)
  constructor
  case datasets => exact (balanced_fresh limit).after (Reachable.fresh limit).sound calls
  case queries =>
    rw [htally, ← countP_isAnswer (fresh limit), Reply.countP_isAnswer, UInt64.ofNat_add]
    rfl
  case rejected => rw [htally]; rfl
  case tooLarge => rw [htally]; rfl
  case rows => rw [htally]; rfl

end Registry

def Log.Entry.field? (e : Log.Entry) (name : String) : Option String := e.fields.lookup name

namespace Bound

def groupCount (b : Bound) (records : List Record) : Nat :=
  match b.query.grouping with
  | none => 0
  | some g => ((b.matching records).map g.tuple).eraseDups.length

theorem rowsOf_snd (b : Bound) (records : List Record) :
    (Answer.rowsOf b (b.matching records)).2 = b.groupCount records := by
  rw [groupCount]
  cases hg : b.query.grouping with
  | none => rw [rowsOf_plain hg]
  | some g => rw [rowsOf_grouped hg, Grouping.length_partition]

end Bound

namespace Outcome

def LogsAdd (o : Outcome (Except DatasetFault (List String))) : Prop :=
  ∃ entry, o.log = [entry] ∧
    (entry.event.name = "DATASET_ADDED" ↔ ∃ ids, o.result = .ok ids) ∧
    (entry.event.name = "DATASET_REJECTED" ↔ ∃ fault, o.result = .error fault)

def LogsRemoval (o : Outcome (Except DatasetFault String)) : Prop :=
  (∀ id, o.result = .ok id → ∃ entry, o.log = [entry] ∧ entry.event.name = "DATASET_REMOVED") ∧
    ∀ fault, o.result = .error fault → o.log = []

end Outcome

structure Registry.LogsQuery (r : Registry) (id : String) (value : Json)
    (result : Except QueryFault (List Row)) (first second : Log.Entry) : Prop where
  received : first.event.name = "QUERY_RECEIVED"
  ids : first.field? "query_id" = some id ∧ second.field? "query_id" = some id
  executed : second.event.name = "QUERY_EXECUTED" ↔ ∃ rows, result = .ok rows
  rejected : second.event.name = "QUERY_REJECTED" ↔ ∃ fault, result = .error fault
  counts : ∀ rows, result = .ok rows → ∃ b records, Bound.ofJson r.known value = .ok b ∧
    r.records? b.dataset = some records ∧
    second.field? "rows" = some (toString rows.length) ∧
    second.field? "matched" = some (toString (b.matching records).length) ∧
    second.field? "groups" = some (toString (b.groupCount records)) ∧
    second.field? "scanned" = some (toString records.length)
  fault : ∀ fault, result = .error fault →
    second.field? "code" = some fault.code ∧ second.field? "message" = some fault.message

namespace Step

def Logged (s : Step) : Prop :=
  match s.call with
  | .add d => (s.registry.add d).LogsAdd
  | .addJson now id kind payload => (s.registry.addJson now id kind payload).LogsAdd
  | .remove id => (s.registry.remove id).LogsRemoval
  | .list => s.outcome.log = []
  | .query id value =>
      ∃ first second, s.outcome.log = [first, second] ∧
        s.registry.LogsQuery id value (s.registry.query id value).result first second

end Step

namespace Registry

theorem logsAdd_of_ok {r : Registry} {ids : List String} (d : Dataset) :
    Outcome.LogsAdd ⟨r, .ok ids, [addedEntry d]⟩ := by
  have hname : "DATASET_ADDED" ≠ "DATASET_REJECTED" := by decide
  exact ⟨addedEntry d, rfl, iff_of_true rfl ⟨ids, rfl⟩, iff_of_false hname nofun⟩

theorem logsAdd_of_error {r : Registry} (id : String) (fault : DatasetFault) :
    Outcome.LogsAdd ⟨r, .error fault, [rejectedEntry id fault]⟩ := by
  have hname : "DATASET_REJECTED" ≠ "DATASET_ADDED" := by decide
  exact ⟨rejectedEntry id fault, rfl, iff_of_false hname nofun, iff_of_true rfl ⟨fault, rfl⟩⟩

theorem logsAdd_add (r : Registry) (d : Dataset) : (r.add d).LogsAdd := by
  cases h : r.tryAdd d with
  | ok s => rw [add_of_ok h]; exact logsAdd_of_ok d
  | error fault => rw [add_of_error h]; exact logsAdd_of_error d.id fault

theorem logsAdd_addJson (r : Registry) (now id : String) (kind : Kind) (payload : Json) :
    (r.addJson now id kind payload).LogsAdd := by
  rw [addJson]
  cases Dataset.parseRecords kind payload with
  | ok records => exact r.logsAdd_add ⟨id, kind, records, now⟩
  | error fault => exact logsAdd_of_error id fault

theorem logsRemoval_of_error (r : Registry) (fault : DatasetFault) :
    Outcome.LogsRemoval ⟨r, .error fault, []⟩ := by
  refine ⟨fun id h => ?_, fun _ _ => rfl⟩
  cases h

theorem logsRemoval_remove (r : Registry) (id : String) : (r.remove id).LogsRemoval := by
  rw [remove]
  cases Dataset.checkId id with
  | error fault => exact r.logsRemoval_of_error fault
  | ok =>
      cases Keyed.find? r.datasets id with
      | none => exact r.logsRemoval_of_error (.notFound id)
      | some d =>
          refine ⟨fun _ _ => ⟨removedEntry d, rfl, rfl⟩, fun fault h => ?_⟩
          cases h

theorem logsQuery_of_ok {r : Registry} {value : Json} {a : Answer}
    (h : r.answer value = .ok a) (id : String) :
    r.LogsQuery id value (.ok a.rows) (receivedEntry id) (executedEntry id a) := by
  have hname : "QUERY_EXECUTED" ≠ "QUERY_REJECTED" := by decide
  refine ⟨rfl, ⟨rfl, rfl⟩, iff_of_true rfl ⟨a.rows, rfl⟩, iff_of_false hname nofun, ?_, nofun⟩
  rintro rows hrows
  cases hrows
  obtain ⟨b, records, hbound, hrecords, ha⟩ := Answer.ofQuery_eq_ok_iff.mp h
  rw [Answer.ofRecords_eq] at ha
  split at ha
  · cases ha
  · cases ha
    refine ⟨b, records, hbound, hrecords, rfl, rfl, ?_, rfl⟩
    rw [← b.rowsOf_snd records]
    rfl

theorem logsQuery_of_error (r : Registry) (value : Json) (fault : QueryFault) (id : String) :
    r.LogsQuery id value (.error fault) (receivedEntry id) (queryRejectedEntry id fault) := by
  have hname : "QUERY_REJECTED" ≠ "QUERY_EXECUTED" := by decide
  refine ⟨rfl, ⟨rfl, rfl⟩, iff_of_false hname nofun, iff_of_true rfl ⟨fault, rfl⟩, nofun, ?_⟩
  rintro _ hfault
  cases hfault
  exact ⟨rfl, rfl⟩

theorem logsQuery_query (r : Registry) (id : String) (value : Json) :
    ∃ first second, (r.query id value).log = [first, second] ∧
      r.LogsQuery id value (r.query id value).result first second := by
  rw [query]
  cases h : Answer.ofQuery r.limit r.known r.records? value with
  | ok a => exact ⟨_, _, rfl, logsQuery_of_ok h id⟩
  | error fault => exact ⟨_, _, rfl, r.logsQuery_of_error value fault id⟩

end Registry

theorem Step.logged (s : Step) : s.Logged := by
  obtain ⟨r, c⟩ := s
  cases c with
  | add d => exact r.logsAdd_add d
  | addJson now id kind payload => exact r.logsAdd_addJson now id kind payload
  | remove id => exact r.logsRemoval_remove id
  | list => rfl
  | query id value => exact r.logsQuery_query id value

theorem Registry.counters_log_agree (limit : Nat) (calls : List Call) :
    Accounts ((fresh limit).after calls).counters ((fresh limit).after calls).ids calls
        ((fresh limit).replies calls) ∧
      ∀ s ∈ (fresh limit).steps calls, s.Logged :=
  ⟨accounts_after limit calls, fun s _ => s.logged⟩

theorem counters_log_agree_session :
    Registry.Accounts
        ((Registry.fresh 5000).after (.query "first" Sample.averages :: Sample.session)).counters
        ["halls", "salles été"] (.query "first" Sample.averages :: Sample.session)
        ((Registry.fresh 5000).replies (.query "first" Sample.averages :: Sample.session)) ∧
      (Step.mk (.fresh 5000) (.query "first" Sample.averages)).Logged := by
  obtain ⟨haccounts, hlogged⟩ :=
    Registry.counters_log_agree 5000 (.query "first" Sample.averages :: Sample.session)
  exact ⟨haccounts, hlogged _ List.mem_cons_self⟩

end Registrar
