import Registrar.Proofs.Registry.Run

namespace Registrar

def Outcome.map {α β : Type} (f : α → β) (o : Outcome α) : Outcome β :=
  ⟨o.registry, f o.result, o.log⟩

inductive Reply where
  | added (result : Except DatasetFault (List String))
  | removed (result : Except DatasetFault String)
  | listed (summaries : List Dataset.Summary)
  | answered (result : Except QueryFault (List Row))

structure Step where
  registry : Registry
  call : Call

namespace Registry

def perform (r : Registry) : Call → Outcome Reply
  | .add d => (r.add d).map .added
  | .addJson now id kind payload => (r.addJson now id kind payload).map .added
  | .remove id => (r.remove id).map .removed
  | .list => ⟨r, .listed r.summaries, []⟩
  | .query id value => (r.query id value).map .answered

theorem registry_perform (r : Registry) (c : Call) : (r.perform c).registry = r.next c := by
  cases c <;> rfl

end Registry

def Step.outcome (s : Step) : Outcome Reply := s.registry.perform s.call

namespace Registry

def steps (r : Registry) : List Call → List Step
  | [] => []
  | c :: rest => ⟨r, c⟩ :: (r.next c).steps rest

def replies (r : Registry) (calls : List Call) : List Reply :=
  (r.steps calls).map fun s => s.outcome.result

def log (r : Registry) (calls : List Call) : List Log.Entry :=
  (r.steps calls).flatMap fun s => s.outcome.log

theorem map_call_steps (r : Registry) (calls : List Call) :
    (r.steps calls).map Step.call = calls := by
  induction calls generalizing r with
  | nil => rfl
  | cons c rest ih => rw [steps, List.map_cons, ih]

end Registry

end Registrar
