import Registrar.Answer.Session
import Registrar.Registry.Dataset

namespace Registrar

inductive ServiceFault where
  | unknownKind (name : String)
  | invalidJson (detail : String)
  | incomplete (detail : String)
  | dataset (cause : DatasetFault)
  | query (cause : QueryFault)
  deriving DecidableEq, Repr

namespace ServiceFault

def status : ServiceFault → Nat
  | .dataset cause => if cause.isNotFound then 404 else 400
  | .incomplete _ => 500
  | _ => 400

def code : ServiceFault → String
  | .unknownKind _ => "DATASET_INVALID_KIND"
  | .invalidJson _ => "REQUEST_INVALID_JSON"
  | .incomplete _ => "REQUEST_INTERNAL"
  | .dataset cause => cause.code
  | .query cause => cause.code

def message : ServiceFault → String
  | .unknownKind name => Kind.unknownMessage name
  | .invalidJson detail => s!"Request body is not valid JSON: {detail}"
  | .incomplete detail => s!"Request could not be completed: {detail}"
  | .dataset cause => cause.message
  | .query cause => cause.message

def wire (f : ServiceFault) : String :=
  Json.objectText [("error", Json.quoted f.message), ("code", Json.quoted f.code)]

end ServiceFault

end Registrar
