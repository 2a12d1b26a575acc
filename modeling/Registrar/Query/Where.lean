import Registrar.Query.Filter
import Registrar.Query.Shape

namespace Registrar.Filter

def readNumber (comparison : Comparison) (payload : Json) : Except Rejection Filter := do
  let (raw, literal) ← Query.Shape.single comparison.token payload
  let key ← Query.Shape.key raw
  match literal.number? with
  | some x => return .number comparison key x
  | none => throw (.notANumber comparison.token)

def readText (payload : Json) : Except Rejection Filter := do
  let (raw, literal) ← Query.Shape.single "IS" payload
  let key ← Query.Shape.key raw
  let text ← Query.Shape.string "IS value" literal
  match Pattern.parse? text with
  | some pattern => return .text key pattern
  | none => throw (.invalidWildcard text)

mutual

def ofJson : Json → Except Rejection Filter
  | .obj [(tag, payload)] =>
      match tag with
      | "AND" =>
          match payload with
          | .arr [] => throw (.empty tag)
          | .arr (item :: rest) => do return .and (← ofItems (item :: rest))
          | _ => throw (.notAnArray tag)
      | "OR" =>
          match payload with
          | .arr [] => throw (.empty tag)
          | .arr (item :: rest) => do return .or (← ofItems (item :: rest))
          | _ => throw (.notAnArray tag)
      | "NOT" =>
          match payload.object? with
          | none => throw (.notAnObject tag)
          | some _ => do return .not (← ofJson payload)
      | "IS" => readText payload
      | _ =>
          match Comparison.ofToken? tag with
          | some comparison => readNumber comparison payload
          | none => throw (.unknownFilter tag)
  | .obj members => throw (.notOneKey "filter" members.length)
  | _ => throw (.notAnObject "filter")

def ofItems : List Json → Except Rejection (List Filter)
  | [] => return []
  | item :: rest => do return (← ofJson item) :: (← ofItems rest)

end

end Registrar.Filter
