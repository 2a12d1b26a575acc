import Registrar.Json.Encoding

namespace Registrar

inductive Cell where
  | number (value : Binary64)
  | text (value : String)
  deriving DecidableEq, Hashable, Repr

namespace Cell

def number? : Cell → Option Binary64
  | .number x => some x
  | .text _ => none

def text? : Cell → Option String
  | .text s => some s
  | .number _ => none

def order : Cell → Cell → Ordering
  | .number a, .number b => a.order b
  | .text a, .text b => compare a b
  | .number _, .text _ => .lt
  | .text _, .number _ => .gt

def canonical : Cell → Cell
  | .number x => .number (if x.equal .zero then .zero else x)
  | .text s => .text s

def toJson : Cell → Json
  | .number x => .ofBinary64 x
  | .text s => .str s

def encode {α : Type} (e : Json.Encoding α) : Cell → α
  | .number x =>
      match x.shortInt? with
      | some i => e.whole i
      | none => e.number x
  | .text s => e.text s

def wire (c : Cell) : String := c.encode .printed

end Cell

end Registrar
