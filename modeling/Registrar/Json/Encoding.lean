import Registrar.Json.Printer

namespace Registrar.Json

structure Encoding (α : Type) where
  whole : Int → α
  number : Binary64 → α
  text : String → α
  object : List (String × α) → α

namespace Encoding

def printed : Encoding String := ⟨intText, realText, quoted, objectText⟩

def json : Encoding Json :=
  ⟨.int, fun x => if x.isFinite then .real x else .null, .str, .ofMembers⟩

end Encoding

end Registrar.Json
