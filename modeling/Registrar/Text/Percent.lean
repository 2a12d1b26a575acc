import Registrar.Text.Hex

namespace Registrar.Text

def hexByte? : List UInt8 → Option UInt8
  | high :: low :: _ => do
      let h ← hexDigit? (Char.ofNat high.toNat)
      let l ← hexDigit? (Char.ofNat low.toNat)
      return UInt8.ofNat (16 * h + l)
  | _ => none

def percentBytesAfter : (skip : Nat) → List UInt8 → List UInt8
  | _, [] => []
  | skip + 1, _ :: rest => percentBytesAfter skip rest
  | 0, byte :: rest =>
      match if byte = 0x25 then hexByte? rest else none with
      | some decoded => decoded :: percentBytesAfter 2 rest
      | none => byte :: percentBytesAfter 0 rest

def percentBytes (bytes : List UInt8) : List UInt8 := percentBytesAfter 0 bytes

def percentDecode? (text : String) : Option String :=
  String.fromUTF8? ⟨(percentBytes text.toUTF8.toList).toArray⟩

end Registrar.Text
