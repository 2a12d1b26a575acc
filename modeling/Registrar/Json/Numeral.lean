import Registrar.Binary64.Scaling
import Registrar.Decimal.Digits
import Registrar.Json.Basic

namespace Registrar.Json

structure Numeral where
  negative : Bool
  integer : List Nat
  fraction : List Nat
  power : Option Int
  deriving DecidableEq, Repr

namespace Numeral

def valuesOf (digits : List Char) : List Nat := digits.map fun c => c.toNat - '0'.toNat

def ofInt (i : Int) : Numeral := ⟨i < 0, valuesOf (Nat.toDigits 10 i.natAbs), [], none⟩

def digits (n : Numeral) : Nat := Decimal.ofDigits 10 (n.integer ++ n.fraction).reverse

def exponent (n : Numeral) : Int := n.power.getD 0 - n.fraction.length

def whole (n : Numeral) : Bool := n.fraction.isEmpty && n.power.isNone

def keep (kept : Nat) : List Nat → Nat × List Nat
  | [] => (kept, [])
  | digit :: rest =>
      let more := 10 * kept + digit
      if more < UInt64.size then keep more rest else (kept, digit :: rest)

def scaled? (n : Numeral) : Option Binary64 :=
  let (integer, dropped) := keep 0 n.integer
  let (significand, ignored) := keep integer n.fraction
  let exponent := n.power.getD 0 + dropped.length + ignored.length - n.fraction.length
  (Binary64.scale? significand exponent).map (.withSign n.negative)

def value? (double? : Numeral → Option Binary64) (n : Numeral) : Option Json :=
  if n.whole && !n.negative && n.digits < UInt64.size then some (.int n.digits)
  else if n.whole && n.negative && 0 < n.digits && 2 * n.digits ≤ UInt64.size then
    some (.int (-n.digits))
  else (double? n).map .real

end Numeral

end Registrar.Json
