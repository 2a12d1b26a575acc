namespace Registrar

structure Decimal where
  coefficient : Int
  exponent : Int
  deriving DecidableEq, Repr

namespace Decimal

def zero : Decimal := ⟨0, 0⟩

def power (n : Nat) : Nat := Nat.pow 10 n

def scaled (d : Decimal) (exponent : Int) : Int :=
  d.coefficient * power (d.exponent - exponent).toNat

def add (a b : Decimal) : Decimal :=
  let e := min a.exponent b.exponent
  ⟨a.scaled e + b.scaled e, e⟩

instance : Add Decimal := ⟨add⟩

def digitCount (n : Nat) : Nat := (Nat.toDigits 10 n).length

end Decimal

end Registrar
