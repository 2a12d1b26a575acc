import Registrar.Decimal.Digits
import Registrar.Json.Numeral

namespace Registrar.Json

inductive NumberPart where
  | sign
  | zero
  | whole
  | point
  | fraction
  | exponentMark
  | exponentSign
  | exponent
  deriving DecidableEq, Repr

structure NumberState where
  part : NumberPart
  negative : Bool
  digits : List Nat
  places : Nat
  powerNegative : Bool
  power : List Nat
  deriving DecidableEq, Repr

namespace NumberState

def start (negative : Bool) : NumberState := ⟨.sign, negative, [], 0, false, []⟩

def numeral (n : NumberState) : Numeral where
  negative := n.negative
  integer := (n.digits.drop n.places).reverse
  fraction := (n.digits.take n.places).reverse
  power :=
    if n.power = [] then none
    else some (Binary64.signed n.powerNegative (Decimal.ofDigits 10 n.power))

def isComplete (n : NumberState) : Bool :=
  match n.part with
  | .zero | .whole | .fraction | .exponent => true
  | .sign | .point | .exponentMark | .exponentSign => false

def digit? (c : Char) : Option Nat :=
  if '0' ≤ c ∧ c ≤ '9' then some (c.toNat - '0'.toNat) else none

def extend? (n : NumberState) (c : Char) : Option NumberState :=
  match n.part, digit? c with
  | .sign, some d => some { n with part := if d = 0 then .zero else .whole, digits := [d] }
  | .whole, some d => some { n with digits := d :: n.digits }
  | .point, some d | .fraction, some d =>
      some { n with part := .fraction, digits := d :: n.digits, places := n.places + 1 }
  | .exponentMark, some d | .exponentSign, some d | .exponent, some d =>
      some { n with part := .exponent, power := d :: n.power }
  | .zero, some _ => none
  | .zero, none | .whole, none =>
      if c = '.' then some { n with part := .point }
      else if c = 'e' ∨ c = 'E' then some { n with part := .exponentMark }
      else none
  | .fraction, none => if c = 'e' ∨ c = 'E' then some { n with part := .exponentMark } else none
  | .exponentMark, none =>
      if c = '+' then some { n with part := .exponentSign }
      else if c = '-' then some { n with part := .exponentSign, powerNegative := true }
      else none
  | .sign, none | .point, none | .exponentSign, none | .exponent, none => none

end NumberState

end Registrar.Json
