import Registrar.Decimal.Total

namespace Registrar

inductive Quantity where
  | nan
  | infinite (negative : Bool)
  | decimal (negative : Bool) (digits : Nat) (exponent : Int)
  deriving DecidableEq, Repr

namespace Quantity

def natural? (digits : List Char) : Option Nat :=
  if digits ≠ [] ∧ digits.all Char.isDigit then some (Nat.ofDigitChars 10 digits 0) else none

def integer? : List Char → Option Int
  | '-' :: digits => (natural? digits).map fun (n : Nat) => -(n : Int)
  | '+' :: digits => (natural? digits).map Int.ofNat
  | digits => (natural? digits).map Int.ofNat

def exponent? : List Char → Option Int
  | [] => some 0
  | mark :: rest => if mark = 'e' ∨ mark = 'E' then integer? rest else none

def splitFraction : List Char → List Char × List Char
  | '.' :: rest => (rest.takeWhile Char.isDigit, rest.dropWhile Char.isDigit)
  | rest => ([], rest)

def magnitude? (text : List Char) : Option (Nat × Int) :=
  let whole := text.takeWhile Char.isDigit
  let (fraction, rest) := splitFraction (text.dropWhile Char.isDigit)
  if whole ++ fraction = [] then none
  else (exponent? rest).map fun exponent =>
    (Nat.ofDigitChars 10 (whole ++ fraction) 0, exponent - fraction.length)

def unsigned? (negative : Bool) (text : List Char) : Option Quantity :=
  let word := text.map Char.toLower
  if word = ['n', 'a', 'n'] then some .nan
  else if word = ['i', 'n', 'f'] ∨ word = ['i', 'n', 'f', 'i', 'n', 'i', 't', 'y'] then
    some (.infinite negative)
  else (magnitude? text).map fun (digits, exponent) => .decimal negative digits exponent

def ofText? : List Char → Option Quantity
  | '-' :: rest => unsigned? true rest
  | '+' :: rest => unsigned? false rest
  | text => unsigned? false text

end Quantity

def signText (negative : Bool) : List Char := if negative then ['-'] else []

namespace Decimal

def plainText (digits : Nat) (exponent : Int) : List Char :=
  let ds := Nat.toDigits 10 digits
  let lead := exponent + ds.length - 1
  let zeros (n : Int) : List Char := List.replicate n.toNat '0'
  if 0 ≤ exponent then ds ++ zeros exponent
  else if 0 ≤ lead then ds.take (lead.toNat + 1) ++ '.' :: ds.drop (lead.toNat + 1)
  else '0' :: '.' :: zeros (-lead - 1) ++ ds

def scaledText (digits : Nat) (exponent : Int) : List Char :=
  let ds := Nat.toDigits 10 digits
  let lead := exponent + ds.length - 1
  let fraction := if ds.length = 1 then [] else '.' :: ds.drop 1
  ds.take 1 ++ fraction ++ 'E' :: (if lead < 0 then '-' else '+') :: Nat.toDigits 10 lead.natAbs

def text (d : Decimal) : List Char :=
  let digits := d.coefficient.natAbs
  signText (d.coefficient < 0) ++
    if d.exponent ≤ 0 ∧ -6 ≤ d.exponent + digitCount digits - 1 then plainText digits d.exponent
    else scaledText digits d.exponent

end Decimal

namespace Binary64

def text : Binary64 → List Char
  | .nan => ['N', 'a', 'N']
  | .infinite s => signText s ++ ['i', 'n', 'f']
  | .finite s r =>
      let d := shortest .up s r
      signText s ++ Decimal.plainText d.coefficient.natAbs d.exponent

def ofQuantity : Quantity → Binary64
  | .nan => .nan
  | .infinite s => .infinite s
  | .decimal negative digits exponent => .ofDecimal negative digits exponent

def ofText? (text : List Char) : Option Binary64 := (Quantity.ofText? text).map ofQuantity

end Binary64

namespace Total

def text : Total → List Char
  | .nan => ['N', 'a', 'N']
  | .infinite s => signText s ++ ['I', 'n', 'f', 'i', 'n', 'i', 't', 'y']
  | .finite d => d.text

def ofQuantity : Quantity → Total
  | .nan => .nan
  | .infinite s => .infinite s
  | .decimal negative digits exponent =>
      .finite (⟨Binary64.signed negative digits, exponent⟩ : Decimal).rounded

def ofText? (text : List Char) : Option Total := (Quantity.ofText? text).map ofQuantity

def ofTexts? (terms : List (List Char)) : Option Total :=
  terms.foldlM (fun total term => (ofText? term).map total.add) zero

end Total

end Registrar
