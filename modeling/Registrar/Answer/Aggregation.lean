import Registrar.Catalog.Cell
import Registrar.Decimal.Text
import Registrar.Query.Basic
import Std.Data.HashSet

namespace Registrar

def Binary64.toCents (x : Binary64) : Binary64 :=
  (x * .ofNat 100).round / .ofNat 100

namespace Aggregate

def numbers (cells : List Cell) : List Binary64 := cells.filterMap Cell.number?

def pick (choose : Binary64 → Binary64 → Binary64) : List Binary64 → Binary64
  | [] => .zero
  | x :: rest => rest.foldl choose x

def total (xs : List Binary64) : Binary64 := xs.foldl (· + ·) .zero

def decimalTotal? (xs : List Binary64) : Option Binary64 :=
  (Total.ofTexts? (xs.map Binary64.text)).bind fun t => Binary64.ofText? t.text

def average (xs : List Binary64) : Binary64 :=
  if xs = [] then .zero
  else ((decimalTotal? xs).getD (total xs) / .ofNat xs.length).toCents

def distinct (cells : List Cell) : Nat := (Std.HashSet.ofList (cells.map Cell.canonical)).size

def apply (a : Aggregate) (cells : List Cell) : Cell :=
  .number <|
    match a with
    | .max => pick .max (numbers cells)
    | .min => pick .min (numbers cells)
    | .sum => (total (numbers cells)).toCents
    | .avg => average (numbers cells)
    | .count => .ofNat (distinct cells)

end Aggregate

end Registrar
