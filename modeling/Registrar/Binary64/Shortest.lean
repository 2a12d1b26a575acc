import Registrar.Binary64.Arithmetic

namespace Registrar.Binary64

inductive Tie where
  | even
  | up
  deriving DecidableEq, Repr

def Tie.roundsUp (tie : Tie) (c rest step : Nat) : Bool :=
  step < 2 * rest || (2 * rest = step && (tie = .up || c % 2 = 1))

structure Interval where
  low : Nat
  middle : Nat
  high : Nat
  unit : Nat
  closed : Bool
  deriving DecidableEq, Repr

namespace Interval

def ofRank (rank : Nat) : Interval :=
  let coarse := Nat.min (rank / blockSize - 2) 1074
  ⟨(units (rank - 1) + units rank) >>> coarse, (2 * units rank) >>> coarse,
    (units rank + units (rank + 1)) >>> coarse, (2 * unity) >>> coarse, rank % 2 = 0⟩

def holds (i : Interval) (scale n : Nat) : Bool :=
  if i.closed then i.low * scale ≤ n && n ≤ i.high * scale
  else i.low * scale < n && n < i.high * scale

def gridPoint? (i : Interval) (tie : Tie) (k : Int) : Option Nat :=
  let scale := Decimal.power (-k).toNat
  let step := Decimal.power k.toNat * i.unit
  let middle := i.middle * scale
  let c := middle / step
  match i.holds scale (c * step), i.holds scale ((c + 1) * step) with
  | true, true => some (if tie.roundsUp c (middle % step) step then c + 1 else c)
  | true, false => some c
  | false, true => some (c + 1)
  | false, false => none

end Interval

def topExponent (rank : Nat) : Int :=
  ((units rank).log2 - 1073 : Int) * 30103 / 100000 + 1

def shortest (tie : Tie) (negative : Bool) (rank : Nat) : Decimal :=
  if rank = 0 then .zero
  else
    let interval := Interval.ofRank rank
    let top := topExponent rank
    let found := (List.range 20).findSome? fun (i : Nat) =>
      (interval.gridPoint? tie (top - i)).map fun c => (⟨signed negative c, top - i⟩ : Decimal)
    found.getD .zero

end Registrar.Binary64
