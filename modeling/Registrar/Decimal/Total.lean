import Registrar.Binary64.Shortest

namespace Registrar

namespace Decimal

open Binary64 (roundHalfEven)

def precision : Nat := 34

def rounded (d : Decimal) : Decimal :=
  if d.coefficient.natAbs < power precision then d
  else
    let excess := digitCount d.coefficient.natAbs - precision
    ⟨Binary64.signed (d.coefficient < 0) (roundHalfEven d.coefficient.natAbs (power excess)),
      d.exponent + excess⟩

def toBinary64 (d : Decimal) : Binary64 :=
  .ofDecimal (d.coefficient < 0) d.coefficient.natAbs d.exponent

end Decimal

inductive Total where
  | nan
  | infinite (negative : Bool)
  | finite (sum : Decimal)
  deriving DecidableEq, Repr

namespace Total

def zero : Total := .finite .zero

def ofBinary64 : Binary64 → Total
  | .nan => .nan
  | .infinite s => .infinite s
  | .finite s r => .finite (Binary64.shortest .up s r)

def add : Total → Total → Total
  | .nan, _ => .nan
  | _, .nan => .nan
  | .infinite s, .infinite t => if s = t then .infinite s else .nan
  | .infinite s, .finite _ => .infinite s
  | .finite _, .infinite t => .infinite t
  | .finite a, .finite b => .finite (a + b).rounded

def ofList (terms : List Binary64) : Total :=
  terms.foldl (fun total x => total.add (ofBinary64 x)) zero

def toBinary64 : Total → Binary64
  | .nan => .nan
  | .infinite s => .infinite s
  | .finite d => d.toBinary64

end Total

end Registrar
