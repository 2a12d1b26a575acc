import Registrar.Binary64.Arithmetic

namespace Registrar.Binary64

def powerOfTen (n : Nat) : Binary64 := ofNat (Decimal.power n)

def topPower : Nat := 308

def lower (x : Binary64) : Nat → Binary64
  | 0 => x
  | times + 1 => if x = zero then x else lower (x / powerOfTen topPower) times

def scale? (significand : Nat) : Int → Option Binary64
  | .ofNat e =>
      let x := ofNat significand
      if topPower < e then if x = zero then some x else none
      else
        let y := x * powerOfTen e
        if y.isFinite then some y else none
  | .negSucc e =>
      some (lower (ofNat significand) (e / topPower) / powerOfTen (e % topPower + 1))

def withSign (negative : Bool) (x : Binary64) : Binary64 := if negative then x.neg else x

end Registrar.Binary64
