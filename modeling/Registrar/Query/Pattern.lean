namespace Registrar

inductive Pattern where
  | any
  | contains (text : String)
  | startsWith (text : String)
  | endsWith (text : String)
  | exact (text : String)
  deriving DecidableEq, Repr

namespace Pattern

def wildcard : Char := '*'

def parse? (raw : String) : Option Pattern :=
  let cs := raw.toList
  if cs = [wildcard] then some .any
  else
    let leading : Bool := cs.head? = some wildcard
    let trailing : Bool := cs.getLast? = some wildcard
    let opened := if leading then cs.drop 1 else cs
    let inner := if trailing then opened.dropLast else opened
    if wildcard ∈ inner then none
    else
      let text := String.ofList inner
      match leading, trailing with
      | true, true => if inner = [] then none else some (.contains text)
      | false, true => some (.startsWith text)
      | true, false => some (.endsWith text)
      | false, false => some (.exact text)

def holds (p : Pattern) (value : String) : Bool :=
  match p with
  | .any => true
  | .contains text => value.contains text
  | .startsWith text => text.toList.isPrefixOf value.toList
  | .endsWith text => text.toList.isSuffixOf value.toList
  | .exact text => value = text

end Pattern

end Registrar
