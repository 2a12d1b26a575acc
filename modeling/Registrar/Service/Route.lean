namespace Registrar

inductive Route where
  | dataset (id kind : String)
  | removal (id : String)
  | datasets
  | query
  | health
  | metrics
  deriving DecidableEq, Repr

namespace Route

def segments : List Char → List (List Char)
  | [] => [[]]
  | c :: rest =>
      if c = '/' then [] :: segments rest
      else match segments rest with
        | [] => [[c]]
        | part :: parts => (c :: part) :: parts

def isSchemeChar (c : Char) : Bool := c.isAlphanum || c = '+' || c = '-' || c = '.'

def originForm (target : List Char) : List Char :=
  match target.dropWhile isSchemeChar with
  | ':' :: '/' :: '/' :: rest => rest.dropWhile fun c => c ≠ '/' && c ≠ '?' && c ≠ '#'
  | _ => target

def path (target : String) : List Char :=
  (originForm target.toList).takeWhile fun c => c ≠ '?' && c ≠ '#'

def ofTarget? (target : String) : Option Route :=
  match (segments (path target)).map String.ofList with
  | ["", "dataset", id] => if id = "" then none else some (.removal id)
  | ["", "dataset", id, kind] => if kind = "" then none else some (.dataset id kind)
  | ["", "datasets"] => some .datasets
  | ["", "query"] => some .query
  | ["", "health"] => some .health
  | ["", "metrics"] => some .metrics
  | _ => none

def method : Route → String
  | .dataset .. => "PUT"
  | .removal _ => "DELETE"
  | .datasets | .health | .metrics => "GET"
  | .query => "POST"

def accepts (route : Route) (method : String) : Bool :=
  method = route.method || (method = "HEAD" && route.method = "GET")

end Route

end Registrar
