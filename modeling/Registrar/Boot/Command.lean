namespace Registrar

inductive Command where
  | serve (config : String)
  | query (config : String)
  deriving DecidableEq, Repr

inductive ArgumentFault where
  | missingCommand
  | unknownCommand
  | unknownArgument
  | invalidValue
  | tooManyValues
  | repeatedArgument
  | helpWanted
  | versionWanted
  deriving DecidableEq, Repr

namespace Command

def standardConfig : String := "./campusql.json"

structure Options where
  config : Option String
  pending : Option (Option String)
  deriving DecidableEq, Repr

namespace Options

def start : Options := ⟨none, none⟩

def settle (o : Options) : Except ArgumentFault Options :=
  match o.pending with
  | none => .ok o
  | some none => .error .invalidValue
  | some (some value) =>
      if o.config.isSome then .error .repeatedArgument
      else if value = "" then .error .invalidValue
      else .ok ⟨some value, none⟩

def path (o : Options) : String := o.config.getD standardConfig

end Options

def long? (arg : String) : Option (String × Option String) :=
  match arg.toList with
  | '-' :: '-' :: rest =>
      let name := rest.takeWhile (· ≠ '=')
      match rest.dropWhile (· ≠ '=') with
      | [] => some (String.ofList name, none)
      | _ :: value => some (String.ofList name, some (String.ofList value))
  | _ => none

def short? (arg : String) : Option Char :=
  match arg.toList with
  | '-' :: c :: _ => some c
  | _ => none

def readLong (o : Options) (name : String) (value : Option String) :
    Except ArgumentFault Options :=
  match name, value with
  | "config", some v =>
      match o.settle with
      | .ok settled => { settled with pending := some (some v) : Options }.settle
      | .error fault => .error fault
  | "config", none => do return { ← o.settle with pending := some none }
  | "help", some _ => .error .tooManyValues
  | "help", none => do
      let _ ← o.settle
      throw .helpWanted
  | _, _ => .error .unknownArgument

def readOptions (o : Options) : List String → Except ArgumentFault Options
  | [] => o.settle
  | "--" :: [] => o.settle
  | "--" :: _ :: _ => .error .unknownArgument
  | arg :: rest =>
      match long? arg, short? arg with
      | some (name, value), _ => do readOptions (← readLong o name value) rest
      | none, some 'h' => do
          let _ ← o.settle
          throw .helpWanted
      | none, some _ => .error .unknownArgument
      | none, none =>
          if o.pending = some none then readOptions { o with pending := some (some arg) } rest
          else .error .unknownArgument

def isName (arg : String) : Bool := arg = "serve" || arg = "query" || arg = "help"

def parse (args : List String) : Except ArgumentFault Command :=
  match args with
  | [] => .error .missingCommand
  | "serve" :: rest => do return .serve (← readOptions .start rest).path
  | "query" :: rest => do return .query (← readOptions .start rest).path
  | ["help"] => .error .helpWanted
  | ["help", topic] => if isName topic then .error .helpWanted else .error .unknownCommand
  | "help" :: _ => .error .unknownCommand
  | ["--"] => .error .missingCommand
  | "--" :: arg :: _ => if isName arg then .error .unknownArgument else .error .unknownCommand
  | arg :: _ =>
      match long? arg, short? arg with
      | some ("help", none), _ => .error .helpWanted
      | some ("version", none), _ => .error .versionWanted
      | some ("help", some _), _ => .error .tooManyValues
      | some ("version", some _), _ => .error .tooManyValues
      | some _, _ => .error .unknownArgument
      | none, some 'h' => .error .helpWanted
      | none, some 'V' => .error .versionWanted
      | none, some _ => .error .unknownArgument
      | none, none => .error .unknownCommand

end Command

end Registrar
