import Registrar.Boot.Path
import Registrar.Catalog.Kind
import Registrar.Service.Config

namespace Registrar

open Json (Written)

def Kind.ofWritten? : Written → Option Kind
  | .string (some name) => Kind.ofName? name
  | .object [(some name, .null)] => Kind.ofName? name
  | _ => none

structure Source where
  id : String
  kind : Kind
  path : String
  deriving DecidableEq, Repr

namespace Source

def ofWritten? (w : Written) : Option Source := do
  match ← w.fields? ["id", "kind", "path"] with
  | [some id, some kind, some path] =>
      return ⟨← id.string?, ← Kind.ofWritten? kind, ← path.string?⟩
  | _ => none

end Source

structure Config where
  service : ServiceConfig
  logFilter : String
  sources : List Source
  directory : String
  deriving DecidableEq, Repr

namespace Config

def standardLogFilter : String := "info"

def ofWritten? (directory : String) (w : Written) : Option Config := do
  match ← w.fields? ["host", "port", "cors_origins", "log_filter", "datasets"] with
  | [host, port, origins, logFilter, sources] =>
      let service : ServiceConfig :=
        ⟨← Written.orElse? Written.string? ServiceConfig.standardHost host,
          ← Written.orElse? ServiceConfig.readPort? ServiceConfig.standardPort port,
          ← Written.orElse? ServiceConfig.readOrigins? ServiceConfig.standardOrigins origins⟩
      return ⟨service, ← Written.orElse? Written.string? standardLogFilter logFilter,
        ← Written.orElse? (Written.listOf? Source.ofWritten?) [] sources, directory⟩
  | _ => none

def resolve (c : Config) (path : String) : String := Path.join c.directory path

def repeatedId? (seen : List String) : List Source → Option String
  | [] => none
  | s :: rest => if seen.contains s.id then some s.id else repeatedId? (s.id :: seen) rest

end Config

end Registrar
