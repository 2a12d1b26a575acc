import Registrar.Json.Fields

namespace Registrar

open Json (Written)

structure ServiceConfig where
  host : String
  port : UInt16
  origins : List String
  deriving DecidableEq, Repr

namespace ServiceConfig

def standardHost : String := "0.0.0.0"

def standardPort : UInt16 := 4321

def standardOrigins : List String := ["http://localhost:4321", "http://127.0.0.1:4321"]

def standard : ServiceConfig := ⟨standardHost, standardPort, standardOrigins⟩

def withPort (port : UInt16) : ServiceConfig := { standard with port }

def address (c : ServiceConfig) : String := s!"{c.host}:{c.port}"

def readPort? (w : Written) : Option UInt16 := (w.below? UInt16.size).map UInt16.ofNat

def readOrigins? : Written → Option (List String) := Written.listOf? Written.string?

def ofWritten? (w : Written) : Option ServiceConfig := do
  match ← w.fields? ["host", "port", "cors_origins"] with
  | [host, port, origins] =>
      return ⟨← Written.orElse? Written.string? standardHost host,
        ← Written.orElse? readPort? standardPort port,
        ← Written.orElse? readOrigins? standardOrigins origins⟩
  | _ => none

end ServiceConfig

end Registrar
