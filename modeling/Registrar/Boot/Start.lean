import Registrar.Boot.Config
import Registrar.Boot.Files
import Registrar.Json.Reader.Basic
import Registrar.Registry.Basic

namespace Registrar

open Json (Written)
open Log (Entry)

inductive StartFault where
  | unreadableConfig (cause : FileFault)
  | invalidConfig (detail : String)
  | zeroPort
  | repeatedDataset (id : String)
  | unreadableDataset (id path : String) (cause : FileFault)
  | invalidDataset (id detail : String)
  | rejectedDataset (id : String) (cause : DatasetFault)
  | unreadableRequest (cause : FileFault)
  | emptyRequest
  | invalidRequest (detail : String)
  | notServing (detail : String)
  deriving DecidableEq, Repr

namespace StartFault

def code : StartFault → String
  | .unreadableConfig _ | .invalidConfig _ | .zeroPort | .repeatedDataset _ =>
      "CAMPUSQL_CLI_CONFIG_ERROR"
  | .unreadableDataset .. | .invalidDataset .. | .rejectedDataset .. =>
      "CAMPUSQL_CLI_DATASET_LOAD_FAILED"
  | .unreadableRequest _ | .emptyRequest | .invalidRequest _ => "CAMPUSQL_CLI_IO_ERROR"
  | .notServing _ => "CAMPUSQL_CLI_BOOT_FAILED"

def message : StartFault → String
  | .unreadableConfig cause => s!"Failed to read config: {cause.message}"
  | .invalidConfig detail => s!"Invalid config JSON: {detail}"
  | .zeroPort => "port must be greater than 0"
  | .repeatedDataset id => s!"dataset '{id}' is configured more than once"
  | .unreadableDataset id path cause =>
      s!"Failed to read dataset '{id}' from {path}: {cause.message}"
  | .invalidDataset id detail => s!"Dataset '{id}' is not valid JSON: {detail}"
  | .rejectedDataset id cause => s!"Dataset '{id}' rejected ({cause.code}): {cause.message}"
  | .unreadableRequest cause => cause.message
  | .emptyRequest => "Empty input"
  | .invalidRequest detail => s!"JSON error: {detail}"
  | .notServing detail => s!"HTTP server failed: {detail}"

def text (f : StartFault) : String := s!"{f.code}: {f.message}"

end StartFault

namespace Config

def check (c : Config) : Except StartFault Unit :=
  if c.service.port = 0 then .error .zeroPort
  else match repeatedId? [] c.sources with
    | some id => .error (.repeatedDataset id)
    | none => .ok ()

def load (files : Files) (path : String) : Except StartFault Config := do
  let text ← (files.text path).mapError .unreadableConfig
  match (Written.read? text).bind (ofWritten? (Path.parent path)) with
  | none => throw (.invalidConfig Json.unreadable)
  | some config =>
      config.check
      return config

def loadedEntry (c : Config) (path : String) : Entry :=
  ⟨.configLoaded, [("datasets", toString c.sources.length), ("path", path)]⟩

def readSource (c : Config) (files : Files) (s : Source) : Except StartFault Json := do
  let path := c.resolve s.path
  let text ← (files.text path).mapError (.unreadableDataset s.id path)
  match Json.read? text with
  | some payload => return payload
  | none => throw (.invalidDataset s.id Json.unreadable)

def loadSources (c : Config) (files : Files) (now : String) (r : Registry) :
    List Source → Outcome (Except StartFault Unit)
  | [] => ⟨r, .ok (), []⟩
  | s :: rest =>
      match c.readSource files s with
      | .error fault => ⟨r, .error fault, []⟩
      | .ok payload =>
          let o := r.addJson now s.id s.kind payload
          match o.result with
          | .error cause => ⟨o.registry, .error (.rejectedDataset s.id cause), o.log⟩
          | .ok _ =>
              let later := loadSources c files now o.registry rest
              ⟨later.registry, later.result, o.log ++ later.log⟩

end Config

structure Started where
  config : Config
  registry : Registry

def start (files : Files) (now path : String) : Except StartFault Started × List Entry :=
  match Config.load files path with
  | .error fault => (.error fault, [])
  | .ok config =>
      let o := config.loadSources files now (Registry.fresh Answer.standardLimit) config.sources
      (o.result.map fun _ => ⟨config, o.registry⟩, config.loadedEntry path :: o.log)

def readRequest (bytes : ByteArray) : Except StartFault Json :=
  match String.fromUTF8? bytes with
  | none => .error (.unreadableRequest .notUtf8)
  | some text =>
      if Text.allBlank text then .error .emptyRequest
      else match Json.read? text with
        | some value => .ok value
        | none => .error (.invalidRequest Json.unreadable)

end Registrar
