import Registrar.Boot.Command
import Registrar.Boot.Start
import Registrar.Service.Basic

namespace Registrar.Main

open Log (Entry)

def printEntries (entries : List Entry) : IO Unit := do
  let stderr ← IO.getStderr
  stderr.putStr (Log.text (entries.map Entry.line))
  stderr.flush

def tooLongCode : UInt32 := -36

def fileFault : IO.Error → FileFault
  | .noFileOrDirectory .. => .notFound
  | .inappropriateType _ 21 _ => .isDirectory
  | .inappropriateType .. => .notDirectory
  | .invalidArgument _ 22 _ => .nulInPath
  | e@(.invalidArgument _ code _) =>
      if code = tooLongCode then .nameTooLong else .other (toString e)
  | e => .other (toString e)

def readFile (path : String) : IO (Except FileFault ByteArray) := do
  try return .ok (← IO.FS.readBinFile path)
  catch e => return .error (fileFault e)

def snapshot (path : String) : IO Files := do
  let configFile ← readFile path
  let alone : Files := fun p => if p = path then configFile else .error .notFound
  match Config.load alone path with
  | .error _ => return alone
  | .ok config =>
      let mut contents : List (String × Except FileFault ByteArray) := [(path, configFile)]
      for s in config.sources do
        let place := config.resolve s.path
        contents := contents ++ [(place, ← readFile place)]
      let found := contents
      return fun p => (found.lookup p).getD (.error .notFound)

def freshQueryId : IO String := do
  let digits (n : Nat) : IO String := do
    let mut cs : List Char := []
    for _ in [0:n] do
      cs := Nat.digitChar (← IO.rand 0 15) :: cs
    return String.ofList cs
  let variant := Nat.digitChar (8 + (← IO.rand 0 3))
  let parts : List String :=
    [← digits 8, ← digits 4, "4" ++ (← digits 3), String.singleton variant ++ (← digits 3),
      ← digits 12]
  return "-".intercalate parts

def begin (path : String) : IO (Except StartFault Started) := do
  let (result, entries) := start (← snapshot path) "" path
  printEntries entries
  return result

def query (path : String) : IO (Except StartFault Unit) := do
  match ← begin path with
  | .error fault => return .error fault
  | .ok started =>
      let stdin ← IO.getStdin
      let mut input := ByteArray.empty
      let mut chunk ← stdin.read 65536
      while chunk.size > 0 do
        input := input ++ chunk
        chunk ← stdin.read 65536
      match readRequest input with
      | .error fault => return .error fault
      | .ok request =>
          let o := started.registry.query (← freshQueryId) request
          printEntries o.log
          let stdout ← IO.getStdout
          stdout.putStrLn (envelope o.result).text
          stdout.flush
          return .ok ()

def serve (path : String) : IO (Except StartFault Unit) := do
  match ← begin path with
  | .error fault => return .error fault
  | .ok started =>
      match Origins.ofList? started.config.service.origins with
      | none => return .error (.notServing "the wildcard stands among other origins")
      | some _ =>
          printEntries [⟨.serving, [("addr", started.config.service.address)]⟩]
          return .error (.notServing "no listener is available")

def usage : String :=
  "Usage: campusql <serve|query> [--config <CONFIG>]\n\n" ++
  "serve  Preload datasets and serve the REST API\n" ++
  "query  Preload datasets, run one query from stdin and exit"

def finish (result : Except StartFault Unit) : IO UInt32 := do
  match result with
  | .ok () => return 0
  | .error fault =>
      (← IO.getStderr).putStrLn fault.text
      return 1

end Registrar.Main

open Registrar in
def main (args : List String) : IO UInt32 := do
  match Command.parse args with
  | .ok (.query path) => Main.finish (← Main.query path)
  | .ok (.serve path) => Main.finish (← Main.serve path)
  | .error .helpWanted =>
      IO.println Main.usage
      return 0
  | .error .versionWanted =>
      IO.println ("campusql " ++ Service.version)
      return 0
  | .error _ =>
      IO.eprintln Main.usage
      return 2
