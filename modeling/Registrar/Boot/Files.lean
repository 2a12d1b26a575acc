namespace Registrar

inductive FileFault where
  | notFound
  | isDirectory
  | notDirectory
  | nameTooLong
  | nulInPath
  | notUtf8
  | other (detail : String)
  deriving DecidableEq, Repr

namespace FileFault

def message : FileFault → String
  | .notFound => "No such file or directory (os error 2)"
  | .isDirectory => "Is a directory (os error 21)"
  | .notDirectory => "Not a directory (os error 20)"
  | .nameTooLong => "File name too long (os error 36)"
  | .nulInPath => "file name contained an unexpected NUL byte"
  | .notUtf8 => "stream did not contain valid UTF-8"
  | .other detail => detail

end FileFault

abbrev Files := String → Except FileFault ByteArray

namespace Files

def text (files : Files) (path : String) : Except FileFault String := do
  match String.fromUTF8? (← files path) with
  | some text => return text
  | none => throw .notUtf8

end Files

abbrev FileTree := List (List String × ByteArray)

namespace FileTree

def file? (tree : FileTree) (place : List String) : Option ByteArray :=
  (tree.find? fun f => f.1 = place).map Prod.snd

def isDirectory (tree : FileTree) (place : List String) : Bool :=
  place = [] || tree.any fun f => f.1 ≠ place && place.isPrefixOf f.1

def maxNameSize : Nat := 255

def maxPathSize : Nat := 4096

def follow (tree : FileTree) (place : List String) : List String → Except FileFault (List String)
  | [] => .ok place
  | part :: rest =>
      if !tree.isDirectory place then .error .notDirectory
      else if part = "" || part = "." then follow tree place rest
      else if part = ".." then follow tree place.dropLast rest
      else if maxNameSize < part.utf8ByteSize then .error .nameTooLong
      else
        let next := place ++ [part]
        if tree.isDirectory next || (tree.file? next).isSome then follow tree next rest
        else .error .notFound

def files (tree : FileTree) : Files := fun path => do
  if path.toList.contains '\x00' then throw .nulInPath
  if maxPathSize ≤ path.utf8ByteSize then throw .nameTooLong
  let place ← tree.follow [] (path.splitOn "/")
  match tree.file? place with
  | some bytes => return bytes
  | none => throw .isDirectory

end FileTree

end Registrar
