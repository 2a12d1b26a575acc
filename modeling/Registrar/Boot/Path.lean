namespace Registrar.Path

def isAbsolute (path : String) : Bool := path.toList.head? = some '/'

def join (directory path : String) : String :=
  if isAbsolute path || directory = "" then path
  else if directory.toList.getLast? = some '/' then directory ++ path
  else directory ++ "/" ++ path

def trimParts (parts : List String) : List String :=
  match parts with
  | [] => []
  | first :: rest =>
      first :: (rest.reverse.dropWhile fun part => part = "" || part = ".").reverse

def parent (path : String) : String :=
  match trimParts (trimParts (path.splitOn "/")).dropLast with
  | [""] => "/"
  | parts => "/".intercalate parts

end Registrar.Path
