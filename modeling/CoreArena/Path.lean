/-! Path texts: names between slashes.

Empty names and single dots inside a path do not count. A leading dot does. -/

namespace CoreArena.Path

/-- The texts between the slashes of a path. -/
def split : List Char → List (List Char)
  | [] => [[]]
  | c :: cs =>
    if c = '/' then [] :: split cs
    else match split cs with
      | [] => [[c]]
      | p :: ps => (c :: p) :: ps

/-- The names of a path, with what is not one still in. -/
def names (path : String) : List String :=
  (split path.toList).map String.ofList

/-- The names of a path without the slashes at its end. -/
def bareNames (path : String) : List String :=
  ((names path).reverse.dropWhile (·.isEmpty)).reverse

/-- A name that leads nowhere. -/
def isIdle (name : String) : Bool :=
  name == "" || name == "."

/-- The path of an entry of a directory. -/
def join (dir name : String) : String :=
  if dir.isEmpty || dir.endsWith "/" then dir ++ name else dir ++ "/" ++ name

/-- Drops from the end of a list of names, last first, those that lead nowhere. A leading dot is
kept. -/
def dropIdle : List String → List String
  | [] => []
  | ["."] => ["."]
  | n :: ns => if isIdle n then dropIdle ns else n :: ns

/-- The last name of a path, if it names an entry of a directory. -/
def fileName? (path : String) : Option String :=
  match dropIdle (names path).reverse with
  | n :: _ => if n == ".." || isIdle n then none else some n
  | [] => none

/-- The path of the directory that holds the entry; empty for a single name. A path of the root
only, and an empty one, have none. -/
def parent? (path : String) : Option String :=
  match dropIdle (names path).reverse with
  | [] => none
  | _ :: ns =>
    match dropIdle ns with
    | [] => some (if path.startsWith "/" then "/" else "")
    | ns => some ("/".intercalate ns.reverse)

/-- From the names of a path, last first: the paths that end with one of them, longest first. -/
def endings : List String → List String
  | [] => []
  | n :: ns =>
    if isIdle n && !(n == "." && ns.isEmpty) then endings ns
    else "/".intercalate (n :: ns).reverse :: endings ns

/-- A path as it stands, and the paths of the directories that enclose what it names, innermost
first. -/
def ancestors (path : String) : List String :=
  path :: (endings (names path).reverse).drop 1 ++ if path.startsWith "/" then ["/"] else []

/-- The last name of a path up to its last dot. A dot in front of the name does not count. -/
def fileStem (path : String) : String :=
  match fileName? path with
  | none => ""
  | some name =>
    let cs := name.toList
    match cs.reverse.dropWhile (· != '.') with
    | '.' :: front => if front.isEmpty then name else String.ofList front.reverse
    | _ => name

end CoreArena.Path
