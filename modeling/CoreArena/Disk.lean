import CoreArena.Path

/-! A directory tree as a value, and reading and writing files in it. -/

namespace CoreArena

inductive DiskFault where
  | notFound
  | permissionDenied
  | notADirectory
  | isADirectory
  | alreadyExists
  | nameTooLong
  | nulInName
  | invalidText
  deriving DecidableEq, Repr

def DiskFault.message : DiskFault → String
  | notFound => "No such file or directory (os error 2)"
  | permissionDenied => "Permission denied (os error 13)"
  | notADirectory => "Not a directory (os error 20)"
  | isADirectory => "Is a directory (os error 21)"
  | alreadyExists => "File exists (os error 17)"
  | nameTooLong => "File name too long (os error 36)"
  | nulInName => "file name contained an unexpected NUL byte"
  | invalidText => "stream did not contain valid UTF-8"

structure FileError where
  path : String
  fault : DiskFault
  deriving DecidableEq, Repr

def FileError.message (e : FileError) : String :=
  s!"io error on {e.path}: {e.fault.message}"

inductive Node where
  | file (content : ByteArray)
  | directory
  /-- A file that may be neither read nor written. -/
  | locked

def Node.isDirectory : Node → Bool
  | directory => true
  | _ => false

/-- Whether two nodes are of one kind and hold the same. -/
def Node.same : Node → Node → Bool
  | file a, file b => a.data == b.data
  | directory, directory => true
  | locked, locked => true
  | _, _ => false

/-- A directory tree: the places below the root at which something stands, and the place that
relative paths start from. -/
structure Disk where
  entries : List (List String × Node)
  home : List String := []

namespace Disk

def empty : Disk := { entries := [] }

/-- What stands at a place. At the root, a directory does. -/
def node? (d : Disk) (place : List String) : Option Node :=
  if place = [] then some .directory else d.entries.lookup place

def put (d : Disk) (place : List String) (n : Node) : Disk :=
  { d with entries := (place, n) :: d.entries.filter (·.1 ≠ place) }

def remove (d : Disk) (place : List String) : Disk :=
  { d with entries := d.entries.filter fun e => !place.isPrefixOf e.1 }

def maxNameBytes : Nat := 255

/-- The bytes that a path may not reach. -/
def maxPathBytes : Nat := 4096

/-- Follows names from a place. What names are looked up in has to be a directory; the last name
need not lead to anything. -/
def walk (d : Disk) (place : List String) : List String → Except DiskFault (List String)
  | [] => .ok place
  | name :: names =>
    match d.node? place with
    | none => .error .notFound
    | some (.file _) | some .locked => .error .notADirectory
    | some .directory =>
      if Path.isIdle name then walk d place names
      else if name = ".." then walk d place.dropLast names
      else if name.utf8ByteSize > maxNameBytes then .error .nameTooLong
      else walk d (place ++ [name]) names

def origin (d : Disk) (path : String) : List String :=
  if path.startsWith "/" then [] else d.home

/-- What is wrong with a path wherever it leads. -/
def unusable? (path : String) : Option DiskFault :=
  if path.contains '\x00' then some .nulInName
  else if path.isEmpty then some .notFound
  else if path.utf8ByteSize ≥ maxPathBytes then some .nameTooLong
  else none

def follow (d : Disk) (path : String) (names : List String) : Except DiskFault (List String) :=
  match unusable? path with
  | some fault => .error fault
  | none => d.walk (d.origin path) names

def locate (d : Disk) (path : String) : Except DiskFault (List String) :=
  d.follow path (Path.names path)

def lookup (d : Disk) (path : String) : Except DiskFault Node :=
  match d.locate path with
  | .error fault => .error fault
  | .ok place =>
    match d.node? place with
    | none => .error .notFound
    | some n => .ok n

def has (d : Disk) (path : String) : Bool :=
  (d.lookup path).toBool

def readBytes (d : Disk) (path : String) : Except DiskFault ByteArray :=
  match d.lookup path with
  | .error fault => .error fault
  | .ok .directory => .error .isADirectory
  | .ok .locked => .error .permissionDenied
  | .ok (.file content) => .ok content

def readText (d : Disk) (path : String) : Except DiskFault String :=
  match d.readBytes path with
  | .error fault => .error fault
  | .ok content =>
    match String.fromUTF8? content with
    | none => .error .invalidText
    | some text => .ok text

/-- The content of a text file that need not be there. -/
def readText? (d : Disk) (path : String) : Except FileError (Option String) :=
  match d.readText path with
  | .ok text => .ok (some text)
  | .error .notFound => .ok none
  | .error fault => .error ⟨path, fault⟩

/-- Whether a path ends in a slash, and so asks for a directory, and leads to a place that lies in
one. -/
def asksForDirectory (d : Disk) (path : String) : Bool :=
  path.endsWith "/" &&
    match d.follow path (Path.bareNames path).dropLast with
    | .ok place => (d.node? place).any Node.isDirectory
    | .error _ => false

/-- Writes a file, new or in place of an old one. Its directory has to be there. -/
def writeBytes (d : Disk) (path : String) (content : ByteArray) : Except DiskFault Disk :=
  if d.asksForDirectory path then .error .isADirectory
  else match d.locate path with
    | .error fault => .error fault
    | .ok place =>
      match d.node? place with
      | some .directory => .error .isADirectory
      | some .locked => .error .permissionDenied
      | some (.file _) | none => .ok (d.put place (.file content))

def writeText (d : Disk) (path : String) (text : String) : Except DiskFault Disk :=
  d.writeBytes path text.toUTF8

def isDirectory (d : Disk) (path : String) : Bool :=
  (d.lookup path).toOption.any Node.isDirectory

/-- Makes one directory. What encloses it has to be there, and nothing may stand in its place. -/
def makeDirectory (d : Disk) (path : String) : Except DiskFault Disk :=
  match d.follow path (Path.bareNames path) with
  | .error fault => .error fault
  | .ok place =>
    if (d.node? place).isSome then .error .alreadyExists else .ok (d.put place .directory)

def ensureDirectory (d : Disk) (path : String) : Except DiskFault Disk :=
  match d.makeDirectory path with
  | .ok d => .ok d
  | .error fault => if d.isDirectory path then .ok d else .error fault

/-- Makes the first of some directories, each of which is enclosed by the next. Where it has nothing
to lie in, the others are made before it. What was made before a fault stays. -/
def makeNested (d : Disk) : List String → Disk × Option DiskFault
  | [] => (d, none)
  | path :: enclosing =>
    match d.ensureDirectory path with
    | .ok d => (d, none)
    | .error .notFound =>
      match d.makeNested enclosing with
      | (d, some fault) => (d, some fault)
      | (d, none) =>
        match d.ensureDirectory path with
        | .ok d => (d, none)
        | .error fault => (d, some fault)
    | .error fault => (d, some fault)

/-- Makes a directory and all directories above it, as far as they are missing. An empty path asks
for nothing. -/
def makeDirectories (d : Disk) (path : String) : Disk × Option DiskFault :=
  if path.isEmpty then (d, none) else d.makeNested (Path.ancestors path)

def files (d : Disk) : List (List String × ByteArray) :=
  d.entries.filterMap fun (place, n) =>
    match n with
    | .file content => some (place, content)
    | .directory | .locked => none

/-! ### Laws -/

theorem lookup_filter_ne {place q : List String} (entries : List (List String × Node))
    (h : q ≠ place) : (entries.filter (·.1 ≠ place)).lookup q = entries.lookup q := by
  induction entries with
  | nil => rfl
  | cons e entries ih =>
    obtain ⟨r, n⟩ := e
    by_cases he : r = place
    · have hb : (q == r) = false := by simp [he, h]
      rw [List.lookup_cons, hb, List.filter_cons_of_neg (by simp [he])]
      exact ih
    · rw [List.filter_cons_of_pos (by simpa using he), List.lookup_cons, List.lookup_cons, ih]

/-- After something was put at a place, it stands there, and nothing else has changed. -/
theorem node?_put {d : Disk} {place : List String} (h : place ≠ []) (n : Node) (q : List String) :
    (d.put place n).node? q = if q = place then some n else d.node? q := by
  by_cases hq : q = place
  · subst hq
    simp [node?, put, h]
  · have hb : (q == place) = false := by simp [hq]
    simp only [node?, put, List.lookup_cons, hb, hq, if_false, lookup_filter_ne _ hq]

end Disk

end CoreArena
