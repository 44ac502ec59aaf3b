import CoreArena.Disk
import CoreArena.Source.Assembly

/-! An archive of all programs sent to a world.

An accepted program is kept as its source and its bytes. A refused one goes to a directory of its
own, with the cause on the first line. File names are made of harmless characters only. -/

namespace CoreArena

structure Archive where
  directory : String
  deriving DecidableEq, Repr

namespace Archive

/-- A character that may stand in a file name. -/
def isHarmless (c : Char) : Bool :=
  c.isAlphanum || c == '-' || c == '_'

/-- A part of a file name: other characters become underscores, and nothing becomes a word. -/
def sanitize (part : String) : String :=
  let cs := (Text.trim part.toList).map fun c => if isHarmless c then c else '_'
  if cs.isEmpty then "anonymous" else String.ofList cs

/-- The name that the files of a submission share. -/
def stem (name author : String) : String :=
  sanitize name ++ "_" ++ sanitize author

def refusedDirectory (a : Archive) : String :=
  Path.join a.directory "invalid"

def acceptedText (author source : String) : String :=
  s!"# Author: {author}\n{source}"

def refusedText (author source reason : String) : String :=
  s!"# {reason}\n# Author: {author}\n{source}"

def makeDirectories (d : Disk) (path : String) : Disk × Option FileError :=
  let (d, fault) := d.makeDirectories path
  (d, fault.map (⟨path, ·⟩))

def write (d : Disk) (path : String) (content : ByteArray) : Disk × Option FileError :=
  match d.writeBytes path content with
  | .ok d => (d, none)
  | .error fault => (d, some ⟨path, fault⟩)

/-- Does one thing after another, up to the first that fails. What was done stays. -/
def inOrder (d : Disk) : List (Disk → Disk × Option FileError) → Disk × Option FileError
  | [] => (d, none)
  | step :: steps =>
    match step d with
    | (d, some e) => (d, some e)
    | (d, none) => inOrder d steps

/-- Keeps an accepted program. Tells the path of its source. -/
def keepAccepted (a : Archive) (d : Disk) (name author source : String) (bytes : List UInt8) :
    Except FileError String × Disk :=
  let base := Path.join a.directory (stem name author)
  let (d, failure) := inOrder d
    [(makeDirectories · a.directory),
      (write · (base ++ ".src") (acceptedText author source).toUTF8),
      (write · (base ++ ".bin") ⟨bytes.toArray⟩)]
  (failure.elim (.ok (base ++ ".src")) .error, d)

/-- Keeps a refused program. Tells the path of its source. -/
def keepRefused (a : Archive) (d : Disk) (name author source reason : String) :
    Except FileError String × Disk :=
  let path := Path.join a.refusedDirectory (stem name author ++ ".src")
  let (d, failure) := inOrder d
    [(makeDirectories · a.refusedDirectory),
      (write · path (refusedText author source reason).toUTF8)]
  (failure.elim (.ok path) .error, d)

def load (d : Disk) (path : String) : Except Source.AssemblyError (List Word) :=
  match d.readBytes path with
  | .error fault => .error (.unreadable path fault.message)
  | .ok content => Source.disassembleBytes content.data.toList

end Archive

end CoreArena
