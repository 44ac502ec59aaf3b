import CoreArena.Source.Reading
import CoreArena.Instruction.Bytecode

/-! From a program text to words. Every line that takes a cell becomes one word; one problem, soft
or not, is enough to get none. -/

namespace CoreArena.Source

/-- What a sound program text comes to. -/
structure Assembled where
  words : List Word
  descriptions : List (String × String)
  deriving Repr

namespace Assembled

def bytecode (a : Assembled) : List UInt8 :=
  Bytecode.encode a.words

/-- The value that was last given to a key. -/
def describe? (a : Assembled) (key : String) : Option String :=
  a.descriptions.reverse.lookup key

def name? (a : Assembled) : Option String :=
  a.describe? "name"

end Assembled

/-- The words of a reading, or its first problem. -/
def Reading.assemble (r : Reading) : Except AssemblyError Assembled :=
  match r.problems with
  | (line, problem) :: _ => .error (.badLine line problem)
  | [] => .ok ⟨r.statements.map fun s => s.instruction.encode, r.descriptions⟩

def assemble (source : String) : Except AssemblyError Assembled :=
  (read source).assemble

def disassembleBytes (bytes : List UInt8) : Except AssemblyError (List Word) :=
  match Bytecode.decode? bytes with
  | some words => .ok words
  | none => .error (.misaligned bytes.length)

end CoreArena.Source
