import CoreArena.Source.Phrase
import CoreArena.Instruction.Operand

/-! What can be wrong with a line of a program text, and with a program as a whole. -/

namespace CoreArena.Source

/-- The most statements a program may hold, blank lines aside. -/
def maxStatements : Nat := 48

inductive Problem where
  | unknownStatement (text : String)
  | missingArgument (keyword : String)
  | missingSecondArgument (keyword link : String)
  | invalidSecondArgument (keyword text link : String)
  | notAnInteger (text : String)
  | valueOutOfRange (text : String)
  | tooManyReferences (text : String)
  | referenceNotAllowed (keyword : String)
  | trailingText (text : String)
  | programTooLong
  | misplacedDescription
  | emptyDescription
  deriving DecidableEq, Repr

namespace Problem

/-- A soft problem is a statement that merely stops too early. -/
def isSoft : Problem → Bool
  | missingArgument _ | missingSecondArgument _ _ => true
  | _ => false

def message : Problem → String
  | unknownStatement text =>
    s!"unknown statement `{text}`, expected one of: {expectedKeywords}"
  | missingArgument keyword => s!"`{keyword}` expects an argument"
  | missingSecondArgument keyword link =>
    s!"`{keyword}` expects a second argument, e.g. `{keyword} 1 {link} 2`"
  | invalidSecondArgument keyword text link =>
    s!"invalid second argument `{text}` for `{keyword}`, e.g. `{keyword} 1 {link} 2`"
  | notAnInteger text => s!"`{text}` is not an integer"
  | valueOutOfRange text => s!"`{text}` does not fit in a signed 12-bit operand [-2048, 2047]"
  | tooManyReferences text =>
    s!"too many references in `{text}` (at most {Operand.maxDepth} levels)"
  | referenceNotAllowed keyword => s!"`{keyword}` takes a plain number, not a reference"
  | trailingText text => s!"unexpected text `{text}` after the statement"
  | programTooLong => s!"program is longer than {maxStatements} instructions"
  | misplacedDescription =>
    "self-description lines (`@`) must come before the first instruction"
  | emptyDescription => "self-description line has no key"

end Problem

inductive AssemblyError where
  | badLine (line : Nat) (problem : Problem)
  | misaligned (length : Nat)
  | unknownOperation (number : Nat)
  | unreadable (path reason : String)
  deriving DecidableEq, Repr

def AssemblyError.message : AssemblyError → String
  | badLine line problem => s!"line {line}: {problem.message}"
  | misaligned length => s!"bytecode length {length} is not a multiple of 4"
  | unknownOperation number => s!"invalid opcode: {number}"
  | unreadable path reason => s!"io error on {path}: {reason}"

end CoreArena.Source
