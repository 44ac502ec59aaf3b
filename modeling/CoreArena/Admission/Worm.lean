import CoreArena.Instruction.Bytecode

/-! Recognising programs that only copy themselves forward.

Such a program fills a shared arena within seconds. It is told from the operand fields of its
words alone; nothing is executed. -/

namespace CoreArena.Admission

inductive Verdict where
  /-- The bytes are not a whole number of words. -/
  | malformed
  /-- An instruction copies its own cell to just past the end of the program. -/
  | simpleWorm
  /-- An instruction copies its own cell to the next one. -/
  | wormFragment
  deriving DecidableEq, Repr

def Verdict.text : Verdict → String
  | malformed => "looks wrong"
  | simpleWorm => "is simple worm"
  | wormFragment => "is worm fragment"

/-- Whether a word, read as fields, stores the cell it is in at the given distance. -/
def copiesItselfTo (w : Word) (distance : Int) : Bool :=
  let fields := Fields.ofWord w
  let takesItself := match Operation.ofNibble fields.number with
    | .copy | .move => fields.first == .zero
    | .write => fields.first == ⟨1, 0⟩
    | _ => false
  takesItself && fields.second == .direct distance

/-- Whether some word copies itself to just past the end of the program. -/
def isSimpleWorm (ws : List Word) : Bool :=
  ws.zipIdx.any fun (w, i) => copiesItselfTo w ((ws.length : Int) - i)

/-- Whether some word copies itself to the next cell. -/
def isWormFragment (ws : List Word) : Bool :=
  ws.any (copiesItselfTo · 1)

def verdict? (bytes : List UInt8) : Option Verdict :=
  match Bytecode.decode? bytes with
  | none => some .malformed
  | some ws =>
    if isSimpleWorm ws then some .simpleWorm
    else if isWormFragment ws then some .wormFragment
    else none

end CoreArena.Admission
