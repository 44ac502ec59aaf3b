import CoreArena.Instruction.Operation
import CoreArena.Instruction.Operand

/-! Machine words and the instructions they hold.

From the top, a word holds the operation number (4 bits), the depth (2) and value (12) of the
first operand, and the depth (2) and value (12) of the second. Values are signed. Words that hold
a small number are `data`: the payload fills the whole word, so a cell set to `-5` reads `-5`. -/

namespace CoreArena

abbrev Word := Int32

/-- The low `bits` bits of a number, read as a signed number of that width. -/
def signExtend (bits : Nat) (n : Int) : Int :=
  Int.bmod n (1 <<< bits)

structure Instruction where
  operation : Operation
  first : Option Operand
  second : Option Operand
  deriving DecidableEq, Repr, Inhabited

namespace Operand

/-- The fourteen bits of an operand field: the depth above the value, each cut to its width. -/
def field (o : Operand) : Int :=
  o.depth % 4 * 4096 + o.value % 4096

/-- The operand in the low fourteen bits of a number. -/
def ofField (n : Int) : Operand :=
  ⟨(n / 4096 % 4).toNat, signExtend 12 n⟩

end Operand

/-- The parts of a word, whatever its operation makes of them. -/
structure Fields where
  number : Nat
  first : Operand
  second : Operand
  deriving DecidableEq, Repr

namespace Fields

/-- Cuts a word into its parts. -/
def ofWord (w : Word) : Fields where
  number := (w.toInt / 0x10000000 % 16).toNat
  first := .ofField (w.toInt / 0x4000)
  second := .ofField w.toInt

end Fields

namespace Instruction

/-- A stored number. The payload is the second operand. -/
def data (value : Int) : Instruction :=
  ⟨.data, some .zero, some (.direct value)⟩

def noop : Instruction :=
  ⟨.noop, none, none⟩

def encode (i : Instruction) : Word :=
  if i.operation = .data then
    .ofInt (signExtend 12 (i.second.elim 0 Operand.value))
  else
    .ofInt (i.operation.number * 0x10000000 + i.first.elim 0 Operand.field * 0x4000
      + i.second.elim 0 Operand.field)

/-- The instruction of a word. Every word has one: words in the range of an operand are `data`,
and operands beyond the arity of the operation are left out. -/
def decode (w : Word) : Instruction :=
  if Operand.InRange w.toInt then
    data w.toInt
  else
    let fields := Fields.ofWord w
    let operation := Operation.ofNibble fields.number
    match operation, operation.arity with
    | .data, _ => ⟨operation, some .zero, some fields.second⟩
    | _, 0 => ⟨operation, none, none⟩
    | _, 1 => ⟨operation, some fields.first, none⟩
    | _, _ => ⟨operation, some fields.first, some fields.second⟩

def firstOrZero (i : Instruction) : Operand :=
  i.first.getD .zero

def secondOrZero (i : Instruction) : Operand :=
  i.second.getD .zero

end Instruction

end CoreArena
