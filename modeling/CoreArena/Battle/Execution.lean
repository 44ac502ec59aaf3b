import CoreArena.Battle.Arena
import CoreArena.Battle.Event

/-! Executing one instruction.

An execution reads and writes cells in a fixed order and reports each access. It either tells
where the pointer goes next or ends the pointer; what was read and written before the end stays. -/

namespace CoreArena

/-- The arena during an execution and what was reported so far. -/
structure Track where
  arena : Arena
  events : List Event

abbrev Act (α : Type) := ExceptT Reason (StateM Track) α

/-- Who executes, where, and who is credited with writes. -/
structure Executor where
  program : Nat
  position : Nat
  writer : Nat

namespace Act

def report (e : Event) : Act Unit :=
  modify fun t => { t with events := t.events ++ [e] }

/-- Reads a cell. A dead one ends the pointer for the given reason. -/
def read (program address : Nat) (reason : Reason) : Act Word := do
  match (← get).arena.read? address with
  | none => throw reason
  | some (w, arena) =>
    modify fun t => { t with arena := arena }
    report (.read program address)
    return w

def write (x : Executor) (address : Nat) (w : Word) : Act Unit := do
  match (← get).arena.write? address w x.writer with
  | none => throw .badInteraction
  | some arena =>
    modify fun t => { t with arena := arena }
    report (.written x.program address)

/-- The cell at a distance from the instruction. -/
def reach (x : Executor) (distance : Int) : Act Nat := do
  return (← get).arena.offset x.position distance

/-- Looks a value up so many times, each time in the cell at that distance. -/
def follow (x : Executor) : Nat → Word → Act Word
  | 0, w => return w
  | n + 1, w => do
    let address ← reach x w.toInt
    let w ← read x.program address .badRead
    follow x n w

def resolve (x : Executor) (o : Operand) : Act Word :=
  follow x o.depth (.ofInt o.value)

/-- The cell that an operand leads to. -/
def target (x : Executor) (o : Operand) : Act Nat := do
  let distance ← resolve x o
  reach x distance.toInt

/-- Replaces a cell by the result of an operation on it and the first operand. -/
def combine (x : Executor) (i : Instruction) (f : Word → Word → Word) : Act Nat := do
  let operand ← resolve x i.firstOrZero
  let destination ← target x i.secondOrZero
  let current ← read x.program destination .badRead
  write x destination (f current operand)
  reach x 1

/-- Copies one cell to another; a move clears the first, unless it is the same. -/
def transfer (x : Executor) (i : Instruction) (clears : Bool) : Act Nat := do
  let origin ← target x i.firstOrZero
  let destination ← target x i.secondOrZero
  let w ← read x.program origin .badRead
  write x destination w
  if clears && origin != destination then
    write x origin 0
  reach x 1

/-- Goes on, leaving out the next cell if the operands compare so. -/
def skip (x : Executor) (i : Instruction) (holds : Word → Word → Bool) : Act Nat := do
  let left ← resolve x i.firstOrZero
  let right ← resolve x i.secondOrZero
  reach x (if holds left right then 2 else 1)

/-- Performs an instruction and gives the cell to go on at. -/
def perform (x : Executor) (i : Instruction) : Act Nat :=
  match i.operation with
  | .data | .invalid => throw .notExecutable
  | .noop => reach x 1
  | .jump => target x i.firstOrZero
  | .write => do
    let w ← resolve x i.firstOrZero
    let destination ← target x i.secondOrZero
    write x destination w
    reach x 1
  | .add => combine x i (· + ·)
  | .subtract => combine x i (· - ·)
  | .multiply => combine x i (· * ·)
  | .copy => transfer x i false
  | .move => transfer x i true
  | .skipIfEqual => skip x i (· == ·)
  | .skipIfGreater => skip x i fun l r => decide (r < l)
  | .skipIfLower => skip x i fun l r => decide (l < r)

/-- Who is credited with the writes of an instruction that a program executes. -/
def credited (rules : Rules) (program author : Nat) : Nat :=
  if rules.creditAuthor && author != 0 then author else program

def carryOut (rules : Rules) (program position author : Nat) (w : Word) : Act Nat := do
  if author != 0 && author != program then
    report (.foreign program author)
  report (.cycle program position)
  perform ⟨program, position, credited rules program author⟩ (.decode w)

/-- Fetches the instruction at a position and performs it for a program. -/
def execute (rules : Rules) (program position : Nat) : Act Nat := do
  let w ← read program position .badInteraction
  let author := ((← get).arena.cell position).owner
  carryOut rules program position author w

def runIn (a : Arena) (act : Act Nat) : Except Reason Nat × Track :=
  (act.run.run ⟨a, []⟩ : Id _)

end Act

end CoreArena
