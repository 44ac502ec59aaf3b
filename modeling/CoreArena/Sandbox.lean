import CoreArena.Battle.Basic
import CoreArena.Source.Assembly
import CoreArena.Source.Diagnostic

/-! A small arena for trying out one program alone.

The program starts in the middle of three columns of 32 cells. The sandbox halts when it dies. -/

namespace CoreArena

inductive SandboxError where
  | assembly (cause : Source.AssemblyError)
  | install (cause : InstallError)
  deriving DecidableEq, Repr

def SandboxError.message : SandboxError → String
  | assembly cause => cause.message
  | install cause => cause.message

inductive SandboxState where
  /-- Nothing: the program did not get in. -/
  | invalid (cause : SandboxError)
  | running
  | halted
  deriving DecidableEq, Repr

/-- An arena with one program at most. -/
structure Sandbox where
  battle : Battle
  state : SandboxState
  /-- What is wrong with the program, kept to be shown. -/
  error? : Option SandboxError

namespace Sandbox

def rules : Rules :=
  { Rules.persistent with columnSize := 32, columnCount := 3 }

/-- The cell that the program starts at. -/
def position : Nat :=
  rules.size / 2

def programId : Nat := 1

def start (name source : String) : Sandbox :=
  let battle := Battle.start rules
  let refused (cause : SandboxError) : Sandbox := ⟨battle, .invalid cause, some cause⟩
  match Source.assemble source with
  | .error cause => refused (.assembly cause)
  | .ok assembled =>
    match battle.install ⟨programId, name, assembled.words⟩ position with
    | .error cause => refused (.install cause)
    | .ok battle => ⟨battle, .running, none⟩

/-- Lets the program execute one instruction, if it runs. -/
def advance (s : Sandbox) : Sandbox :=
  match s.state with
  | .running =>
    let battle := s.battle.advance.battle
    { s with battle, state := if battle.warriors.isEmpty then .halted else .running }
  | _ => s

/-- How a cell is dumped: its operation number in the low half of a byte, zero for an unassigned
one, and the low bits of its owner in the high half. -/
def dumpCell (c : Cell) : UInt8 :=
  let operation := (Instruction.decode c.value).operation
  let number := if operation = .invalid then 0 else operation.number
  .ofNat (number + c.owner % 16 * 16)

def dump (s : Sandbox) : List UInt8 :=
  s.battle.arena.cells.toList.map dumpCell

end Sandbox

end CoreArena
