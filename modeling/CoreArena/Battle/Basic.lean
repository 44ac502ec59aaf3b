import CoreArena.Battle.Execution
import CoreArena.Battle.PointerGroup

/-! A battle: programs that take turns in one arena.

Programs play one instruction each in the order of their installation. In a tournament the dead
stay in their place and the battle is decided when one program is left; in a persistent battle the
dead are taken out and nothing is ever decided. -/

namespace CoreArena

/-- A program, with the number that cells know it by. -/
structure Program where
  id : Nat
  name : String
  code : List Word
  deriving DecidableEq, Repr

/-- A run of cells on a ring. -/
structure Stretch where
  start : Nat
  length : Nat
  deriving DecidableEq, Repr

structure Warrior where
  program : Program
  /-- The cells that it was copied to. -/
  placement : Stretch
  deriving DecidableEq, Repr

def Warrior.id (w : Warrior) : Nat := w.program.id

inductive InstallError where
  | emptyProgram
  | programTooLarge (length capacity : Nat)
  | reservedId
  | duplicateId (id : Nat)
  deriving DecidableEq, Repr

def InstallError.message : InstallError → String
  | emptyProgram => "program is empty"
  | programTooLarge length capacity =>
    s!"program of {length} cells does not fit in an arena of {capacity} cells"
  | reservedId => "program id 0 is reserved for unowned cells"
  | duplicateId id => s!"program id {id} is already running"

structure Survivor where
  /-- The place of the program among all, from zero. -/
  index : Nat
  id : Nat
  name : String
  deriving DecidableEq, Repr

inductive Outcome where
  /-- It was decided just now. Without a survivor, everybody is dead. -/
  | decided (survivor : Option Survivor)
  /-- There is nothing to execute. -/
  | nothingToRun
  deriving DecidableEq, Repr

/-- An arena and the programs in it. -/
structure Battle where
  rules : Rules
  arena : Arena
  /-- The programs, in the order of installation. -/
  warriors : List Warrior
  /-- The pointers of the programs, in the same order. -/
  groups : List PointerGroup
  /-- The place of the program that plays next. -/
  turn : Nat
  deriving Repr

/-- A battle after an operation, with the reports of the operation. -/
structure Aftermath (α : Type) where
  result : α
  battle : Battle
  events : List Event

namespace Battle

def start (r : Rules) : Battle :=
  ⟨r, .ofRules r, [], [], 0⟩

def indexOf? (b : Battle) (id : Nat) : Option Nat :=
  b.warriors.findIdx? (·.id == id)

def livesAt (b : Battle) (index : Nat) : Bool :=
  b.groups[index]?.any fun g => !g.isDead

def living (b : Battle) : List Nat :=
  (List.range b.groups.length).filter b.livesAt

def isOver (b : Battle) : Bool :=
  b.groups.all PointerGroup.isDead

/-- The cells that are about to be executed, in the order of the programs. -/
def pointers (b : Battle) : List Nat :=
  b.groups.flatMap PointerGroup.pointers

/-! ### Installation -/

/-- The owner of an installed word: nobody for one that does nothing. -/
def installedOwner (id : Nat) (w : Word) : Nat :=
  if (Instruction.decode w).operation = .noop then 0 else id

/-- Puts words into consecutive cells of the ring. -/
def placeCode (a : Arena) (id : Nat) (start : Nat) (code : List Word) : Arena :=
  ((addressRange start code.length a.size).zip code).foldl
    (fun a (i, w) => a.place i w (installedOwner id w)) a

/-- Installs a program at a 64-bit address. Nothing is touched unless it can be installed. -/
def install (b : Battle) (p : Program) (address : Nat) : Except InstallError Battle :=
  if p.code = [] then .error .emptyProgram
  else if p.code.length > b.arena.size then
    .error (.programTooLarge p.code.length b.arena.size)
  else if p.id = 0 then .error .reservedId
  else if (b.indexOf? p.id).isSome then .error (.duplicateId p.id)
  else
    let start := b.arena.locate address
    .ok { b with
      arena := placeCode b.arena p.id start p.code
      warriors := b.warriors ++ [⟨p, start, p.code.length⟩]
      groups := b.groups ++ [.start p.id start] }

/-! ### Turns -/

/-- The first place after the given one, around the ring of programs, at which a program lives. -/
def nextLiving (b : Battle) (index : Nat) : Nat :=
  let n := b.groups.length
  (((List.range n).map fun k => (index + 1 + k) % n).find? b.livesAt).getD 0

def isTurnLost (b : Battle) : Bool :=
  b.groups.length ≤ b.turn

/-- Gives a turn that is lost to the first program. -/
def mendTurn (b : Battle) : Battle :=
  { b with turn := if b.isTurnLost then 0 else b.turn }

def skipDead (b : Battle) : Battle :=
  { b with turn := if b.livesAt b.turn then b.turn else b.nextLiving b.turn }

/-- What the operator is told before an advance: that it finds the turn lost. -/
def warning? (b : Battle) : Option Log.Entry :=
  if !b.isOver && b.isTurnLost then
    some (Log.warn
      s!"turn index {b.turn} out of bounds for {b.groups.length} programs, starting over")
  else none

/-- The number of the program whose turn it is, and the cell that it executes next. -/
def player? (b : Battle) : Option (Nat × Nat) :=
  b.groups[b.turn]?.bind fun g => g.current?.map (g.id, ·)

/-- Who executes in an advance, and where. -/
def executing? (b : Battle) : Option (Nat × Nat) :=
  if b.isOver then none else b.mendTurn.skipDead.player?

/-! ### Playing -/

def removeAt (b : Battle) (index : Nat) (id : Nat) : Battle :=
  { b with
    arena := if b.rules.clearOwnership then b.arena.clearOwner id else b.arena
    warriors := b.warriors.eraseIdx index
    groups := b.groups.eraseIdx index }

/-- The turn, unless no program has that place any more. -/
def keepTurn (b : Battle) : Battle :=
  { b with turn := if b.turn < b.groups.length then b.turn else 0 }

/-- Hands the turn to the next living program after a place. -/
def passTurn (b : Battle) (index : Nat) : Battle :=
  { b with turn := b.nextLiving index }

def changeGroup (b : Battle) (index : Nat) (f : PointerGroup → PointerGroup) : Battle :=
  { b with groups := b.groups.modify index f }

/-- The outcome when the given places are those of the living. -/
def outcomeAmong? (b : Battle) : List Nat → Option Outcome
  | [] => some (.decided none)
  | [index] =>
    some (.decided (b.warriors[index]?.map fun w => ⟨index, w.program.id, w.program.name⟩))
  | _ => none

/-- Buries the program at a place, which has just lost its last pointer at a position. The turn is
at its place. -/
def bury (b : Battle) (index id position : Nat) (reason : Reason) : Aftermath (Option Outcome) :=
  let owner := (b.arena.cell position).owner
  let killer := if owner = id then 0 else owner
  let events := [Event.killed id killer reason (some position)]
  if b.rules.runForever then
    ⟨none, (b.removeAt index id).keepTurn, events⟩
  else
    match b.outcomeAmong? b.living with
    | some outcome => ⟨some outcome, b, events⟩
    | none => ⟨none, b.passTurn index, events⟩

/-- Lets the program whose turn it is execute one instruction at a position. -/
def play (b : Battle) (id position : Nat) : Aftermath (Option Outcome) :=
  let index := b.turn
  let (result, track) := (Act.execute b.rules id position).runIn b.arena
  let b := { b with arena := track.arena }
  match result with
  | .ok next => ⟨none, (b.changeGroup index (·.moveCurrent next)).passTurn index, track.events⟩
  | .error reason =>
    let b := b.changeGroup index PointerGroup.endCurrent
    if b.livesAt index then ⟨none, b.passTurn index, track.events⟩
    else
      let after := b.bury index id position reason
      { after with events := track.events ++ after.events }

/-- Lets the next living program execute one instruction. -/
def advance (b : Battle) : Aftermath (Option Outcome) :=
  if b.isOver then ⟨if b.rules.runForever then none else some .nothingToRun, b, []⟩
  else
    let b := b.mendTurn.skipDead
    match b.player? with
    | none => ⟨none, b, []⟩
    | some (id, position) => b.play id position

/-! ### Taking programs out -/

/-- Takes out the program at a place, whatever it was doing. -/
def kill (b : Battle) (index : Nat) : Aftermath (Option Nat) :=
  match b.groups[index]? with
  | none => ⟨none, b, []⟩
  | some g =>
    let b := b.removeAt index g.id
    let b := { b with turn := if index < b.turn then b.turn - 1 else b.turn }
    ⟨some g.id, b.keepTurn, [.killed g.id 0 .forced none]⟩

def killById (b : Battle) (id : Nat) : Aftermath (Option Nat) :=
  match b.indexOf? id with
  | none => ⟨none, b, []⟩
  | some index => b.kill index

/-! ### Looking and seeding -/

/-- Sets the cell at a 64-bit address. -/
def poke (b : Battle) (address : Nat) (w : Word) : Battle :=
  { b with arena := b.arena.poke (b.arena.locate address) w }

/-- Advances until something is decided, at most so many times. Tells how many times, and collects
all reports. -/
def run (b : Battle) : Nat → Nat × Aftermath (Option Outcome)
  | 0 => (0, ⟨none, b, []⟩)
  | steps + 1 =>
    let first := b.advance
    match first.result with
    | some outcome => (1, ⟨some outcome, first.battle, first.events⟩)
    | none =>
      let (n, rest) := first.battle.run steps
      (n + 1, { rest with events := first.events ++ rest.events })

end Battle

end CoreArena
