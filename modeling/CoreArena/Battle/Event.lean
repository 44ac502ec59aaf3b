import CoreArena.Log

/-! What happens in a battle, as observers are told. -/

namespace CoreArena

/-- Why a pointer ended. -/
inductive Reason where
  /-- It fetched from a dead cell or wrote to one. -/
  | badInteraction
  /-- It looked an operand up in a dead cell. -/
  | badRead
  /-- It executed data or an unassigned operation. -/
  | notExecutable
  /-- The host took the program out. -/
  | forced
  deriving DecidableEq, Repr

def Reason.text : Reason → String
  | badInteraction => "interaction with bad sector"
  | badRead => "bad sector read"
  | notExecutable => "tried to execute non-executable instruction"
  | forced => "forced termination"

inductive Event where
  /-- A program lost its last pointer, by executing at a place or by force. The killer is zero when
  nobody else is to blame. -/
  | killed (victim killer : Nat) (reason : Reason) (place : Option Nat)
  | read (program address : Nat)
  | written (program address : Nat)
  /-- An instruction was fetched. -/
  | cycle (program address : Nat)
  /-- A program executed an instruction that another one wrote. -/
  | foreign (executor author : Nat)
  deriving DecidableEq, Repr

namespace Event

def isKill : Event → Bool
  | killed .. => true
  | _ => false

def victim? : Event → Option Nat
  | killed victim .. => some victim
  | _ => none

/-- Those who lost their last pointer, in order. -/
def victims (events : List Event) : List Nat :=
  events.filterMap victim?

@[simp] theorem victims_nil : victims [] = [] := rfl

@[simp] theorem victims_append (events more : List Event) :
    victims (events ++ more) = victims events ++ victims more :=
  List.filterMap_append

def isRead : Event → Bool
  | read .. => true
  | _ => false

def isWritten : Event → Bool
  | written .. => true
  | _ => false

def isCycle : Event → Bool
  | cycle .. => true
  | _ => false

def isForeign : Event → Bool
  | foreign .. => true
  | _ => false

def entry? : Event → Option Log.Entry
  | killed victim _ reason (some place) =>
    some (Log.debug s!"program {victim} died at {place} ({reason.text})")
  | killed victim _ _ none => some (Log.debug s!"program {victim} terminated")
  | _ => none

end Event

end CoreArena
