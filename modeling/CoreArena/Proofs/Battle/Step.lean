import CoreArena.Battle.Basic

/-! # Histories of a battle

A host installs programs, lets them play, takes them out and changes cells, in any order. A history
is a list of such steps; `after` is the battle at its end, `history` what was reported and `replies`
all that the host was told, step by step. -/

namespace CoreArena.Battle

/-- Something that a host does to a battle. -/
inductive Step where
  | install (p : Program) (address : Nat)
  | advance
  | kill (index : Nat)
  | killById (id : Nat)
  | poke (address : Nat) (w : Word)
  deriving DecidableEq

/-- The battle after a step. A program that is refused changes nothing. -/
def next (b : Battle) : Step → Battle
  | .install p address => (b.install p address).toOption.getD b
  | .advance => b.advance.battle
  | .kill index => (b.kill index).battle
  | .killById id => (b.killById id).battle
  | .poke address w => b.poke address w

/-- What a step reports. -/
def reports (b : Battle) : Step → List Event
  | .advance => b.advance.events
  | .kill index => (b.kill index).events
  | .killById id => (b.killById id).events
  | .install .. | .poke .. => []

/-- The battle after a list of steps. -/
def after (b : Battle) : List Step → Battle
  | [] => b
  | s :: steps => (b.next s).after steps

/-- All that a list of steps reports, in order. -/
def history (b : Battle) : List Step → List Event
  | [] => []
  | s :: steps => b.reports s ++ (b.next s).history steps

/-- What an operation gives back to the host. -/
inductive Answer where
  | installed (refusal : Option InstallError)
  | advanced (outcome : Option Outcome)
  | killed (id : Option Nat)
  | poked
  deriving DecidableEq

def answer (b : Battle) : Step → Answer
  | .install p address =>
    match b.install p address with
    | .ok _ => .installed none
    | .error refusal => .installed (some refusal)
  | .advance => .advanced b.advance.result
  | .kill index => .killed (b.kill index).result
  | .killById id => .killed (b.killById id).result
  | .poke .. => .poked

/-- All that the host is told in a step. -/
structure Reply where
  answer : Answer
  events : List Event
  deriving DecidableEq

/-- What the host is told in each of a list of steps. -/
def replies (b : Battle) : List Step → List Reply
  | [] => []
  | s :: steps => ⟨b.answer s, b.reports s⟩ :: (b.next s).replies steps

/-- A program is refused and nothing changes, or it is installed. -/
theorem next_install (b : Battle) (p : Program) (address : Nat) :
    b.next (.install p address) = b ∨ b.install p address = .ok (b.next (.install p address)) := by
  rw [next]
  cases b.install p address with
  | error e => exact .inl rfl
  | ok c => exact .inr rfl

@[simp] theorem after_nil (b : Battle) : b.after [] = b := rfl

@[simp] theorem after_cons (b : Battle) (s : Step) (steps : List Step) :
    b.after (s :: steps) = (b.next s).after steps := rfl

@[simp] theorem history_nil (b : Battle) : b.history [] = [] := rfl

@[simp] theorem history_cons (b : Battle) (s : Step) (steps : List Step) :
    b.history (s :: steps) = b.reports s ++ (b.next s).history steps := rfl

theorem after_append (b : Battle) (steps more : List Step) :
    b.after (steps ++ more) = (b.after steps).after more := by
  induction steps generalizing b with
  | nil => rfl
  | cons s steps ih => exact ih (b.next s)

theorem replies_append (b : Battle) (steps more : List Step) :
    b.replies (steps ++ more) = b.replies steps ++ (b.after steps).replies more := by
  induction steps generalizing b with
  | nil => rfl
  | cons s steps ih => exact congrArg (List.cons _) (ih (b.next s))

/-- What every step keeps, every history keeps. -/
theorem after_induction {P : Battle → Prop} (hnext : ∀ b s, P b → P (b.next s)) {b : Battle}
    (hb : P b) (steps : List Step) : P (b.after steps) := by
  induction steps generalizing b with
  | nil => exact hb
  | cons s steps ih => exact ih (hnext b s hb)

/-- A program of one instruction that does nothing. -/
def idler (id : Nat) : Program :=
  ⟨id, "idler", [Instruction.noop.encode]⟩

end CoreArena.Battle
