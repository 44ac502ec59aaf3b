/-! Listeners and what they are told.

A listener gets a number that is never given again, and is told from then on what it asked for,
until it leaves. -/

namespace CoreArena

/-- Those who listen to reports of a kind. -/
structure Audience (α : Type) where
  /-- The number of the next listener. -/
  next : Nat
  listeners : List (Nat × (α → Bool))

namespace Audience

variable {α : Type}

def empty : Audience α := ⟨0, []⟩

def join (a : Audience α) (accepts : α → Bool) : Nat × Audience α :=
  (a.next, ⟨a.next + 1, a.listeners ++ [(a.next, accepts)]⟩)

def leave (a : Audience α) (listener : Nat) : Bool × Audience α :=
  (a.listeners.any (·.1 == listener),
    { a with listeners := a.listeners.filter (·.1 != listener) })

/-- Who is told what, report after report and listener after listener. -/
def tell (a : Audience α) (reports : List α) : List (Nat × α) :=
  reports.flatMap fun report =>
    (a.listeners.filter fun l => l.2 report).map fun l => (l.1, report)

end Audience

end CoreArena
