/-! The pointers of one program.

A program is given one pointer. Pointers of a group take turns, and the program is dead once none
is left. -/

namespace CoreArena

structure PointerGroup where
  /-- The number of the program. -/
  id : Nat
  /-- The cells to execute next. -/
  pointers : List Nat
  /-- The place of the pointer whose turn it is. -/
  next : Nat
  deriving DecidableEq, Repr

namespace PointerGroup

def start (id address : Nat) : PointerGroup :=
  ⟨id, [address], 0⟩

def isDead (g : PointerGroup) : Bool :=
  g.pointers.isEmpty

def current? (g : PointerGroup) : Option Nat :=
  g.pointers[g.next]?

/-- Moves the pointer whose turn it is, and hands the turn on. -/
def moveCurrent (g : PointerGroup) (address : Nat) : PointerGroup :=
  if g.next < g.pointers.length then
    { g with
      pointers := g.pointers.set g.next address
      next := (g.next + 1) % g.pointers.length }
  else g

def endCurrent (g : PointerGroup) : PointerGroup :=
  let pointers := g.pointers.eraseIdx g.next
  { g with pointers, next := if g.next < pointers.length then g.next else 0 }

/-! ### A single pointer -/

/-- A group with one pointer at most, whose turn it then is. -/
def IsSingle (g : PointerGroup) : Prop :=
  g.pointers.length ≤ 1 ∧ g.next = 0

theorem isSingle_start (id address : Nat) : (start id address).IsSingle :=
  ⟨Nat.le_refl 1, rfl⟩

/-- The only form that such a group has while its program lives. -/
theorem IsSingle.eq_of_isDead_eq_false {g : PointerGroup} (h : g.IsSingle)
    (hlive : g.isDead = false) : ∃ position, g = ⟨g.id, [position], 0⟩ := by
  obtain ⟨id, pointers, next⟩ := g
  obtain ⟨hlength, rfl⟩ := h
  match pointers with
  | [] => cases hlive
  | [position] => exact ⟨position, rfl⟩
  | _ :: _ :: _ =>
    simp only [List.length_cons] at hlength
    omega

@[simp] theorem moveCurrent_single (id position address : Nat) :
    moveCurrent ⟨id, [position], 0⟩ address = ⟨id, [address], 0⟩ := by
  simp [moveCurrent]

@[simp] theorem endCurrent_single (id position : Nat) :
    endCurrent ⟨id, [position], 0⟩ = ⟨id, [], 0⟩ := rfl

end PointerGroup

end CoreArena
