import CoreArena.Proofs.Battle.Semantics
import CoreArena.Proofs.Battle.Twin
import Mathlib.Logic.Equiv.Basic

/-! # Position and identity do not matter

An arena turned by some cells, with programs of other numbers, is a battle that cannot be told from
the first one, up to the turn and the numbers: `rotation_after_start`. -/

namespace CoreArena

theorem Arena.locate_eq_mod {a : Arena} {address : Nat}
    (h : address < max a.size (UInt64.size / 2)) : a.locate address = address % a.size := by
  unfold locate
  by_cases hlt : address < a.size
  · rw [if_pos hlt, Nat.mod_eq_of_lt hlt]
  · have hbmod : Int.bmod address UInt64.size = address := by
      unfold UInt64.size at h ⊢
      apply Int.bmod_eq_of_le <;> omega
    rw [if_neg hlt, hbmod, wrap_natCast]

namespace Battle

/-- Two addresses are so many cells apart on a ring. Those beyond the ring are small enough not to
count back from zero. -/
structure Apart (size shift address address' : Nat) : Prop where
  address_lt : address < max size (UInt64.size / 2)
  address_lt' : address' < max size (UInt64.size / 2)
  mod_eq : address' % size = (address + shift) % size

namespace Apart

variable {size shift address address' : Nat}

theorem mod (h : address < size) (shift : Nat) :
    Apart size shift address ((address + shift) % size) where
  address_lt := by omega
  address_lt' := by
    have hlt := Nat.mod_lt (address + shift) (Nat.zero_lt_of_lt h)
    omega
  mod_eq := Nat.mod_mod ..

theorem moves (h : Apart size shift address address') (f : Renaming) :
    (f.rotation size shift).Moves address address' := by
  intro a a' ha ha'
  calc a'.locate address' = address' % size := by
        rw [Arena.locate_eq_mod (by rw [ha']; exact h.address_lt'), ha']
    _ = (address % size + shift) % size := by rw [h.mod_eq, Nat.mod_add_mod]
    _ = (a.locate address + shift) % size := by
        rw [Arena.locate_eq_mod (by rw [ha]; exact h.address_lt), ha]

end Apart

/-- Whatever is done to a battle, the same done to programs of other numbers on a ring turned by
some cells comes to the same: the host is told the same in every step, the same programs stand at
the same places and have the turn, and every cell is the image of the one so many cells before. -/
theorem rotation_after_start (r : Rules) (f : Renaming) (shift : Nat) {steps steps' : List Step}
    (hsteps : List.Forall₂ (Step.Moved f (Apart (max 1 r.size) shift)) steps steps') :
    (start r).replies steps' =
        ((start r).replies steps).map (f.rotation (max 1 r.size) shift).reply ∧
      ((start r).after steps').turn = ((start r).after steps).turn ∧
      ((start r).after steps').warriors =
        ((start r).after steps).warriors.map (f.rotation (max 1 r.size) shift).warrior ∧
      ((start r).after steps').groups =
        ((start r).after steps).groups.map (f.rotation (max 1 r.size) shift).group ∧
      ∀ i < max 1 r.size, ((start r).after steps').arena.cell ((i + shift) % max 1 r.size) =
        { ((start r).after steps).arena.cell i with
          owner := f.rename (((start r).after steps).arena.cell i).owner } := by
  have hmoved := hsteps.imp fun _ _ h => h.imp fun _ _ hapart => hapart.moves f
  have htwin := twin_start r (f.rotation (max 1 r.size) shift) false
  rcases htwin.after (invariant_start r) hmoved with ⟨hlift, -⟩ | ⟨htwin, hreplies⟩
  · cases hlift
  · exact ⟨hreplies, htwin.turn_eq, htwin.warriors_eq, htwin.groups_eq, htwin.arena.cell_eq⟩

/-- The programs one and two with each other's number. -/
def swapped : Renaming :=
  ⟨Equiv.swap 1 2, (Equiv.swap 1 2).injective, rfl⟩

/-- The programs change numbers and stand three cells further: the second one's sum is in cell 0. -/
theorem rotation_after_start_adder :
    ((start { columnSize := 1, columnCount := 5 }).after
        [.install { adder with id := 2 } 3, .install (idler 1) 2, .advance]).arena.cell 0 =
      ⟨6, 2, 1, 1⟩ := by
  have hsteps : List.Forall₂ (Step.Moved swapped (Apart 5 3))
      [.install adder 0, .install (idler 2) 4, .advance]
      [.install { adder with id := 2 } 3, .install (idler 1) 2, .advance] :=
    .cons (.install adder (.mod (by decide) 3))
      (.cons (.install (idler 2) (.mod (by decide) 3)) (.cons .advance .nil))
  obtain ⟨-, -, -, -, hcells⟩ :=
    rotation_after_start { columnSize := 1, columnCount := 5 } swapped 3 hsteps
  exact (hcells 2 (by decide)).trans (by decide +kernel)

end Battle

end CoreArena
