import CoreArena.Proofs.Battle.Semantics
import CoreArena.Proofs.Battle.Twin

/-! # Limits only kill

Until somebody dies of a limit, a battle with limits cannot be told from one without:
`unlimited_after_start`. -/

namespace CoreArena

namespace Symmetry

variable {size : Nat}

@[simp] theorem warrior_identity : (identity size).warrior = id := rfl

@[simp] theorem group_identity : (identity size).group = id := by
  funext g
  exact congrArg (PointerGroup.mk g.id · g.next) (List.map_id g.pointers)

@[simp] theorem event_identity : (identity size).event = id := by
  funext e
  cases e with
  | killed victim killer reason place => cases place <;> rfl
  | read | written | cycle | foreign => rfl

@[simp] theorem answer_identity : (identity size).answer = id := by
  funext a
  cases a with
  | installed refusal => rcases refusal with _ | ⟨_ | _ | _ | _⟩ <;> rfl
  | advanced outcome => rcases outcome with _ | ⟨_ | _⟩ | _ <;> rfl
  | killed id => cases id <;> rfl
  | poked => rfl

@[simp] theorem reply_identity : (identity size).reply = id := by
  funext r
  simp [reply]

theorem moves_identity (address : Nat) : (identity size).Moves address address := by
  intro a a' ha ha'
  unfold Arena.locate Arena.wrap
  rw [ha, ha']
  rfl

end Symmetry

namespace Battle

/-- Where everything stays as it is, every step does the same as itself. -/
theorem Step.moved_self (size : Nat) (s : Step) :
    s.Moved (Symmetry.identity size).toRenaming (Symmetry.identity size).Moves s := by
  cases s with
  | install p address => exact .install p (Symmetry.moves_identity address)
  | advance => exact .advance
  | kill index => exact .kill index
  | killById id => exact .killById id
  | poke address w => exact .poke w (Symmetry.moves_identity address)

/-- As long as nobody has died of a limit, a battle without limits has told the same in every step,
and its cells, programs, pointers and turn are the same. -/
theorem unlimited_after_start (r : Rules) (steps : List Step)
    (hlimits : ((start r).history steps).any Event.isLimitKill = false) :
    (start r.unlimited).replies steps = (start r).replies steps ∧
      ((start r.unlimited).after steps).turn = ((start r).after steps).turn ∧
      ((start r.unlimited).after steps).warriors = ((start r).after steps).warriors ∧
      ((start r.unlimited).after steps).groups = ((start r).after steps).groups ∧
      ∀ i, ((start r.unlimited).after steps).arena.cell i =
        ((start r).after steps).arena.cell i := by
  have hsteps := List.forall₂_same.mpr fun s (_ : s ∈ steps) => s.moved_self (max 1 r.size)
  have htwin := twin_start r (Symmetry.identity _) true
  rcases htwin.after (invariant_start r) hsteps with ⟨-, hkill⟩ | ⟨htwin, hreplies⟩
  · rw [hlimits] at hkill
    cases hkill
  · refine ⟨by simpa using hreplies, htwin.turn_eq, by simpa using htwin.warriors_eq,
      by simpa using htwin.groups_eq, fun i => ?_⟩
    by_cases hi : i < max 1 r.size
    · exact htwin.arena.cell_eq i hi
    · have hbeyond := Nat.le_of_not_lt hi
      exact (Arena.cell_of_size_le (htwin.arena.size_eq' ▸ hbeyond)).trans
        (Arena.cell_of_size_le (htwin.arena.size_eq ▸ hbeyond)).symm

theorem unlimited_after_start_adder :
    ((start { columnSize := 1, columnCount := 4 }).after
        [.install adder 0, .advance]).arena.cell 2 = ⟨6, 1, 1, 1⟩ := by
  obtain ⟨-, -, -, -, hcells⟩ := unlimited_after_start
    { columnSize := 1, columnCount := 4, maxWrites := 1, maxReads := 2 }
    [.install adder 0, .advance] (by decide +kernel)
  exact (hcells 2).trans (by decide +kernel)

end Battle

end CoreArena
