import CoreArena.Proofs.Battle.Order
import CoreArena.Proofs.Battle.Quota
import Mathlib.Algebra.Order.BigOperators.Group.Finset

/-! # A read limit ends every battle

An advance either reads the cell that it executes or takes a life. Where reads are limited there are
only so many of both: `over_after_start`. -/

namespace CoreArena

open Relation

variable {t u : Track}

/-! ## Counting reads -/

/-- A live cell with a limit has not come to the end of its byte. -/
theorem Arena.countUp_reads {a : Arena} {i : Nat} (hlive : a.isDead i = false)
    (hlimit : a.maxReads ≠ 0) : countUp (a.cell i).reads = (a.cell i).reads + 1 := by
  have hlt : ¬ a.maxReads.toNat ≤ (a.cell i).reads := by
    simpa [isUsedUp, hlimit] using (Bool.or_eq_false_iff.mp hlive).2
  have hbyte : a.maxReads.toNat < 256 := a.maxReads.toNat_lt
  unfold countUp
  omega

/-- While reads are limited, no counter of reads ever falls. -/
theorem Touch.reads_le (h : Touch t u) (hlimit : t.arena.maxReads ≠ 0) (i : Nat) :
    (t.arena.cell i).reads ≤ (u.arena.cell i).reads := by
  rcases h.spared_or_used i with hspared | ⟨hlive, ⟨program, rfl⟩ | ⟨program, writer, w, rfl⟩⟩
  · exact Nat.le_of_eq hspared.reads_eq.symm
  · rw [Arena.cell_update]
    split
    · show (t.arena.cell i).reads ≤ countUp (t.arena.cell i).reads
      rw [Arena.countUp_reads hlive hlimit]
      exact Nat.le_succ _
    · exact Nat.le_refl _
  · rw [Arena.cell_update]
    split <;> exact Nat.le_refl _

theorem Changes.reads_le (h : ReflTransGen Change t u) (hlimit : t.arena.maxReads ≠ 0) (i : Nat) :
    (t.arena.cell i).reads ≤ (u.arena.cell i).reads := by
  induction h with
  | refl => exact Nat.le_refl _
  | tail hrun hlast ih =>
      refine ih.trans ?_
      cases hlast with
      | touch h =>
          refine h.reads_le ?_ i
          rwa [(Changes.sameShape hrun).maxReads_eq]
      | setting h => exact Nat.le_of_eq (h.unused (i := i)).reads_eq.symm

namespace Arena

/-- The sum of all counters of reads. -/
def readCount (a : Arena) : Nat :=
  ∑ i ∈ Finset.range a.size, (a.cell i).reads

theorem readCount_le_mul {a : Arena} {limit : Nat} (h : ∀ i < a.size, (a.cell i).reads ≤ limit) :
    a.readCount ≤ a.size * limit := by
  calc a.readCount ≤ ∑ _i ∈ Finset.range a.size, limit :=
        Finset.sum_le_sum fun i hi => h i (Finset.mem_range.mp hi)
    _ = a.size * limit := by rw [Finset.sum_const_nat fun _ _ => rfl, Finset.card_range]

end Arena

theorem Changes.readCount_le (h : ReflTransGen Change t u) (hlimit : t.arena.maxReads ≠ 0) :
    t.arena.readCount ≤ u.arena.readCount := by
  rw [Arena.readCount, Arena.readCount, (Changes.sameShape h).size_eq]
  exact Finset.sum_le_sum fun i _ => Changes.reads_le h hlimit i

namespace Battle

open PointerGroup

variable {b : Battle}

/-! ## Who lives -/

theorem length_order (b : Battle) : b.order.length = b.groups.countP fun g => !g.isDead := by
  rw [order, livingIds, List.length_map, ← List.countP_eq_length_filter]
  exact (List.rotate_perm b.groups b.turn).countP_eq _

theorem isOver_iff_length_order (b : Battle) : b.isOver = true ↔ b.order.length = 0 := by
  rw [isOver_iff, length_order, List.countP_eq_zero]
  simp

theorem length_order_kill (b : Battle) (index : Nat) :
    (b.kill index).battle.order.length ≤ b.order.length := by
  rw [length_order, length_order]
  cases hget : b.groups[index]? with
  | none =>
      rw [kill_of_length_le (List.getElem?_eq_none_iff.mp hget)]
  | some g =>
      rw [kill_of_getElem? hget]
      exact (List.eraseIdx_sublist b.groups index).countP_le

section Player

variable {index id position : Nat} {a : Arena}

theorem length_order_moved (h : b.IsPlayer index id position) (next : Nat) :
    (Battle.passTurn { b with
      arena := a
      groups := b.groups.set index ⟨id, [next], 0⟩ } index).order.length = b.order.length := by
  obtain ⟨front, back, hgroups, rfl, -⟩ := h.exists_split
  rw [length_order, length_order, groups_passTurn, hgroups, set_length_append]
  simp only [List.countP_append, List.countP_cons]
  rfl

theorem length_order_died (h : b.IsPlayer index id position) (reason : Reason) :
    ((b.fallen index id a).bury index id position reason).battle.order.length + 1 =
      b.order.length := by
  obtain ⟨front, back, hgroups, rfl, -⟩ := h.exists_split
  rw [length_order, length_order, groups_bury, fallen, hgroups, set_length_append,
    eraseIdx_length_append]
  split <;> simp [PointerGroup.isDead] <;> omega

end Player

def Step.isInstall : Step → Bool
  | .install .. => true
  | .advance | .kill _ | .killById _ | .poke .. => false

/-- Only an installation adds to the living. -/
theorem Invariant.length_order_next (h : b.Invariant) {s : Step} (hs : s.isInstall = false) :
    (b.next s).order.length ≤ b.order.length := by
  cases s with
  | install => cases hs
  | advance =>
      show b.advance.battle.order.length ≤ b.order.length
      have hadvance := h.advance
      generalize b.advance = a at hadvance ⊢
      cases hadvance with
      | idle => exact Nat.le_refl _
      | moved hplayer => exact Nat.le_of_eq (length_order_moved hplayer _)
      | died hplayer => exact Nat.le_of_lt (Nat.le_of_eq (length_order_died hplayer _))
  | kill index => exact length_order_kill b index
  | killById id =>
      show (b.killById id).battle.order.length ≤ b.order.length
      rw [killById_eq_kill]
      exact length_order_kill b _
  | poke => exact Nat.le_refl _

theorem Invariant.length_order_after (h : b.Invariant) {steps : List Step}
    (hsteps : ∀ s ∈ steps, s.isInstall = false) :
    (b.after steps).order.length ≤ b.order.length := by
  induction steps generalizing b with
  | nil => exact Nat.le_refl _
  | cons s steps ih =>
      obtain ⟨hs, hsteps⟩ := List.forall_mem_cons.mp hsteps
      exact (ih (h.next s) hsteps).trans (h.length_order_next hs)

/-! ## What an advance uses up -/

/-- A pointer that goes on has read the cell that it executed. -/
theorem readCount_lt_of_ok {id position next : Nat} {track : Track}
    (hrun : (Act.execute b.rules id position).eval ⟨b.arena, []⟩ = (.ok next, track))
    (hlimit : b.arena.maxReads ≠ 0) (hposition : position < b.arena.size) :
    b.arena.readCount < track.arena.readCount := by
  have hall : ReflTransGen Change ⟨b.arena, []⟩ ⟨track.arena, [] ++ track.events⟩ :=
    ReflTransGen.mono (fun _ _ => .touch) _ _ (touches_run [] hrun)
  rw [Act.eval_execute] at hrun
  cases hdead : b.arena.isDead position with
  | true =>
      rw [hdead] at hrun
      cases hrun
  | false =>
      rw [hdead, if_neg Bool.false_ne_true] at hrun
      -- The fetch counts, and nothing that follows takes that back.
      have hfetch : ((b.arena.update position Cell.countRead).cell position).reads =
          (b.arena.cell position).reads + 1 := by
        rw [Arena.cell_update_self hposition]
        exact Arena.countUp_reads hdead hlimit
      have hrest := Act.isTraced_carryOut b.rules id position (b.arena.cell position).owner
        (b.arena.cell position).value
        ⟨b.arena.update position Cell.countRead, [] ++ [.read id position]⟩
      rw [hrun] at hrest
      have hle := Changes.reads_le (ReflTransGen.mono (fun _ _ h => .touch (.access h)) _ _ hrest)
        hlimit position
      rw [hfetch] at hle
      rw [Arena.readCount, Arena.readCount, (Changes.sameShape hall).size_eq]
      exact Finset.sum_lt_sum (fun i _ => Changes.reads_le hall hlimit i)
        ⟨position, Finset.mem_range.mpr hposition, hle⟩

namespace Invariant

/-- While somebody lives, an advance uses up a read or a life. -/
theorem uses (h : b.Invariant) (hlimit : b.arena.maxReads ≠ 0) (hover : b.isOver = false) :
    b.arena.readCount + b.advance.battle.order.length <
      b.advance.battle.arena.readCount + b.order.length := by
  have hmono := Changes.readCount_le (ReflTransGen.mono (fun _ _ => .touch) _ _
    (touches_advance h [])) hlimit
  have hadvance := h.advance
  generalize b.advance = a at hadvance hmono ⊢
  cases hadvance with
  | idle hidle =>
      rw [hidle] at hover
      cases hover
  | @moved index id position next track hplayer hrun =>
      have hposition := h.pointer_lt _ (List.mem_of_getElem? hplayer.group) position
        List.mem_cons_self
      rw [length_order_moved hplayer]
      exact Nat.add_lt_add_right (readCount_lt_of_ok hrun hlimit hposition) _
  | @died index id position reason track hplayer =>
      have hlife := length_order_died (a := track.arena) hplayer reason
      dsimp only at hmono ⊢
      omega

/-- As long as somebody lives at the end, every advance has used up a read or a life. -/
theorem uses_after (h : b.Invariant) (hlimit : b.arena.maxReads ≠ 0) {steps : List Step}
    (hsteps : ∀ s ∈ steps, s.isInstall = false) (hover : (b.after steps).isOver = false) :
    b.arena.readCount + (b.after steps).order.length + steps.count .advance ≤
      (b.after steps).arena.readCount + b.order.length := by
  induction steps generalizing b with
  | nil => exact Nat.le_refl _
  | cons s steps ih =>
      have hfewer := h.length_order_after hsteps
      obtain ⟨hs, hsteps⟩ := List.forall_mem_cons.mp hsteps
      have hlimit' : (b.next s).arena.maxReads ≠ 0 := by
        rwa [← after_nil (b.next s), ← after_cons, (sameShape_after h [s]).maxReads_eq]
      have hrest := ih (h.next s) hlimit' hsteps hover
      rw [after_cons] at hfewer hover ⊢
      by_cases hadvance : s = .advance
      · -- Somebody lives at the end, so somebody lived at the beginning.
        have hbegin : b.isOver = false := by
          rw [Bool.eq_false_iff, ne_eq, isOver_iff_length_order] at hover ⊢
          omega
        have huses := h.uses hlimit hbegin
        subst hadvance
        rw [List.count_cons_self]
        rw [Battle.next] at hrest ⊢
        omega
      · have hreads := Changes.readCount_le (changes_next h [] s) hlimit
        have hlives := h.length_order_next hs
        rw [List.count_cons_of_ne hadvance]
        dsimp only at hreads
        omega

/-- When nobody lives, a tournament has nothing to execute, and a persistent battle has no programs
any more. -/
theorem ended (h : b.Invariant) (hover : b.isOver = true) :
    (b.rules.runForever = false → b.advance.result = some .nothingToRun) ∧
      (b.rules.runForever = true → b.warriors = []) := by
  constructor
  · intro htournament
    unfold Battle.advance
    rw [if_pos hover, htournament]
    rfl
  · intro hforever
    have hnobody : b.groups = [] := by
      refine List.eq_nil_iff_forall_not_mem.mpr fun g hg => ?_
      have hdead := b.isOver_iff.mp hover g hg
      rw [h.alive hforever g hg] at hdead
      cases hdead
    rw [← List.length_eq_zero_iff, h.length_eq, hnobody]
    rfl

end Invariant

theorem readCount_after_start (r : Rules) (hlimit : r.maxReads ≠ 0) (steps : List Step) :
    ((start r).after steps).arena.readCount ≤ max 1 r.size * r.maxReads.toNat := by
  have hshape := sameShape_after (invariant_start r) steps
  rw [← size_start, ← hshape.size_eq]
  refine Arena.readCount_le_mul fun i hi => ?_
  rw [hshape.size_eq] at hi
  have htally := (tallied_start r i).changes (changes_history (invariant_start r) [] steps) hi
  have hreads := htally.reads
  rw [hshape.maxReads_eq] at hreads
  exact hreads.count_le hlimit

/-- Where reads are limited, a battle without new programs is over once it has advanced as often as
there are reads and lives left, whatever the programs do. -/
theorem over_after_start (r : Rules) (hlimit : r.maxReads ≠ 0) (before steps : List Step)
    (hsteps : ∀ s ∈ steps, s.isInstall = false)
    (hcount : max 1 r.size * r.maxReads.toNat - ((start r).after before).arena.readCount +
      ((start r).after before).order.length ≤ steps.count .advance) :
    (((start r).after before).after steps).isOver = true ∧
      (r.runForever = false →
        (((start r).after before).after steps).advance.result = some .nothingToRun) ∧
      (r.runForever = true → (((start r).after before).after steps).warriors = []) := by
  have hbefore := invariant_after_start r before
  have hover : (((start r).after before).after steps).isOver = true := by
    by_contra hlives
    have hmost := readCount_after_start r hlimit (before ++ steps)
    have hlimit' : ((start r).after before).arena.maxReads ≠ 0 := by
      rwa [(sameShape_after (invariant_start r) before).maxReads_eq]
    have huses := hbefore.uses_after hlimit' hsteps (Bool.eq_false_iff.mpr hlives)
    rw [isOver_iff_length_order] at hlives
    rw [after_append] at hmost
    omega
  have hended := (after_induction (fun _ s h => h.next s) hbefore steps).ended hover
  rw [hbefore.rules_after steps, (invariant_start r).rules_after before] at hended
  exact ⟨hover, hended⟩

/-- One program that does nothing, two cells and one read each: after three advances it is dead. -/
theorem over_after_start_idler :
    (((start { columnSize := 1, columnCount := 2, maxReads := 1 }).after
        [.install (idler 1) 0]).after [.advance, .advance, .advance]).advance.result =
      some .nothingToRun := by
  obtain ⟨-, htournament, -⟩ := over_after_start
    { columnSize := 1, columnCount := 2, maxReads := 1 } (by decide) [.install (idler 1) 0]
    [.advance, .advance, .advance] (by decide) (by decide +kernel)
  exact htournament rfl

end Battle

end CoreArena
