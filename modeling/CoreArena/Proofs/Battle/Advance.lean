import CoreArena.Proofs.Battle.Access
import CoreArena.Proofs.Battle.Roster
import CoreArena.Proofs.Battle.Turn

/-! # What an advance does

An advance lets one program execute one instruction. `Advance` lists what can come of it in a battle
that keeps its invariant: nobody lives, the pointer moves, or the program dies. -/

namespace CoreArena.Battle

/-- The program at a place is the one that an advance lets execute. -/
structure IsPlayer (b : Battle) (index id position : Nat) : Prop where
  executing : b.executing? = some (id, position)
  group : b.groups[index]? = some ⟨id, [position], 0⟩
  /-- All that stand between the turn and the player are dead. -/
  ring : ∃ dead rest, (∀ d ∈ dead, d.isDead = true) ∧
    b.groups.rotate b.turn = dead ++ ⟨id, [position], 0⟩ :: rest ∧
    b.groups.rotate index = ⟨id, [position], 0⟩ :: rest ++ dead

/-- A battle in which the program at a place has just lost its last pointer. -/
def fallen (b : Battle) (index id : Nat) (a : Arena) : Battle :=
  { b with arena := a, groups := b.groups.set index ⟨id, [], 0⟩, turn := index }

/-- What can come of an advance. -/
inductive Advance (b : Battle) : Aftermath (Option Outcome) → Prop where
  | idle (h : b.isOver = true) :
      Advance b ⟨if b.rules.runForever then none else some .nothingToRun, b, []⟩
  | moved {index id position next : Nat} {track : Track} (player : b.IsPlayer index id position)
      (run : (Act.execute b.rules id position).eval ⟨b.arena, []⟩ = (.ok next, track)) :
      Advance b ⟨none,
        Battle.passTurn { b with
          arena := track.arena
          groups := b.groups.set index ⟨id, [next], 0⟩ } index,
        track.events⟩
  | died {index id position : Nat} {reason : Reason} {track : Track}
      (player : b.IsPlayer index id position)
      (run : (Act.execute b.rules id position).eval ⟨b.arena, []⟩ = (.error reason, track)) :
      Advance b
        ⟨((b.fallen index id track.arena).bury index id position reason).result,
          ((b.fallen index id track.arena).bury index id position reason).battle,
          track.events ++ ((b.fallen index id track.arena).bury index id position reason).events⟩

variable {b : Battle}

theorem Invariant.turn_lt_length (h : b.Invariant) (hover : b.isOver = false) :
    b.turn < b.groups.length := by
  obtain ⟨g, hg, -⟩ := b.isOver_eq_false_iff.mp hover
  have hpos := List.length_pos_of_mem hg
  have hlength := h.length_eq
  rcases h.turn_lt with hlt | ⟨-, hzero⟩ <;> omega

theorem advance_of_executing {id position : Nat} (h : b.executing? = some (id, position)) :
    b.advance = b.mendTurn.skipDead.play id position := by
  unfold executing? at h
  unfold Battle.advance
  cases hover : b.isOver with
  | true =>
      rw [hover] at h
      cases h
  | false =>
      rw [hover] at h
      simp only [Bool.false_eq_true, if_false] at h ⊢
      rw [h]

/-- While somebody lives, the turn is not lost. -/
theorem Invariant.isTurnLost_eq_false (h : b.Invariant) (hover : b.isOver = false) :
    b.isTurnLost = false :=
  isTurnLost_of_lt (h.turn_lt_length hover)

theorem Invariant.warning?_eq_none (h : b.Invariant) : b.warning? = none := by
  unfold warning?
  cases hover : b.isOver with
  | true => rfl
  | false =>
      rw [h.isTurnLost_eq_false hover]
      rfl

/-- While somebody lives, somebody executes. -/
theorem Invariant.exists_isPlayer (h : b.Invariant) (hover : b.isOver = false) :
    ∃ id position, b.IsPlayer b.skipDead.turn id position := by
  have hturn := h.turn_lt_length hover
  obtain ⟨dead, g, rest, hring, hdead, hlive, hget, hrot⟩ := skipDead_spec hturn hover
  obtain ⟨position, hg⟩ := (h.single g (List.mem_of_getElem? hget)).eq_of_isDead_eq_false hlive
  rw [hg] at hring hget hrot
  refine ⟨g.id, position, ?_, hget, dead, rest, hdead, hring, hrot⟩
  rw [executing?, hover, mendTurn_of_lt hturn, player?, groups_skipDead, hget]
  rfl

theorem Invariant.isPlayer_of_executing (h : b.Invariant) {id position : Nat}
    (hturn : b.executing? = some (id, position)) : ∃ index, b.IsPlayer index id position := by
  cases hover : b.isOver with
  | true =>
      rw [executing?, hover] at hturn
      cases hturn
  | false =>
      obtain ⟨id', position', hplayer⟩ := h.exists_isPlayer hover
      cases hplayer.executing.symm.trans hturn
      exact ⟨_, hplayer⟩

/-! ## Playing at a place -/

section Play

variable {index id position : Nat} {track : Track}

theorem modify_groups {g : PointerGroup} (h : b.groups[index]? = some g)
    (f : PointerGroup → PointerGroup) : b.groups.modify index f = b.groups.set index (f g) := by
  obtain ⟨hindex, rfl⟩ := List.getElem?_eq_some_iff.mp h
  rw [List.modify_eq_take_cons_drop hindex, List.set_eq_take_append_cons_drop, if_pos hindex]

theorem livesAt_fallen (h : index < b.groups.length) (id : Nat) (a : Arena) :
    (b.fallen index id a).livesAt index = false := by
  have hget : (b.fallen index id a).groups[index]? = some ⟨id, [], 0⟩ := List.getElem?_set_self h
  rw [livesAt_of_getElem? hget]
  rfl

theorem play_of_ok {next : Nat} (hget : b.groups[b.turn]? = some ⟨id, [position], 0⟩)
    (hrun : (Act.execute b.rules id position).eval ⟨b.arena, []⟩ = (.ok next, track)) :
    b.play id position = ⟨none,
      Battle.passTurn { b with
        arena := track.arena
        groups := b.groups.set b.turn ⟨id, [next], 0⟩ } b.turn,
      track.events⟩ := by
  have hgroups := modify_groups hget (·.moveCurrent next)
  rw [PointerGroup.moveCurrent_single] at hgroups
  simp only [play, Act.runIn_eq_eval, hrun, changeGroup, hgroups]

theorem play_of_error {reason : Reason} (hget : b.groups[b.turn]? = some ⟨id, [position], 0⟩)
    (hrun : (Act.execute b.rules id position).eval ⟨b.arena, []⟩ = (.error reason, track)) :
    b.play id position =
      { (b.fallen b.turn id track.arena).bury b.turn id position reason with
        events := track.events ++
          ((b.fallen b.turn id track.arena).bury b.turn id position reason).events } := by
  have hgroups := modify_groups hget PointerGroup.endCurrent
  rw [PointerGroup.endCurrent_single] at hgroups
  have hdead := livesAt_fallen (List.getElem?_eq_some_iff.mp hget).1 id track.arena
  have hfallen : Battle.changeGroup { b with arena := track.arena } b.turn PointerGroup.endCurrent =
      b.fallen b.turn id track.arena := by
    rw [changeGroup, hgroups]
    rfl
  simp only [play, Act.runIn_eq_eval, hrun, hfallen, hdead, Bool.false_eq_true, if_false]

end Play

/-- Every advance is one of the three. -/
theorem Invariant.advance (h : b.Invariant) : Advance b b.advance := by
  cases hover : b.isOver with
  | true =>
      unfold Battle.advance
      rw [if_pos hover]
      exact .idle hover
  | false =>
      obtain ⟨id, position, hplayer⟩ := h.exists_isPlayer hover
      rw [advance_of_executing hplayer.executing, mendTurn_of_lt (h.turn_lt_length hover)]
      cases hrun : (Act.execute b.rules id position).eval ⟨b.arena, []⟩ with
      | mk result track =>
          cases result with
          | ok next =>
              rw [play_of_ok (b := b.skipDead) hplayer.group hrun]
              exact .moved hplayer hrun
          | error reason =>
              rw [play_of_error (b := b.skipDead) hplayer.group hrun]
              exact .died hplayer hrun

end CoreArena.Battle
