import CoreArena.Proofs.Battle.Change
import CoreArena.Proofs.Battle.Effect
import CoreArena.Proofs.Battle.Order

/-! # What an advance does

Without limits, an advance does to values and pointers exactly what the instruction table says:
`advance_effect`. -/

namespace CoreArena

namespace PointerGroup

def pointersIn (groups : List PointerGroup) (id : Nat) : Option (List Nat) :=
  (groups.find? (·.id == id)).map PointerGroup.pointers

variable {front back : List PointerGroup} {g : PointerGroup} {id : Nat}

theorem pointersIn_eq_none (h : id ∉ front.map PointerGroup.id) : pointersIn front id = none := by
  rw [pointersIn, List.find?_eq_none.mpr]
  · rfl
  · intro g hg hid
    exact h (List.mem_map.mpr ⟨g, hg, beq_iff_eq.mp hid⟩)

theorem pointersIn_self (h : g.id ∉ front.map PointerGroup.id) :
    pointersIn (front ++ g :: back) g.id = some g.pointers := by
  have hfront : front.find? (·.id == g.id) = none :=
    Option.map_eq_none_iff.mp (pointersIn_eq_none h)
  rw [pointersIn, List.find?_append, hfront, List.find?_cons, beq_self_eq_true]
  rfl

theorem pointersIn_of_ne (h : id ≠ g.id) :
    pointersIn (front ++ g :: back) id = pointersIn (front ++ back) id := by
  have hother : (g.id == id) = false := beq_eq_false_iff_ne.mpr (Ne.symm h)
  rw [pointersIn, pointersIn, List.find?_append, List.find?_append, List.find?_cons, hother]

end PointerGroup

namespace Battle

open PointerGroup

variable {b : Battle}

def values (b : Battle) (i : Nat) : Word :=
  (b.arena.cell i).value

def viewFrom (b : Battle) (position : Nat) : View :=
  ⟨b.arena.size, b.values, position⟩

/-- What the instruction table says of the instruction at a cell. -/
def effectAt (b : Battle) (position : Nat) : Effect :=
  (b.viewFrom position).effect (.decode (b.values position))

/-- The pointers of a program, if it is in the battle. -/
def pointersOf (b : Battle) (id : Nat) : Option (List Nat) :=
  pointersIn b.groups id

/-- Burying a program forgets who owns cells, but leaves their values. -/
theorem values_bury (b : Battle) (index id position : Nat) (reason : Reason) :
    (b.bury index id position reason).battle.values = b.values := by
  funext i
  rw [values, battle_bury]
  split
  · rw [arena_keepTurn, arena_removeAt]
    split
    · rw [Arena.cell_clearOwner]
      split <;> rfl
    · rfl
  · split <;> rfl

/-- The pointers of a program after it has executed an instruction. -/
def pointersAfter (b : Battle) : Option Nat → Option (List Nat)
  | some next => some [next]
  | none => if b.rules.runForever then none else some []

theorem pointersOf_of_split {c : Battle} {front back : List PointerGroup} {g : PointerGroup}
    (hgroups : c.groups = front ++ g :: back)
    (hfree : g.id ∉ (front ++ back).map PointerGroup.id) :
    c.pointersOf g.id = some g.pointers ∧
      ∀ other, other ≠ g.id → c.pointersOf other = pointersIn (front ++ back) other := by
  unfold pointersOf
  rw [hgroups]
  refine ⟨pointersIn_self fun hmem => hfree ?_, fun _ => pointersIn_of_ne⟩
  rw [List.map_append]
  exact List.mem_append_left _ hmem

/-- Burying forgets the program in a persistent battle, and leaves it without pointers otherwise. -/
theorem pointersOf_bury {c : Battle} {front back : List PointerGroup} {id : Nat}
    (hgroups : c.groups = front ++ ⟨id, [], 0⟩ :: back)
    (hfree : id ∉ (front ++ back).map PointerGroup.id) (position : Nat) (reason : Reason) :
    (c.bury front.length id position reason).battle.pointersOf id = c.pointersAfter none ∧
      ∀ other, other ≠ id → (c.bury front.length id position reason).battle.pointersOf other =
        pointersIn (front ++ back) other := by
  have hburied := groups_bury c front.length id position reason
  cases hforever : c.rules.runForever with
  | true =>
      rw [if_pos hforever, hgroups, eraseIdx_length_append] at hburied
      unfold pointersOf pointersAfter
      rw [hburied, hforever]
      exact ⟨pointersIn_eq_none hfree, fun _ _ => rfl⟩
  | false =>
      rw [hforever, if_neg Bool.false_ne_true, hgroups] at hburied
      unfold pointersAfter
      rw [hforever]
      exact pointersOf_of_split hburied hfree

theorem Roster.not_mem_others (h : b.Roster) {front back : List PointerGroup} {g : PointerGroup}
    (hgroups : b.groups = front ++ g :: back) : g.id ∉ (front ++ back).map PointerGroup.id := by
  have hnodup := h.ids_nodup
  rw [hgroups, List.map_append, List.map_cons, List.nodup_middle] at hnodup
  rw [List.map_append]
  exact (List.nodup_cons.mp hnodup).1

theorem run_of_holds (h : b.Invariant) (hholds : b.arena.Holds b.arena.size b.values)
    {id position : Nat} {result : Except Reason Nat} {track : Track}
    (hrun : (Act.execute b.rules id position).eval ⟨b.arena, []⟩ = (result, track)) :
    result = Act.outcome (b.effectAt position).next ∧
      ∀ i, (track.arena.cell i).value = (b.effectAt position).cells i := by
  have hgives := Act.execute_gives (v := b.viewFrom position) b.rules id h.size_pos ⟨b.arena, []⟩
    hholds
  rw [show (b.viewFrom position).position = position from rfl, hrun] at hgives
  exact ⟨hgives.1, hgives.2.value_eq⟩

theorem advance_of_holds (h : b.Invariant) {id position : Nat}
    (hholds : b.arena.Holds b.arena.size b.values)
    (hturn : b.executing? = some (id, position)) :
    b.advance.battle.values = (b.effectAt position).cells ∧
      b.advance.battle.pointersOf id = b.pointersAfter (b.effectAt position).next ∧
      ∀ other, other ≠ id → b.advance.battle.pointersOf other = b.pointersOf other := by
  have hadvance := h.advance
  generalize b.advance = a at hadvance ⊢
  cases hadvance with
  | idle hover =>
      rw [executing?, hover] at hturn
      cases hturn
  | @moved index id' position' next track hplayer hrun =>
      cases hplayer.executing.symm.trans hturn
      obtain ⟨front, back, hgroups, rfl, -⟩ := hplayer.exists_split
      obtain ⟨hnext, hvalues⟩ := run_of_holds h hholds hrun
      have hfree := h.toRoster.not_mem_others hgroups
      obtain ⟨-, hothers⟩ := pointersOf_of_split hgroups hfree
      have hgroups' : (Battle.passTurn { b with
          arena := track.arena
          groups := b.groups.set front.length ⟨id, [next], 0⟩ } front.length).groups =
          front ++ ⟨id, [next], 0⟩ :: back := by
        rw [groups_passTurn, hgroups, set_length_append]
      obtain ⟨hself', hothers'⟩ := pointersOf_of_split hgroups' hfree
      refine ⟨funext hvalues, ?_, ?_⟩
      · rw [Act.eq_some_of_ok_eq_outcome hnext]
        exact hself'
      · intro other hother
        exact (hothers' other hother).trans (hothers other hother).symm
  | @died index id' position' reason track hplayer hrun =>
      cases hplayer.executing.symm.trans hturn
      obtain ⟨front, back, hgroups, rfl, -⟩ := hplayer.exists_split
      obtain ⟨hnext, hvalues⟩ := run_of_holds h hholds hrun
      have hfree := h.toRoster.not_mem_others hgroups
      obtain ⟨-, hothers⟩ := pointersOf_of_split hgroups hfree
      have hfallen : (b.fallen front.length id track.arena).groups =
          front ++ ⟨id, [], 0⟩ :: back := by
        rw [fallen, hgroups, set_length_append]
      obtain ⟨hself', hothers'⟩ := pointersOf_bury hfallen hfree position reason
      rw [Act.eq_none_of_error_eq_outcome hnext, values_bury]
      refine ⟨funext hvalues, hself', ?_⟩
      intro other hother
      exact (hothers' other hother).trans (hothers other hother).symm

/-- Whenever a program executes in a battle without limits, the values of all cells and the pointers
of all programs become what the instruction table makes of the values before. -/
theorem advance_effect (r : Rules) (steps : List Step) (hwrites : r.maxWrites = 0)
    (hreads : r.maxReads = 0) {id position : Nat}
    (hturn : ((start r).after steps).executing? = some (id, position)) :
    ((start r).after steps).advance.battle.values =
        (((start r).after steps).effectAt position).cells ∧
      ((start r).after steps).advance.battle.pointersOf id =
        ((start r).after steps).pointersAfter (((start r).after steps).effectAt position).next ∧
      ∀ other, other ≠ id → ((start r).after steps).advance.battle.pointersOf other =
        ((start r).after steps).pointersOf other := by
  have hshape := sameShape_after (invariant_start r) steps
  refine advance_of_holds (invariant_after_start r steps) ⟨rfl, ?_, ?_, fun _ => rfl⟩ hturn
  · rw [hshape.maxWrites_eq]
    exact hwrites
  · rw [hshape.maxReads_eq]
    exact hreads

def adder : Program :=
  ⟨1, "adder", [Instruction.encode ⟨.add, some ⟨1, 1⟩, some ⟨0, 2⟩⟩, 7, -1]⟩

theorem advance_effect_adder :
    ((start { columnSize := 1, columnCount := 4 }).after [.install adder 0]).executing? =
        some (1, 0) ∧
      ((start { columnSize := 1, columnCount := 4 }).after
        [.install adder 0]).advance.battle.values 2 = 6 ∧
      ((start { columnSize := 1, columnCount := 4 }).after
        [.install adder 0]).advance.battle.pointersOf 1 = some [1] := by
  have hturn : ((start { columnSize := 1, columnCount := 4 }).after
      [.install adder 0]).executing? = some (1, 0) := rfl
  obtain ⟨hvalues, hpointers, -⟩ := advance_effect _ [.install adder 0] rfl rfl hturn
  refine ⟨hturn, ?_, hpointers.trans ?_⟩
  · rw [hvalues]
    decide +kernel
  · decide +kernel

end Battle

end CoreArena
