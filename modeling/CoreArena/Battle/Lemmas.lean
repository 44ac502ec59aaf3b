import CoreArena.Battle.Arena.Lemmas
import CoreArena.Battle.Basic

/-! What each operation on a battle does to its parts. -/

namespace CoreArena.Battle

variable (b : Battle) (index id : Nat)

/-! ### The beginning -/

theorem size_start (r : Rules) : (start r).arena.size = max 1 r.size :=
  Arena.size_make ..

theorem cell_start (r : Rules) (i : Nat) : (start r).arena.cell i = .untouched :=
  Arena.cell_make ..

/-! ### Turns -/

@[simp] theorem rules_mendTurn : b.mendTurn.rules = b.rules := rfl
@[simp] theorem arena_mendTurn : b.mendTurn.arena = b.arena := rfl
@[simp] theorem warriors_mendTurn : b.mendTurn.warriors = b.warriors := rfl
@[simp] theorem groups_mendTurn : b.mendTurn.groups = b.groups := rfl

@[simp] theorem rules_skipDead : b.skipDead.rules = b.rules := rfl
@[simp] theorem arena_skipDead : b.skipDead.arena = b.arena := rfl
@[simp] theorem warriors_skipDead : b.skipDead.warriors = b.warriors := rfl
@[simp] theorem groups_skipDead : b.skipDead.groups = b.groups := rfl

@[simp] theorem rules_keepTurn : b.keepTurn.rules = b.rules := rfl
@[simp] theorem arena_keepTurn : b.keepTurn.arena = b.arena := rfl
@[simp] theorem warriors_keepTurn : b.keepTurn.warriors = b.warriors := rfl
@[simp] theorem groups_keepTurn : b.keepTurn.groups = b.groups := rfl

@[simp] theorem rules_passTurn : (b.passTurn index).rules = b.rules := rfl
@[simp] theorem arena_passTurn : (b.passTurn index).arena = b.arena := rfl
@[simp] theorem warriors_passTurn : (b.passTurn index).warriors = b.warriors := rfl
@[simp] theorem groups_passTurn : (b.passTurn index).groups = b.groups := rfl
@[simp] theorem turn_passTurn : (b.passTurn index).turn = b.nextLiving index := rfl

/-! ### Taking out -/

@[simp] theorem rules_removeAt : (b.removeAt index id).rules = b.rules := rfl
@[simp] theorem turn_removeAt : (b.removeAt index id).turn = b.turn := rfl

@[simp] theorem warriors_removeAt :
    (b.removeAt index id).warriors = b.warriors.eraseIdx index := rfl

@[simp] theorem groups_removeAt :
    (b.removeAt index id).groups = b.groups.eraseIdx index := rfl

theorem arena_removeAt : (b.removeAt index id).arena =
    if b.rules.clearOwnership then b.arena.clearOwner id else b.arena := rfl

@[simp] theorem size_arena_removeAt : (b.removeAt index id).arena.size = b.arena.size := by
  rw [arena_removeAt]
  split
  · exact b.arena.size_clearOwner id
  · rfl

/-! ### Burying -/

/-- A persistent battle forgets the dead; in a tournament they keep their place. -/
theorem battle_bury (position : Nat) (reason : Reason) :
    (b.bury index id position reason).battle =
      if b.rules.runForever then (b.removeAt index id).keepTurn
      else if (b.outcomeAmong? b.living).isSome then b
      else b.passTurn index := by
  unfold bury
  dsimp only
  split
  · rfl
  · cases b.outcomeAmong? b.living <;> rfl

@[simp] theorem rules_bury (position : Nat) (reason : Reason) :
    (b.bury index id position reason).battle.rules = b.rules := by
  rw [battle_bury]
  split
  · rfl
  · split <;> rfl

theorem groups_bury (position : Nat) (reason : Reason) :
    (b.bury index id position reason).battle.groups =
      if b.rules.runForever then b.groups.eraseIdx index else b.groups := by
  rw [battle_bury]
  split
  · rfl
  · split <;> rfl

theorem events_bury (position : Nat) (reason : Reason) :
    (b.bury index id position reason).events =
      [.killed id (if (b.arena.cell position).owner = id then 0 else (b.arena.cell position).owner)
        reason (some position)] := by
  unfold bury
  dsimp only
  split
  · rfl
  · cases b.outcomeAmong? b.living <;> rfl

/-! ### Installation -/

@[simp] theorem size_placeCode (a : Arena) (id start : Nat) (code : List Word) :
    (placeCode a id start code).size = a.size := by
  unfold placeCode
  generalize (addressRange start code.length a.size).zip code = cells
  induction cells generalizing a with
  | nil => rfl
  | cons c cells ih => rw [List.foldl_cons, ih, Arena.size_place]

/-- What an installation needs, and what it does. -/
theorem install_eq_ok_iff {b c : Battle} {p : Program} {address : Nat} :
    b.install p address = .ok c ↔
      p.code ≠ [] ∧ p.code.length ≤ b.arena.size ∧ p.id ≠ 0 ∧ (b.indexOf? p.id).isSome = false ∧
      c = { b with
        arena := placeCode b.arena p.id (b.arena.locate address) p.code
        warriors := b.warriors ++ [⟨p, b.arena.locate address, p.code.length⟩]
        groups := b.groups ++ [.start p.id (b.arena.locate address)] } := by
  unfold install
  by_cases hcode : p.code = []
  · simp [hcode]
  by_cases hlength : p.code.length > b.arena.size
  · have hle : ¬ p.code.length ≤ b.arena.size := by omega
    simp [hcode, hlength, hle]
  by_cases hid : p.id = 0
  · simp [hcode, hlength, hid]
  cases hfree : (b.indexOf? p.id).isSome with
  | true => simp [hcode, hlength, hid]
  | false =>
      have hle : p.code.length ≤ b.arena.size := by omega
      simp [hcode, hlength, hid, hle, eq_comm]

/-! ### Taking programs out -/

theorem kill_of_length_le {b : Battle} {index : Nat} (h : b.groups.length ≤ index) :
    b.kill index = ⟨none, b, []⟩ := by
  unfold kill
  rw [List.getElem?_eq_none h]

theorem kill_of_getElem? {b : Battle} {index : Nat} {g : PointerGroup}
    (h : b.groups[index]? = some g) :
    b.kill index =
      ⟨some g.id,
        Battle.keepTurn { b.removeAt index g.id with
          turn := if index < b.turn then b.turn - 1 else b.turn },
        [.killed g.id 0 .forced none]⟩ := by
  unfold kill
  rw [h]
  rfl

@[simp] theorem rules_kill (b : Battle) (index : Nat) : (b.kill index).battle.rules = b.rules := by
  unfold kill
  cases b.groups[index]? <;> rfl

/-- A number that nobody has leads to no place. -/
theorem killById_eq_kill (b : Battle) (id : Nat) :
    b.killById id = b.kill ((b.indexOf? id).getD b.groups.length) := by
  unfold killById
  cases b.indexOf? id with
  | none => exact (kill_of_length_le (Nat.le_refl _)).symm
  | some index => rfl

end CoreArena.Battle
