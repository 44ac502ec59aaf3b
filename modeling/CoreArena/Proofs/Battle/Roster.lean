import CoreArena.Battle.Lemmas
import Mathlib.Data.List.InsertIdx
import Mathlib.Data.List.Nodup

/-! # Programs and their pointers

The programs of a battle and their pointers are two lists that are changed together. `Roster` says
how they fit, and every change of both keeps it. -/

namespace CoreArena.Battle

/-- The programs and their pointers fit together and stay on the ring. -/
structure Roster (b : Battle) : Prop where
  /-- Place by place, a program and its pointers have the same number. -/
  ids_eq : b.warriors.map Warrior.id = b.groups.map PointerGroup.id
  ids_nodup : (b.groups.map PointerGroup.id).Nodup
  id_ne_zero : ∀ g ∈ b.groups, g.id ≠ 0
  single : ∀ g ∈ b.groups, g.IsSingle
  pointer_lt : ∀ g ∈ b.groups, ∀ p ∈ g.pointers, p < b.arena.size
  start_lt : ∀ w ∈ b.warriors, w.placement.start < b.arena.size
  length_le : ∀ w ∈ b.warriors, w.placement.length ≤ b.arena.size
  alive : b.rules.runForever = true → ∀ g ∈ b.groups, g.isDead = false

/-- What holds of a battle between two steps. -/
structure Invariant (b : Battle) : Prop extends Roster b where
  size_pos : 0 < b.arena.size
  /-- The turn is at a program, or at the first place if there is none. -/
  turn_lt : b.turn < b.warriors.length ∨ b.turn = 0 ∧ b.warriors.length = 0

/-! ## Rosters -/

namespace Roster

variable {b c : Battle}

theorem length_eq (h : b.Roster) : b.warriors.length = b.groups.length := by
  simpa using congrArg List.length h.ids_eq

theorem exists_warrior (h : b.Roster) {index : Nat} {g : PointerGroup}
    (hget : b.groups[index]? = some g) : ∃ w, b.warriors[index]? = some w ∧ w.id = g.id := by
  have hids := congrArg (·[index]?) h.ids_eq
  simp only [List.getElem?_map, hget, Option.map_some] at hids
  exact Option.map_eq_some_iff.mp hids

/-- A roster speaks of the programs, the pointers and the size of the arena only. -/
theorem congr (h : b.Roster) (hrules : c.rules = b.rules) (hsize : c.arena.size = b.arena.size)
    (hwarriors : c.warriors = b.warriors) (hgroups : c.groups = b.groups) : c.Roster where
  ids_eq := by rw [hwarriors, hgroups]; exact h.ids_eq
  ids_nodup := by rw [hgroups]; exact h.ids_nodup
  id_ne_zero := by rw [hgroups]; exact h.id_ne_zero
  single := by rw [hgroups]; exact h.single
  pointer_lt := by rw [hgroups, hsize]; exact h.pointer_lt
  start_lt := by rw [hwarriors, hsize]; exact h.start_lt
  length_le := by rw [hwarriors, hsize]; exact h.length_le
  alive := by rw [hrules, hgroups]; exact h.alive

theorem start (r : Rules) : (Battle.start r).Roster where
  ids_eq := rfl
  ids_nodup := List.nodup_nil
  id_ne_zero := by simp [Battle.start]
  single := by simp [Battle.start]
  pointer_lt := by simp [Battle.start]
  start_lt := by simp [Battle.start]
  length_le := by simp [Battle.start]
  alive := by simp [Battle.start]

theorem setGroup (h : b.Roster) {index : Nat} {g g' : PointerGroup}
    (hget : b.groups[index]? = some g) (hid : g'.id = g.id) (hsingle : g'.IsSingle)
    (hlt : ∀ p ∈ g'.pointers, p < b.arena.size)
    (halive : b.rules.runForever = true → g'.isDead = false) :
    Roster { b with groups := b.groups.set index g' } := by
  obtain ⟨hindex, rfl⟩ := List.getElem?_eq_some_iff.mp hget
  have hids : (b.groups.set index g').map PointerGroup.id = b.groups.map PointerGroup.id := by
    rw [List.map_set, hid, ← List.map_set, List.set_getElem_self]
  have hall {P : PointerGroup → Prop} (hP : ∀ g ∈ b.groups, P g) (hg' : P g') :
      ∀ g ∈ b.groups.set index g', P g := by
    intro g hg
    rcases List.mem_or_eq_of_mem_set hg with hg | rfl
    · exact hP g hg
    · exact hg'
  exact {
    ids_eq := h.ids_eq.trans hids.symm
    ids_nodup := by rw [hids]; exact h.ids_nodup
    id_ne_zero := hall h.id_ne_zero (hid ▸ h.id_ne_zero _ (List.getElem_mem hindex))
    single := hall h.single hsingle
    pointer_lt := hall h.pointer_lt hlt
    start_lt := h.start_lt
    length_le := h.length_le
    alive := fun hforever => hall (h.alive hforever) (halive hforever) }

theorem removeAt (h : b.Roster) (index id : Nat) : (b.removeAt index id).Roster where
  ids_eq := by
    rw [warriors_removeAt, groups_removeAt, ← List.eraseIdx_map, ← List.eraseIdx_map, h.ids_eq]
  ids_nodup := by
    rw [groups_removeAt, ← List.eraseIdx_map]
    exact h.ids_nodup.eraseIdx index
  id_ne_zero := fun g hg => h.id_ne_zero g (List.mem_of_mem_eraseIdx hg)
  single := fun g hg => h.single g (List.mem_of_mem_eraseIdx hg)
  pointer_lt := by
    rw [size_arena_removeAt]
    exact fun g hg => h.pointer_lt g (List.mem_of_mem_eraseIdx hg)
  start_lt := by
    rw [size_arena_removeAt]
    exact fun w hw => h.start_lt w (List.mem_of_mem_eraseIdx hw)
  length_le := by
    rw [size_arena_removeAt]
    exact fun w hw => h.length_le w (List.mem_of_mem_eraseIdx hw)
  alive := fun hforever g hg => h.alive hforever g (List.mem_of_mem_eraseIdx hg)

theorem not_mem_ids (h : b.Roster) {id : Nat} (hfree : (b.indexOf? id).isSome = false) :
    id ∉ b.groups.map PointerGroup.id := by
  intro hmem
  rw [← h.ids_eq] at hmem
  obtain ⟨w, hw, rfl⟩ := List.mem_map.mp hmem
  rw [indexOf?, List.findIdx?_isSome, List.any_eq_false] at hfree
  exact hfree w hw (beq_self_eq_true _)

theorem install (h : b.Roster) (hsize : 0 < b.arena.size) {p : Program} {address : Nat}
    (hinstall : b.install p address = .ok c) : c.Roster := by
  obtain ⟨-, hlength, hid, hfree, rfl⟩ := install_eq_ok_iff.mp hinstall
  have hstart := Arena.locate_lt hsize address
  have hall {α : Type} {P : α → Prop} {l : List α} {x : α} (hl : ∀ y ∈ l, P y) (hx : P x) :
      ∀ y ∈ l ++ [x], P y := by
    intro y hy
    rcases List.mem_append.mp hy with hy | hy
    · exact hl y hy
    · rwa [List.mem_singleton.mp hy]
  exact {
    ids_eq := by
      simp only [List.map_append, h.ids_eq]
      rfl
    ids_nodup := by
      rw [List.map_append]
      exact h.ids_nodup.append (List.nodup_singleton _)
        (List.disjoint_singleton.mpr (h.not_mem_ids hfree))
    id_ne_zero := hall h.id_ne_zero hid
    single := hall h.single (PointerGroup.isSingle_start _ _)
    pointer_lt := by
      rw [size_placeCode]
      exact hall h.pointer_lt (by simpa [PointerGroup.start] using hstart)
    start_lt := by
      rw [size_placeCode]
      exact hall h.start_lt hstart
    length_le := by
      rw [size_placeCode]
      exact hall h.length_le hlength
    alive := fun hforever => hall (h.alive hforever) rfl }

end Roster

end CoreArena.Battle
