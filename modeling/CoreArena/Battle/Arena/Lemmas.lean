import CoreArena.Battle.Arena

/-! What each operation on an arena does to its size and to each of its cells.

The main statements are the `cell_` equations: an operation changes the cell it is about and no
other, and `locate` and `offset` always lead to a cell that exists. -/

namespace CoreArena

namespace Arena

/-! ### Addresses -/

/-- Every signed number leads to a place on a ring. -/
theorem toNat_emod_lt {size : Nat} (h : 0 < size) (n : Int) : (n % size).toNat < size := by
  have hpos : (0 : Int) < size := by exact_mod_cast h
  have hlow := Int.emod_nonneg n (Int.ne_of_gt hpos)
  have hhigh := Int.emod_lt_of_pos n hpos
  omega

theorem wrap_lt {a : Arena} (h : 0 < a.size) (n : Int) : a.wrap n < a.size :=
  toNat_emod_lt h n

theorem offset_lt {a : Arena} (h : 0 < a.size) (position : Nat) (distance : Int) :
    a.offset position distance < a.size :=
  wrap_lt h _

theorem locate_lt {a : Arena} (h : 0 < a.size) (address : Nat) : a.locate address < a.size := by
  unfold locate
  split
  · assumption
  · exact wrap_lt h _

/-- Addresses on the ring are left alone. -/
theorem locate_of_lt {a : Arena} {address : Nat} (h : address < a.size) :
    a.locate address = address :=
  if_pos h

theorem wrap_natCast (a : Arena) (n : Nat) : a.wrap n = n % a.size := by
  unfold wrap
  rw [← Int.natCast_emod, Int.toNat_natCast]

/-! ### Size -/

@[simp] theorem size_make (size : Nat) (maxWrites maxReads : UInt8) :
    (make size maxWrites maxReads).size = max 1 size := by
  simp [make, Arena.size]

/-- An arena made from rules has a cell. -/
theorem size_ofRules_pos (r : Rules) : 0 < (ofRules r).size := by
  rw [ofRules, size_make]
  omega

@[simp] theorem size_update (a : Arena) (i : Nat) (f : Cell → Cell) :
    (a.update i f).size = a.size := by
  simp [update, size]

@[simp] theorem size_place (a : Arena) (i : Nat) (w : Word) (owner : Nat) :
    (a.place i w owner).size = a.size :=
  size_update ..

@[simp] theorem size_poke (a : Arena) (i : Nat) (w : Word) : (a.poke i w).size = a.size :=
  size_update ..

@[simp] theorem size_clearOwner (a : Arena) (program : Nat) :
    (a.clearOwner program).size = a.size := by
  simp [clearOwner, size]

/-- Two arenas have the same number of cells and the same limits. -/
structure SameShape (a b : Arena) : Prop where
  size_eq : b.size = a.size
  maxWrites_eq : b.maxWrites = a.maxWrites
  maxReads_eq : b.maxReads = a.maxReads

namespace SameShape

theorem refl (a : Arena) : SameShape a a :=
  ⟨rfl, rfl, rfl⟩

theorem trans {a b c : Arena} (h : SameShape a b) (h' : SameShape b c) : SameShape a c :=
  ⟨h'.size_eq.trans h.size_eq, h'.maxWrites_eq.trans h.maxWrites_eq,
    h'.maxReads_eq.trans h.maxReads_eq⟩

theorem update (a : Arena) (i : Nat) (f : Cell → Cell) : SameShape a (a.update i f) :=
  ⟨a.size_update i f, rfl, rfl⟩

theorem clearOwner (a : Arena) (program : Nat) : SameShape a (a.clearOwner program) :=
  ⟨a.size_clearOwner program, rfl, rfl⟩

end SameShape

/-! ### Cells -/

@[simp] theorem cell_make (size : Nat) (maxWrites maxReads : UInt8) (i : Nat) :
    (make size maxWrites maxReads).cell i = .untouched := by
  simp only [make, cell, Array.getD_eq_getD_getElem?, Array.getElem?_replicate]
  split <;> rfl

/-- A cell beyond the ring reads as untouched. -/
theorem cell_of_size_le {a : Arena} {i : Nat} (h : a.size ≤ i) : a.cell i = .untouched := by
  simp [cell, Array.getD_eq_getD_getElem?, Array.getElem?_eq_none h]

theorem cell_update (a : Arena) (i j : Nat) (f : Cell → Cell) :
    (a.update i f).cell j = if i = j ∧ j < a.size then f (a.cell j) else a.cell j := by
  simp only [cell, update, Array.getD_eq_getD_getElem?, Array.getElem?_modify]
  by_cases hj : j < a.size
  · have hj' : j < a.cells.size := hj
    by_cases hi : i = j <;> simp [hi, hj, hj']
  · have hj' : a.cells[j]? = none := Array.getElem?_eq_none (Nat.le_of_not_lt hj)
    simp [hj, hj']

theorem cell_update_self {a : Arena} {i : Nat} (h : i < a.size) (f : Cell → Cell) :
    (a.update i f).cell i = f (a.cell i) := by
  simp [cell_update, h]

theorem cell_update_of_ne (a : Arena) {i j : Nat} (h : i ≠ j) (f : Cell → Cell) :
    (a.update i f).cell j = a.cell j := by
  simp [cell_update, h]

/-- Clearing an owner changes owners only. -/
theorem cell_clearOwner (a : Arena) (program i : Nat) :
    (a.clearOwner program).cell i =
      if (a.cell i).owner = program then { a.cell i with owner := 0 } else a.cell i := by
  simp only [cell, clearOwner, Array.getD_eq_getD_getElem?, Array.getElem?_map]
  cases a.cells[i]? with
  | some c => rfl
  | none =>
    simp only [Option.map_none, Option.getD_none, Cell.untouched]
    exact (ite_self _).symm

/-! ### Reading and writing -/

/-- A read succeeds on live cells only, gives the value and counts. -/
theorem read?_eq_some_iff {a b : Arena} {i : Nat} {w : Word} :
    a.read? i = some (w, b) ↔ a.isDead i = false ∧ w = (a.cell i).value ∧
      b = a.update i fun c => { c with reads := countUp c.reads } := by
  unfold read?
  cases a.isDead i <;> simp [eq_comm]

/-- A write succeeds on live cells only, and counts. -/
theorem write?_eq_some_iff {a b : Arena} {i : Nat} {w : Word} {owner : Nat} :
    a.write? i w owner = some b ↔ a.isDead i = false ∧
      b = a.update i fun c =>
        { c with value := w, owner := owner, writes := countUp c.writes } := by
  unfold write?
  cases a.isDead i <;> simp [eq_comm]

theorem isUsedUp_zero (limit : UInt8) : isUsedUp limit 0 = false := by
  simp [isUsedUp, ← UInt8.toNat_inj]

/-- Without limits no cell ever dies. -/
theorem isDead_of_noLimits {a : Arena} (hw : a.maxWrites = 0) (hr : a.maxReads = 0) (i : Nat) :
    a.isDead i = false := by
  simp [isDead, isUsedUp, hw, hr]

end Arena

/-! ### Ranges -/

@[simp] theorem length_addressRange (start length size : Nat) :
    (addressRange start length size).length = length := by
  simp [addressRange]

theorem lt_of_mem_addressRange {start length size i : Nat}
    (h : i ∈ addressRange start length size) : i < max 1 size := by
  obtain ⟨k, _, rfl⟩ := List.mem_map.mp h
  exact Nat.mod_lt _ (by omega)

end CoreArena
