import CoreArena.Picture
import CoreArena.Proofs.Text.Lines

/-! # Pictures as tables

Both pictures are tables: a line for each row, and in it a block for each column, with a blank
behind each. The lines of the text are these rows: `lines_table`. -/

namespace CoreArena.Picture

open Text

/-- A line of blocks, each with a blank behind it. -/
def blocks (columns : Nat) (block : Nat → List Char) : List Char :=
  (List.range columns).flatMap fun x => block x ++ [' ']

/-- The strokes of a table. -/
def table (rows columns : Nat) (cell : Nat → Nat → List Stroke) : List Stroke :=
  (List.range rows).flatMap fun y =>
    ((List.range columns).flatMap fun x => cell y x ++ [.plain " "]) ++ [.plain "\n"]

section Columns

variable {size y : Nat}

/-- The column of a cell. -/
theorem div_columnSize (x : Nat) (hy : y < size) : (x * size + y) / size = x := by
  rw [Nat.mul_comm, Nat.mul_add_div (Nat.zero_lt_of_lt hy), Nat.div_eq_of_lt hy, Nat.add_zero]

/-- The place of a cell in its column. -/
theorem mod_columnSize (x : Nat) (hy : y < size) : (x * size + y) % size = y := by
  rw [Nat.mul_add_mod_self_right, Nat.mod_eq_of_lt hy]

end Columns

theorem toList_texts (strokes : List Stroke) :
    (Stroke.texts strokes).toList = strokes.flatMap (·.text.toList) := by
  rw [Stroke.texts, String.toList_join, List.flatMap_map]

section Blocks

variable {columns width : Nat} {block : Nat → List Char}

theorem blocks_succ (columns : Nat) (block : Nat → List Char) :
    blocks (columns + 1) block = blocks columns block ++ (block columns ++ [' ']) := by
  rw [blocks, List.range_succ, List.flatMap_append, List.flatMap_singleton]
  rfl

/-- The block of a column stands behind those of the columns before it. -/
theorem exists_blocks_eq {x : Nat} (hx : x < columns) :
    ∃ behind, blocks columns block = blocks x block ++ (block x ++ ' ' :: behind) := by
  induction columns with
  | zero => contradiction
  | succ columns ih =>
      rw [blocks_succ]
      rcases Nat.lt_succ_iff_lt_or_eq.mp hx with hlt | rfl
      · obtain ⟨behind, hbehind⟩ := ih hlt
        exact ⟨behind ++ (block columns ++ [' ']), by simp [hbehind]⟩
      · exact ⟨[], rfl⟩

theorem length_blocks (h : ∀ x < columns, (block x).length = width) :
    (blocks columns block).length = (width + 1) * columns := by
  induction columns with
  | zero => rfl
  | succ columns ih =>
      rw [blocks_succ, List.length_append, ih fun x hx => h x (by omega), List.length_append,
        h columns (by omega), List.length_singleton, Nat.mul_succ]

theorem getElem?_blocks (h : ∀ x < columns, (block x).length = width) {x i : Nat}
    (hx : x < columns) (hi : i ≤ width) :
    (blocks columns block)[(width + 1) * x + i]? = (block x ++ [' '])[i]? := by
  obtain ⟨behind, hbehind⟩ := exists_blocks_eq hx
  have hlength : (blocks x block).length = (width + 1) * x :=
    length_blocks fun y hy => h y (by omega)
  rw [hbehind, List.getElem?_append_right (by omega), hlength, Nat.add_sub_cancel_left,
    List.append_cons, List.getElem?_append_left]
  simp [h x hx]
  omega

theorem lineFeed_not_mem_blocks (h : ∀ x < columns, '\n' ∉ block x) :
    '\n' ∉ blocks columns block := by
  intro hmem
  obtain ⟨x, hx, hblock⟩ := List.mem_flatMap.mp hmem
  rcases List.mem_append.mp hblock with hblock | hblank
  · exact h x (List.mem_range.mp hx) hblock
  · cases List.mem_singleton.mp hblank

/-- A line of blocks ends with a blank, if it has any. -/
theorem getLast?_blocks : (blocks columns block).getLast? ≠ some '\r' := by
  cases columns with
  | zero => nofun
  | succ columns => simp [blocks_succ]

end Blocks

/-- The lines of a table are its rows. -/
theorem lines_table {rows columns : Nat} {cell : Nat → Nat → List Stroke}
    (hlf : ∀ y x, '\n' ∉ (Stroke.texts (cell y x)).toList) :
    lines (Stroke.texts (table rows columns cell)).toList =
      (List.range rows).map fun y =>
        blocks columns fun x => (Stroke.texts (cell y x)).toList := by
  have htext : (Stroke.texts (table rows columns cell)).toList =
      ((List.range rows).map fun y =>
        blocks columns fun x => (Stroke.texts (cell y x)).toList).flatMap (· ++ ['\n']) := by
    simp [toList_texts, table, blocks, List.flatMap_assoc, List.flatMap_map, Stroke.plain]
  rw [htext, lines_flatMap_lineFeed]
  intro l hl
  obtain ⟨y, -, rfl⟩ := List.mem_map.mp hl
  exact ⟨lineFeed_not_mem_blocks fun x _ => hlf y x, getLast?_blocks⟩

end CoreArena.Picture
