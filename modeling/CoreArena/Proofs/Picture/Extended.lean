import CoreArena.Proofs.Instruction.Encoding
import CoreArena.Proofs.Picture.Table
import Mathlib.Algebra.Group.Nat.Defs
import Mathlib.Logic.ExistsUnique

/-! # The wide picture

The wide picture has a line for each cell of a column, and on it a label for each column. Labels
have eight characters, but data is written with all its digits: words of nine digits make a label
that is longer and moves all labels behind it. The labels make a grid exactly if there are no such
words: `extended_labels`. -/

namespace CoreArena.Picture

open Text

/-- The lines of the wide picture of a battle. -/
def extendedLines (b : Battle) : List (List Char) :=
  lines (Stroke.texts (extended b)).toList

/-- The label of a cell. -/
def cellLabel (b : Battle) (a : Nat) : List Char :=
  if b.arena.isDead a then " <DEAD> ".toList else label (b.arena.cell a).value

/-- A cell is alive and holds data of nine digits. -/
def Overlong (b : Battle) (a : Nat) : Prop :=
  b.arena.isDead a = false ∧ 100000000 ≤ (b.arena.cell a).value.toInt ∧
    (b.arena.cell a).value.toInt < 0x10000000

instance (b : Battle) : DecidablePred (Overlong b) :=
  fun _ => inferInstanceAs (Decidable (_ ∧ _))

/-- The number of overlong labels before a column on a line. -/
def overlongBefore (b : Battle) (y x : Nat) : Nat :=
  (List.range x).countP fun column => Overlong b (column * b.rules.columnSize + y)

/-- The lines are a grid: each cell has a label of eight characters and a blank behind it. -/
structure IsGrid (b : Battle) : Prop where
  length_eq : (extendedLines b).length = b.rules.columnSize
  width_eq : ∀ line ∈ extendedLines b, line.length = 9 * b.rules.columnCount
  label_at : ∀ y < b.rules.columnSize, ∀ x < b.rules.columnCount,
    ∃ line, (extendedLines b)[y]? = some line ∧
      (line.drop (9 * x)).take 8 = cellLabel b (x * b.rules.columnSize + y)

/-! ## Labels -/

/-- A numeral has as many digits as its number takes. -/
theorem length_numeral_le_iff (k n : Nat) : (numeral n).length ≤ k + 1 ↔ n < 10 ^ (k + 1) := by
  induction k generalizing n with
  | zero =>
      unfold numeral
      split
      · simpa
      · have hpos : 0 < (numeral (n / 10)).length := List.length_pos_iff.mpr (numeral_ne_nil _)
        simp only [List.length_append, List.length_singleton]
        omega
  | succ k ih =>
      have hpow : 10 ^ (k + 1 + 1) = 10 * 10 ^ (k + 1) := Nat.pow_succ'
      unfold numeral
      split
      · have hpos : 0 < 10 ^ (k + 1) := Nat.pow_pos (by decide)
        simp only [List.length_singleton]
        omega
      · rw [List.length_append, List.length_singleton, Nat.add_le_add_iff_right, ih, hpow]
        omega

/-- The sign of a negative number that is data counts among the eight characters. -/
theorem length_label_of_neg {w : Word} (hneg : w < 0) (hlow : -2048 ≤ w.toInt) :
    (padLeft (groupWidth - 1) '0' (numeral w.toInt.natAbs)).length = 7 := by
  have hvalue : w.toInt < 0 := Int32.lt_iff_toInt_lt.mp hneg
  have hdigits := length_numeral_le_iff 6 w.toInt.natAbs
  rw [length_padLeft, groupWidth]
  omega

/-- Other data has eight digits, or nine. -/
theorem length_label_of_nonneg {w : Word} (hneg : ¬ w < 0) (hhigh : w.toInt < 0x10000000) :
    (padLeft groupWidth '0' (numeral w.toInt.natAbs)).length =
      if 100000000 ≤ w.toInt then 9 else 8 := by
  have hvalue : ¬ w.toInt < 0 := fun h => hneg (Int32.lt_iff_toInt_lt.mpr h)
  have hdigits := length_numeral_le_iff 7 w.toInt.natAbs
  have hdigits' := length_numeral_le_iff 8 w.toInt.natAbs
  rw [length_padLeft, groupWidth]
  split <;> omega

theorem length_label (w : Word) :
    (label w).length = if 100000000 ≤ w.toInt ∧ w.toInt < 0x10000000 then 9 else 8 := by
  unfold label
  split
  · rename_i hdata
    obtain ⟨hlow, hhigh⟩ := Instruction.operation_decode_eq_data_iff.mp hdata
    split
    · rename_i hneg
      have hvalue : w.toInt < 0 := Int32.lt_iff_toInt_lt.mp hneg
      rw [List.length_cons, length_label_of_neg hneg hlow, if_neg (by omega)]
    · rename_i hneg
      rw [length_label_of_nonneg hneg hhigh]
      simp only [hhigh, and_true]
  · rename_i hdata
    have hrange := mt Instruction.operation_decode_eq_data_iff.mpr hdata
    rw [if_neg (by omega), length_padRight, List.length_take, groupWidth]
    omega

theorem length_cellLabel (b : Battle) (a : Nat) :
    (cellLabel b a).length = if Overlong b a then 9 else 8 := by
  unfold cellLabel Overlong
  by_cases hdead : b.arena.isDead a = true
  · simp [hdead]
  · simp [hdead, length_label]

theorem lineFeed_not_mem_padLeft {width : Nat} {fill : Char} {cs : List Char}
    (hfill : fill ≠ '\n') (hcs : '\n' ∉ cs) : '\n' ∉ padLeft width fill cs := by
  simp [padLeft, hfill.symm, hcs]

theorem lineFeed_not_mem_numeral (n : Nat) : '\n' ∉ numeral n :=
  fun h => absurd (isDigit_of_mem_numeral h) (by decide)

theorem lineFeed_not_mem_mnemonic (op : Operation) : '\n' ∉ op.mnemonic.toList.take groupWidth := by
  cases op <;> decide

theorem lineFeed_not_mem_label (w : Word) : '\n' ∉ label w := by
  have hdigits (width : Nat) : '\n' ∉ padLeft width '0' (numeral w.toInt.natAbs) :=
    lineFeed_not_mem_padLeft (by decide) (lineFeed_not_mem_numeral _)
  unfold label
  split
  · split
    · exact List.not_mem_cons_of_ne_of_not_mem (by decide) (hdigits _)
    · exact hdigits _
  · simp [padRight, lineFeed_not_mem_mnemonic]

theorem lineFeed_not_mem_cellLabel (b : Battle) (a : Nat) : '\n' ∉ cellLabel b a := by
  unfold cellLabel
  split
  · decide
  · exact lineFeed_not_mem_label _

theorem toList_text_wideCell (b : Battle) (pointers : List Nat) (a : Nat) :
    (wideCell b pointers a).text.toList = cellLabel b a := by
  simp only [wideCell, Stroke.painted, cellLabel]
  split
  · rfl
  · exact String.toList_ofList

/-! ## Lines -/

theorem extendedLines_eq (b : Battle) :
    extendedLines b = (List.range b.rules.columnSize).map fun y =>
      blocks b.rules.columnCount fun x => cellLabel b (x * b.rules.columnSize + y) := by
  have htable : extended b = table b.rules.columnSize b.rules.columnCount
      fun y x => [wideCell b (firstPointers b) (x * b.rules.columnSize + y)] := rfl
  have hcell (y x : Nat) :
      (Stroke.texts [wideCell b (firstPointers b) (x * b.rules.columnSize + y)]).toList =
        cellLabel b (x * b.rules.columnSize + y) := by
    rw [toList_texts, List.flatMap_singleton, toList_text_wideCell]
  rw [extendedLines, htable, lines_table]
  · simp only [hcell]
  · intro y x
    rw [hcell]
    exact lineFeed_not_mem_cellLabel b _

theorem length_blocks_cellLabel (b : Battle) (y x : Nat) :
    (blocks x fun column => cellLabel b (column * b.rules.columnSize + y)).length =
      9 * x + overlongBefore b y x := by
  induction x with
  | zero => rfl
  | succ x ih =>
      rw [blocks_succ, List.length_append, ih, List.length_append, length_cellLabel,
        overlongBefore, overlongBefore, List.range_succ, List.countP_append, List.countP_singleton]
      simp only [List.length_singleton, decide_eq_true_eq]
      split <;> omega

theorem line_eq (b : Battle) {y : Nat} (hy : y < b.rules.columnSize) :
    (extendedLines b)[y]? =
      some (blocks b.rules.columnCount fun x => cellLabel b (x * b.rules.columnSize + y)) := by
  rw [extendedLines_eq, List.getElem?_map, List.getElem?_range hy]
  rfl

theorem drop_line (b : Battle) (y : Nat) {x : Nat} (hx : x < b.rules.columnCount) :
    ∃ behind, (blocks b.rules.columnCount fun column =>
      cellLabel b (column * b.rules.columnSize + y)).drop (9 * x + overlongBefore b y x) =
        cellLabel b (x * b.rules.columnSize + y) ++ ' ' :: behind := by
  obtain ⟨behind, hbehind⟩ := exists_blocks_eq hx
  exact ⟨behind, by rw [hbehind, ← length_blocks_cellLabel b y x, List.drop_left]⟩

/-- A cell has one place: its column, and its line. -/
theorem existsUnique_place {size count a : Nat} (ha : a < size * count) :
    ∃! p : Nat × Nat, p.1 < count ∧ p.2 < size ∧ p.1 * size + p.2 = a := by
  have hsize : 0 < size := Nat.pos_of_mul_pos_right (Nat.zero_lt_of_lt ha)
  refine ⟨(a / size, a % size),
    ⟨Nat.div_lt_of_lt_mul ha, Nat.mod_lt a hsize, Nat.div_add_mod' a size⟩, ?_⟩
  rintro ⟨x, y⟩ ⟨-, hy, rfl⟩
  rw [div_columnSize x hy, mod_columnSize x hy]

theorem place_lt {r : Rules} {x y : Nat} (hx : x < r.columnCount) (hy : y < r.columnSize) :
    x * r.columnSize + y < r.size := by
  have hcolumns : (x + 1) * r.columnSize ≤ r.columnCount * r.columnSize :=
    Nat.mul_le_mul_right r.columnSize hx
  rw [Rules.size, Nat.mul_comm r.columnSize]
  rw [Nat.succ_mul] at hcolumns
  omega

section Grid

variable {b : Battle} (h : ∀ a < b.rules.size, ¬ Overlong b a)

include h

theorem overlongBefore_eq_zero {x y : Nat} (hx : x ≤ b.rules.columnCount)
    (hy : y < b.rules.columnSize) : overlongBefore b y x = 0 := by
  refine List.countP_eq_zero.mpr fun column hcolumn hoverlong => ?_
  have hlt : column < b.rules.columnCount := Nat.lt_of_lt_of_le (List.mem_range.mp hcolumn) hx
  exact h _ (place_lt hlt hy) (of_decide_eq_true hoverlong)

/-- The picture is a grid if no label is too long. -/
theorem isGrid_of_forall_not_overlong : IsGrid b where
  length_eq := by simp [extendedLines_eq]
  width_eq line hline := by
    rw [extendedLines_eq] at hline
    obtain ⟨y, hy, rfl⟩ := List.mem_map.mp hline
    rw [length_blocks_cellLabel,
      overlongBefore_eq_zero h (Nat.le_refl _) (List.mem_range.mp hy), Nat.add_zero]
  label_at y hy x hx := by
    obtain ⟨behind, hbehind⟩ := drop_line b y hx
    rw [overlongBefore_eq_zero h (Nat.le_of_lt hx) hy, Nat.add_zero] at hbehind
    have hlength : (cellLabel b (x * b.rules.columnSize + y)).length = 8 := by
      rw [length_cellLabel, if_neg (h _ (place_lt hx hy))]
    refine ⟨_, line_eq b hy, ?_⟩
    rw [hbehind, List.take_left' hlength]

end Grid

/-- What the wide picture of a battle shows. -/
structure WidePicture (b : Battle) : Prop where
  length_eq : (extendedLines b).length = b.rules.columnSize
  line_eq : ∀ y < b.rules.columnSize, (extendedLines b)[y]? =
    some (blocks b.rules.columnCount fun x => cellLabel b (x * b.rules.columnSize + y))
  width_eq : ∀ y < b.rules.columnSize, ∀ line, (extendedLines b)[y]? = some line →
    line.length = 9 * b.rules.columnCount + overlongBefore b y b.rules.columnCount
  label_at : ∀ y < b.rules.columnSize, ∀ x < b.rules.columnCount,
    ∀ line, (extendedLines b)[y]? = some line →
      (line.drop (9 * x + overlongBefore b y x)).take
        (cellLabel b (x * b.rules.columnSize + y)).length = cellLabel b (x * b.rules.columnSize + y)
  length_label : ∀ a, (cellLabel b a).length = if Overlong b a then 9 else 8
  once : ∀ a < b.rules.size, ∃! p : Nat × Nat,
    p.1 < b.rules.columnCount ∧ p.2 < b.rules.columnSize ∧ p.1 * b.rules.columnSize + p.2 = a
  isGrid_iff : IsGrid b ↔ ∀ a < b.rules.size, ¬ Overlong b a

/-- The wide picture has a line for each cell of a column with the labels of these cells, each with
a blank behind it, so that every cell has one label. A label has eight characters, and nine if the
cell is overlong, and labels are moved by one character for each overlong one before them. The
picture is a grid exactly if no cell is overlong. -/
theorem extended_labels (b : Battle) : WidePicture b where
  length_eq := by simp [extendedLines_eq]
  line_eq y hy := line_eq b hy
  width_eq y hy line hline := by
    rw [line_eq b hy, Option.some.injEq] at hline
    rw [← hline, length_blocks_cellLabel]
  label_at y hy x hx line hline := by
    rw [line_eq b hy, Option.some.injEq] at hline
    obtain ⟨behind, hbehind⟩ := drop_line b y hx
    rw [← hline, hbehind, List.take_left]
  length_label := length_cellLabel b
  once _ ha := existsUnique_place ha
  isGrid_iff := by
    refine ⟨fun h a ha hoverlong => ?_, isGrid_of_forall_not_overlong⟩
    obtain ⟨⟨x, y⟩, ⟨hx, hy, rfl⟩, -⟩ := existsUnique_place ha
    obtain ⟨line, -, hlabel⟩ := h.label_at y hy x hx
    have hlength := congrArg List.length hlabel
    rw [List.length_take, length_cellLabel, if_pos hoverlong] at hlength
    omega

/-- Two columns of one cell. -/
def narrowRow : Rules :=
  { Rules.tournament with columnSize := 1, columnCount := 2 }

/-- A word of nine digits makes its line too long. -/
theorem extended_not_grid :
    Stroke.texts (extended ((Battle.start narrowRow).poke 0 100000000)) =
        "100000000 00000000 \n" ∧
      ¬ IsGrid ((Battle.start narrowRow).poke 0 100000000) := by
  refine ⟨by decide +kernel, fun h => ?_⟩
  have hwidth := h.width_eq "100000000 00000000 ".toList (by decide +kernel)
  revert hwidth
  decide +kernel

end CoreArena.Picture
