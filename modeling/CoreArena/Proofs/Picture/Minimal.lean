import CoreArena.Proofs.Battle.Change
import CoreArena.Proofs.Picture.Table

/-! # The small picture

The small picture has a group of eight characters for every column on each of its rows, and a cell
is shown in the group of its column. The last group of a column whose size is no multiple of eight
runs on into the next column, so that cells are shown more than once. The picture shows every cell
once exactly if there is no such group, or no next column: `minimal_shows`. -/

namespace CoreArena.Picture

open Text Battle

/-- The lines of the small picture of a battle. -/
def minimalLines (b : Battle) : List (List Char) :=
  lines (Stroke.texts (minimal b)).toList

/-- The character for a cell. -/
def symbol (b : Battle) (a : Nat) : Char :=
  if b.arena.isDead a then 'X' else glyph (b.arena.cell a).value

/-- A place for a character: one of eight, in the group of a column, on a row. -/
@[ext]
structure Spot where
  row : Nat
  group : Nat
  place : Nat
  deriving DecidableEq

namespace Spot

/-- The spot is in the picture of an arena. -/
structure IsInside (p : Spot) (r : Rules) : Prop where
  row_lt : p.row < (r.columnSize + 7) / 8
  group_lt : p.group < r.columnCount
  place_lt : p.place < 8

/-- The character at a spot. Between two groups there is a blank. -/
def char? (p : Spot) (b : Battle) : Option Char :=
  (minimalLines b)[p.row]?.bind fun l => l[9 * p.group + p.place]?

/-- Whatever happens in an arena, the spot has the character for the cell. -/
def Shows (p : Spot) (r : Rules) (a : Nat) : Prop :=
  ∀ steps, p.char? ((start r).after steps) = some (symbol ((start r).after steps) a)

/-- Whatever happens in an arena, the spot is blank. -/
def IsBlank (p : Spot) (r : Rules) : Prop :=
  ∀ steps, p.char? ((start r).after steps) = some ' '

/-- The cell that a spot is for, if the arena has it. -/
def address (p : Spot) (r : Rules) : Nat :=
  p.group * r.columnSize + 8 * p.row + p.place

/-- The spot for a cell in the group of its column. -/
def home (r : Rules) (a : Nat) : Spot :=
  ⟨a % r.columnSize / 8, a / r.columnSize, a % r.columnSize % 8⟩

end Spot

/-- Every cell is shown once, in the group of its column and on its row, and all other spots are
blank. -/
structure ShowsOnce (r : Rules) : Prop where
  once : ∀ a < r.size, ∃! p : Spot, p.IsInside r ∧ p.Shows r a
  at_home : ∀ p : Spot, p.IsInside r → ∀ a < r.size, p.Shows r a →
    p.group = a / r.columnSize ∧ p.row = a % r.columnSize / 8
  blank : ∀ p : Spot, p.IsInside r → (∀ a < r.size, ¬ p.Shows r a) → p.IsBlank r

/-! ## Rows -/

/-- The character at the spot for an address. -/
def face (b : Battle) (a : Nat) : Char :=
  if a < b.arena.size then symbol b a else ' '

theorem mnemonic_headD_ne_lineFeed (op : Operation) : op.mnemonic.toList.headD '░' ≠ '\n' := by
  cases op <;> decide

theorem face_ne_lineFeed (b : Battle) (a : Nat) : face b a ≠ '\n' := by
  unfold face symbol glyph
  split
  · split
    · decide
    · split
      · split <;> decide
      · exact mnemonic_headD_ne_lineFeed _
  · decide

theorem toList_text_smallCell (b : Battle) (pointers : List Nat) (a : Nat) :
    (smallCell b pointers a).text.toList = [face b a] := by
  unfold smallCell face
  split
  · simp [Stroke.painted, symbol]
  · rfl

/-- The characters of a group. -/
theorem toList_texts_group (b : Battle) (row group : Nat) :
    (Stroke.texts ((List.range groupWidth).map fun i =>
      smallCell b (firstPointers b) (i + group * b.rules.columnSize + groupWidth * row))).toList =
      (List.range 8).map fun place => face b (Spot.address ⟨row, group, place⟩ b.rules) := by
  rw [toList_texts, List.flatMap_map]
  simp only [toList_text_smallCell, ← List.map_eq_flatMap]
  refine List.map_congr_left fun place _ => congrArg (face b) ?_
  simp only [Spot.address, groupWidth]
  omega

theorem minimalLines_eq (b : Battle) :
    minimalLines b = (List.range ((b.rules.columnSize + 7) / 8)).map fun row =>
      blocks b.rules.columnCount fun group =>
        (List.range 8).map fun place => face b (Spot.address ⟨row, group, place⟩ b.rules) := by
  have htable : minimal b = table ((b.rules.columnSize + 7) / 8) b.rules.columnCount
      fun row group => (List.range groupWidth).map fun i =>
        smallCell b (firstPointers b) (i + group * b.rules.columnSize + groupWidth * row) := rfl
  rw [minimalLines, htable, lines_table]
  · simp only [toList_texts_group]
  · intro row group
    rw [toList_texts_group]
    intro hmem
    obtain ⟨place, -, hface⟩ := List.mem_map.mp hmem
    exact face_ne_lineFeed b _ hface

theorem length_of_mem_minimalLines {b : Battle} {l : List Char} (h : l ∈ minimalLines b) :
    l.length = 9 * b.rules.columnCount := by
  rw [minimalLines_eq] at h
  obtain ⟨row, -, rfl⟩ := List.mem_map.mp h
  exact length_blocks fun group _ => by simp

/-- Behind every group there is a blank. -/
theorem getElem?_of_mem_minimalLines {b : Battle} {l : List Char} (h : l ∈ minimalLines b)
    {group : Nat} (hgroup : group < b.rules.columnCount) : l[9 * group + 8]? = some ' ' := by
  rw [minimalLines_eq] at h
  obtain ⟨row, -, rfl⟩ := List.mem_map.mp h
  rw [getElem?_blocks (fun _ _ => by simp) hgroup (Nat.le_refl 8)]
  simp

/-! ## Spots -/

namespace Spot

variable {r : Rules} {p : Spot} {a : Nat}

theorem char?_eq {b : Battle} (hp : p.IsInside b.rules) :
    p.char? b = some (face b (p.address b.rules)) := by
  have hrow : (minimalLines b)[p.row]? = some (blocks b.rules.columnCount fun group =>
      (List.range 8).map fun place => face b (Spot.address ⟨p.row, group, place⟩ b.rules)) := by
    rw [minimalLines_eq, List.getElem?_map, List.getElem?_range hp.row_lt]
    rfl
  rw [char?, hrow, Option.bind_some,
    getElem?_blocks (fun _ _ => by simp) hp.group_lt hp.place_lt.le,
    List.getElem?_append_left (by simp [hp.place_lt]), List.getElem?_map,
    List.getElem?_range hp.place_lt]
  rfl

theorem char?_after (hp : p.IsInside r) (steps : List Step) :
    p.char? ((start r).after steps) = some (if p.address r < r.size then
      symbol ((start r).after steps) (p.address r) else ' ') := by
  have hrules := rules_after_start r steps
  have hpos : 0 < r.size := by
    have hrow := hp.row_lt
    exact Nat.mul_pos (by omega) (Nat.zero_lt_of_lt hp.group_lt)
  rw [char?_eq (by rwa [hrules]), face, hrules, size_after_start, Nat.max_eq_right hpos]

/-- A cell that nobody has used is shown by its content. -/
theorem symbol_of_unused {b : Battle} {w : Word} {owner : Nat}
    (h : b.arena.cell a = ⟨w, owner, 0, 0⟩) : symbol b a = glyph w := by
  simp [symbol, Arena.isDead, Arena.isUsedUp_zero, h]

theorem symbol_start (r : Rules) (a : Nat) : symbol (start r) a = '░' :=
  symbol_of_unused (cell_start r a)

/-- A cell that is poked stands out in a new arena. -/
theorem symbol_poke (ha : a < r.size) (c : Nat) :
    symbol ((start r).after [.poke a 1]) c = if c = a then '▓' else '░' := by
  have hsize : a < (start r).arena.size := by
    rw [size_start]
    exact Nat.lt_of_lt_of_le ha (Nat.le_max_right 1 r.size)
  have harena : ((start r).after [.poke a 1]).arena =
      (start r).arena.update a fun cell => { cell with value := 1 } :=
    congrArg ((start r).arena.poke · 1) (Arena.locate_of_lt hsize)
  split
  · subst c
    have hpoked : ((start r).after [.poke a 1]).arena.cell a = ⟨1, 0, 0, 0⟩ := by
      rw [harena, Arena.cell_update_self hsize, cell_start]
      rfl
    exact symbol_of_unused hpoked
  · rename_i hne
    have hother : ((start r).after [.poke a 1]).arena.cell c = ⟨0, 0, 0, 0⟩ := by
      rw [harena, Arena.cell_update_of_ne _ (Ne.symm hne), cell_start]
      rfl
    exact symbol_of_unused hother

theorem shows_iff (hp : p.IsInside r) (ha : a < r.size) : p.Shows r a ↔ a = p.address r := by
  constructor
  · intro h
    have hpoke := h [.poke a 1]
    rw [char?_after hp, symbol_poke ha, symbol_poke ha, if_pos rfl, Option.some.injEq] at hpoke
    by_contra hne
    rw [if_neg (Ne.symm hne)] at hpoke
    split at hpoke <;> cases hpoke
  · rintro rfl steps
    rw [char?_after hp, if_pos ha]

theorem isBlank_iff (hp : p.IsInside r) : p.IsBlank r ↔ r.size ≤ p.address r := by
  constructor
  · intro h
    have hstart := h []
    rw [char?_after hp, after_nil, symbol_start] at hstart
    by_contra hlt
    rw [if_pos (Nat.lt_of_not_le hlt)] at hstart
    cases hstart
  · intro h steps
    rw [char?_after hp, if_neg (Nat.not_lt_of_le h)]

theorem isInside_home (ha : a < r.size) : (home r a).IsInside r := by
  have hsize : 0 < r.columnSize := Nat.pos_of_mul_pos_right (Nat.zero_lt_of_lt ha)
  have hmod : a % r.columnSize < r.columnSize := Nat.mod_lt a hsize
  refine ⟨?_, Nat.div_lt_of_lt_mul ha, Nat.mod_lt _ (by decide)⟩
  simp only [home]
  omega

theorem address_home (r : Rules) (a : Nat) : (home r a).address r = a := by
  have hcolumn := Nat.div_add_mod' a r.columnSize
  simp only [home, address]
  omega

/-- A spot before the end of its column is the one for its cell. -/
theorem eq_home (hp : p.IsInside r) (h : 8 * p.row + p.place < r.columnSize) :
    p = home r (p.address r) := by
  have hplace := hp.place_lt
  have haddress : p.address r = p.group * r.columnSize + (8 * p.row + p.place) :=
    Nat.add_assoc _ _ _
  refine Spot.ext ?_ ?_ ?_
  · simp only [home, haddress, mod_columnSize _ h]
    omega
  · exact haddress ▸ (div_columnSize p.group h).symm
  · simp only [home, haddress, mod_columnSize _ h]
    omega

end Spot

/-! ## Columns that run on -/

variable {r : Rules}

/-- If no group runs on into a next column, every spot with a cell is the one for its cell. -/
theorem showsOnce_of_home
    (h : ∀ p : Spot, p.IsInside r → p.address r < r.size → p = Spot.home r (p.address r)) :
    ShowsOnce r where
  once a ha := by
    refine ⟨Spot.home r a, ⟨Spot.isInside_home ha, ?_⟩, ?_⟩
    · exact (Spot.shows_iff (Spot.isInside_home ha) ha).mpr (Spot.address_home r a).symm
    · rintro p ⟨hp, hshows⟩
      obtain rfl := (Spot.shows_iff hp ha).mp hshows
      exact h p hp ha
  at_home p hp a ha hshows := by
    obtain rfl := (Spot.shows_iff hp ha).mp hshows
    have hhome := h p hp ha
    exact ⟨congrArg Spot.group hhome, congrArg Spot.row hhome⟩
  blank p hp hnone := by
    rw [Spot.isBlank_iff hp]
    by_contra hlt
    have ha : p.address r < r.size := Nat.lt_of_not_le hlt
    exact hnone _ ha ((Spot.shows_iff hp ha).mpr rfl)

/-- The spot behind the last cell of the first column, if its group is not full. -/
def Spot.overrun (r : Rules) : Spot :=
  ⟨r.columnSize / 8, 0, r.columnSize % 8⟩

/-- The last group of a column whose size is no multiple of eight runs on into the next column. -/
theorem overrun_shows (hsize : ¬ 8 ∣ r.columnSize) (hcount : 1 < r.columnCount) :
    (Spot.overrun r).IsInside r ∧ r.columnSize < r.size ∧
      (Spot.overrun r).Shows r r.columnSize := by
  have hlt : r.columnSize < r.size := by
    have hpos : 0 < r.columnSize := by omega
    exact (Nat.lt_mul_iff_one_lt_right hpos).mpr hcount
  have hinside : (Spot.overrun r).IsInside r := by
    constructor
    · show r.columnSize / 8 < (r.columnSize + 7) / 8
      omega
    · exact Nat.zero_lt_of_lt hcount
    · exact Nat.mod_lt _ (by decide)
  refine ⟨hinside, hlt, (Spot.shows_iff hinside hlt).mpr ?_⟩
  simp only [Spot.overrun, Spot.address]
  omega

/-- What the small picture of an arena shows. -/
structure SmallPicture (r : Rules) : Prop where
  length_eq : ∀ steps, (minimalLines ((start r).after steps)).length = (r.columnSize + 7) / 8
  width_eq : ∀ steps, ∀ l ∈ minimalLines ((start r).after steps), l.length = 9 * r.columnCount
  gap : ∀ steps, ∀ l ∈ minimalLines ((start r).after steps), ∀ group < r.columnCount,
    l[9 * group + 8]? = some ' '
  home : ∀ a < r.size, (Spot.home r a).IsInside r ∧ (Spot.home r a).Shows r a
  shows_iff : ∀ p : Spot, p.IsInside r → ∀ a < r.size, p.Shows r a ↔ a = p.address r
  isBlank_iff : ∀ p : Spot, p.IsInside r → (p.IsBlank r ↔ r.size ≤ p.address r)
  showsOnce_iff : ShowsOnce r ↔ 8 ∣ r.columnSize ∨ r.columnCount ≤ 1

/-- On every row the small picture has a group of eight characters for each column, each with a
blank behind it. A spot shows the cell that it counts to, past the end of its column too, and it is
blank if there is none. So every cell is shown in the group of its column and on its row, and no
cell twice exactly if the size of a column is a multiple of eight or there is no second column. -/
theorem minimal_shows (r : Rules) : SmallPicture r where
  length_eq steps := by simp [minimalLines_eq, rules_after_start]
  width_eq steps l hl := by rw [length_of_mem_minimalLines hl, rules_after_start]
  gap steps l hl group hgroup := getElem?_of_mem_minimalLines hl (by rwa [rules_after_start])
  home a ha :=
    ⟨Spot.isInside_home ha,
      (Spot.shows_iff (Spot.isInside_home ha) ha).mpr (Spot.address_home r a).symm⟩
  shows_iff _ hp _ ha := Spot.shows_iff hp ha
  isBlank_iff _ hp := Spot.isBlank_iff hp
  showsOnce_iff := by
    constructor
    · intro h
      by_contra hnot
      obtain ⟨hsize, hcount⟩ := not_or.mp hnot
      obtain ⟨hinside, hlt, hshows⟩ := overrun_shows hsize (Nat.lt_of_not_le hcount)
      have hgroup := (h.at_home _ hinside _ hlt hshows).1
      rw [Nat.div_self (by omega)] at hgroup
      cases hgroup
    · intro h
      refine showsOnce_of_home fun p hp ha => Spot.eq_home hp ?_
      obtain ⟨hrow, hgroup, hplace⟩ := hp
      rcases h with ⟨k, hk⟩ | hcount
      · omega
      · have hfirst : p.group = 0 := by omega
        have hone : r.columnCount = 1 := by omega
        rw [Spot.address, hfirst, Rules.size, hone] at ha
        omega

/-- Two columns of four cells. -/
def shortColumns : Rules :=
  { Rules.tournament with columnSize := 4, columnCount := 2 }

/-- The first cell of the second column is shown in the group of the first column too. -/
theorem minimal_shows_twice :
    Stroke.texts (minimal ((start shortColumns).poke 4 5)) = "░░░░▓░░░ ▓░░░     \n" ∧
      4 < shortColumns.size ∧
      (⟨0, 0, 4⟩ : Spot).IsInside shortColumns ∧ (⟨0, 0, 4⟩ : Spot).Shows shortColumns 4 ∧
      (⟨0, 1, 0⟩ : Spot).IsInside shortColumns ∧ (⟨0, 1, 0⟩ : Spot).Shows shortColumns 4 ∧
      ¬ ShowsOnce shortColumns := by
  have hlt : 4 < shortColumns.size := by decide
  have hfirst : (⟨0, 0, 4⟩ : Spot).IsInside shortColumns := ⟨by decide, by decide, by decide⟩
  have hsecond : (⟨0, 1, 0⟩ : Spot).IsInside shortColumns := ⟨by decide, by decide, by decide⟩
  have hshows : (⟨0, 0, 4⟩ : Spot).Shows shortColumns 4 := (Spot.shows_iff hfirst hlt).mpr rfl
  have hshows' : (⟨0, 1, 0⟩ : Spot).Shows shortColumns 4 := (Spot.shows_iff hsecond hlt).mpr rfl
  refine ⟨by decide +kernel, hlt, hfirst, hshows, hsecond, hshows', fun h => ?_⟩
  have htwice := (h.once 4 hlt).unique ⟨hfirst, hshows⟩ ⟨hsecond, hshows'⟩
  cases htwice

end CoreArena.Picture
