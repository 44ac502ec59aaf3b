import CoreArena.Battle.Basic
import CoreArena.Terminal
import CoreArena.Text.Decimal

/-! Pictures of an arena.

The arena is laid out column by column. A cell that a program is about to execute has the color of
the program's place among the living. -/

namespace CoreArena.Picture

/-- The width of a group of cells, and of a label. -/
def groupWidth : Nat := 8

/-- The color of dead and empty cells. -/
def gray : Color := .palette 8

def pointerColors : List Color :=
  [.red, .blue, .green, .yellow, .magenta, .cyan]

/-- The first pointer of each living program, in the order of the programs. -/
def firstPointers (b : Battle) : List Nat :=
  b.groups.filterMap fun g => g.pointers.head?

def pointerColor? (pointers : List Nat) (address : Nat) : Option Color :=
  (pointers.idxOf? address).bind fun i => pointerColors[i % pointerColors.length]?

/-- One character for a word: the first of its mnemonic, or a shade for data. -/
def glyph (w : Word) : Char :=
  match (Instruction.decode w).operation with
  | .data => if w = 0 then '░' else '▓'
  | operation => operation.mnemonic.toList.headD '░'

def smallCell (b : Battle) (pointers : List Nat) (address : Nat) : Stroke :=
  if address < b.arena.size then
    let dead := b.arena.isDead address
    let symbol := if dead then 'X' else glyph (b.arena.cell address).value
    let paint : Paint := match pointerColor? pointers address with
      | some color => { foreground := some color, intense := true }
      | none => { foreground := if dead then some gray else none }
    .painted paint (String.singleton symbol)
  else .plain " "

/-- The arena with one character for each cell. A row shows eight cells of every column. -/
def minimal (b : Battle) : List Stroke :=
  let height := b.rules.columnSize
  let rows := (height + groupWidth - 1) / groupWidth
  (List.range rows).flatMap fun row =>
    ((List.range b.rules.columnCount).flatMap fun column =>
      ((List.range groupWidth).map fun i =>
        smallCell b (firstPointers b) (i + column * height + groupWidth * row)) ++ [.plain " "]) ++
    [.plain "\n"]

/-- The label of a word: data as a number of eight digits, the sign among them, others by their
mnemonic. -/
def label (w : Word) : List Char :=
  match (Instruction.decode w).operation with
  | .data =>
    if w < 0 then '-' :: Text.padLeft (groupWidth - 1) '0' (Text.numeral w.toInt.natAbs)
    else Text.padLeft groupWidth '0' (Text.numeral w.toInt.natAbs)
  | operation => Text.padRight groupWidth ' ' (operation.mnemonic.toList.take groupWidth)

def wideCell (b : Battle) (pointers : List Nat) (address : Nat) : Stroke :=
  let w := (b.arena.cell address).value
  let dead := b.arena.isDead address
  let text := if dead then " <DEAD> " else String.ofList (label w)
  let foreground :=
    if dead || (Instruction.decode w).operation != .data then none
    else if w = 0 then some gray
    else some .white
  let paint : Paint := match pointerColor? pointers address with
    | some color => { foreground, background := some color, intense := true }
    | none => { foreground, background := if dead then some gray else none }
  .painted paint text

/-- The arena with a label for each cell. A line shows one cell of every column. -/
def extended (b : Battle) : List Stroke :=
  (List.range b.rules.columnSize).flatMap fun y =>
    ((List.range b.rules.columnCount).flatMap fun x =>
      [wideCell b (firstPointers b) (x * b.rules.columnSize + y), .plain " "]) ++ [.plain "\n"]

end CoreArena.Picture
