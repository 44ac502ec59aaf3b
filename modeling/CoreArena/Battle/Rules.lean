/-! The settings of an arena, fixed when it is made. -/

namespace CoreArena

/-- What an arena looks like and how it treats its programs. -/
structure Rules where
  /-- Cells in a column. -/
  columnSize : Nat := 32
  /-- Columns side by side. -/
  columnCount : Nat := 6
  /-- Writes that use a cell up; no limit if zero. A byte, as more are not counted. -/
  maxWrites : UInt8 := 0
  /-- Reads that use a cell up; no limit if zero. -/
  maxReads : UInt8 := 0
  /-- Dead programs are taken out and the battle never ends. Otherwise it ends with one survivor. -/
  runForever : Bool := false
  /-- A program that is taken out no longer owns cells. -/
  clearOwnership : Bool := true
  /-- Writes count for the owner of the instruction, not for the program that executes it. -/
  creditAuthor : Bool := false
  /-- Bystanders that a shard keeps alive. -/
  bystanderCount : Nat := 0
  /-- Ticks between two top-ups of bystanders; none if zero. -/
  bystanderInterval : Nat := 0
  deriving DecidableEq, Repr

namespace Rules

def tournament : Rules := {}

/-- The shared arena of a shard: five columns of 256 cells, never done. -/
def persistent : Rules :=
  { columnSize := 256, columnCount := 5, runForever := true }

def size (r : Rules) : Nat :=
  r.columnSize * r.columnCount

end Rules

end CoreArena
