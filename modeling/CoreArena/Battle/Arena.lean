import CoreArena.Instruction.Word
import CoreArena.Battle.Rules

/-! The memory that programs fight in: a ring of cells.

Each cell counts the reads and writes made on behalf of programs, up to 255, and knows who wrote it
last. A cell whose count has reached its limit is dead: it is neither read nor written any more. -/

namespace CoreArena

structure Cell where
  value : Word
  /-- The program that wrote the cell last, zero for nobody. -/
  owner : Nat
  writes : Nat
  reads : Nat
  deriving DecidableEq, Repr

def Cell.untouched : Cell := ⟨0, 0, 0, 0⟩

/-- One more, up to 255. -/
def countUp (n : Nat) : Nat :=
  min 255 (n + 1)

def isUsedUp (limit : UInt8) (count : Nat) : Bool :=
  limit != 0 && limit.toNat ≤ count

/-- A ring of cells with the limits of their counters. -/
structure Arena where
  cells : Array Cell
  maxWrites : UInt8
  maxReads : UInt8
  deriving Repr

namespace Arena

/-- An untouched ring. It has one cell at least. -/
def make (size : Nat) (maxWrites maxReads : UInt8) : Arena :=
  ⟨Array.replicate (max 1 size) .untouched, maxWrites, maxReads⟩

def ofRules (r : Rules) : Arena :=
  make r.size r.maxWrites r.maxReads

def size (a : Arena) : Nat :=
  a.cells.size

/-- The cell that a signed number leads to on the ring. -/
def wrap (a : Arena) (n : Int) : Nat :=
  (n % a.size).toNat

/-- The cell that an address leads to. Addresses beyond the ring are signed 64-bit numbers: those of
the upper half count back from zero. -/
def locate (a : Arena) (address : Nat) : Nat :=
  if address < a.size then address else a.wrap (Int.bmod address UInt64.size)

/-- The cell at a distance from another. -/
def offset (a : Arena) (position : Nat) (distance : Int) : Nat :=
  a.wrap (position + distance)

def cell (a : Arena) (i : Nat) : Cell :=
  a.cells.getD i .untouched

def isDead (a : Arena) (i : Nat) : Bool :=
  let c := a.cell i
  isUsedUp a.maxWrites c.writes || isUsedUp a.maxReads c.reads

def update (a : Arena) (i : Nat) (f : Cell → Cell) : Arena :=
  { a with cells := a.cells.modify i f }

def read? (a : Arena) (i : Nat) : Option (Word × Arena) :=
  if a.isDead i then none
  else some ((a.cell i).value, a.update i fun c => { c with reads := countUp c.reads })

def write? (a : Arena) (i : Nat) (w : Word) (owner : Nat) : Option Arena :=
  if a.isDead i then none
  else some (a.update i fun c => { c with value := w, owner := owner, writes := countUp c.writes })

/-- Sets a cell and its owner without counting. -/
def place (a : Arena) (i : Nat) (w : Word) (owner : Nat) : Arena :=
  a.update i fun c => { c with value := w, owner := owner }

/-- Sets a cell, leaving its owner and its counters. -/
def poke (a : Arena) (i : Nat) (w : Word) : Arena :=
  a.update i fun c => { c with value := w }

/-- Makes every cell of a program nobody's. -/
def clearOwner (a : Arena) (program : Nat) : Arena :=
  { a with cells := a.cells.map fun c => if c.owner = program then { c with owner := 0 } else c }

end Arena

/-- The addresses of a run of cells on a ring, in order. -/
def addressRange (start length size : Nat) : List Nat :=
  (List.range length).map fun k => (start + k) % max 1 size

end CoreArena
