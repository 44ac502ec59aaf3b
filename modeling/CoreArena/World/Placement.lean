import CoreArena.Random

/-! Where to put programs. -/

namespace CoreArena.Placement

/-- The runs of free cells between taken ones, as first cell and length. Runs between neighbours are
empty. -/
def freeRuns (first length : Nat) : List Bool → List (Nat × Nat)
  | [] => [(first, length)]
  | true :: cells => (first, length) :: freeRuns (first + length + 1) 0 cells
  | false :: cells => freeRuns first (length + 1) cells

def longestRun (runs : List (Nat × Nat)) : Nat × Nat :=
  runs.foldl (fun best run => if best.2 < run.2 then run else best) (0, 0)

/-- The middle of the longest run of cells that are not occupied. A run does not go on past the end
of the arena. An arena with nothing in it is free around its own middle. -/
def middleOfLongestGap (occupied : List Nat) (size : Nat) : Nat :=
  if occupied = [] ∨ size = 0 then size / 2
  else
    let taken := (List.range size).map fun i => occupied.any fun o => o % size == i
    let best := longestRun (freeRuns 0 0 taken)
    (best.1 + best.2 / 2) % size

def maxAttempts : Nat := 1000

def isClear (placed : List (Nat × Nat)) (start length : Nat) : Bool :=
  placed.all fun p => start + length ≤ p.1 || p.1 + p.2 ≤ start

/-- Draws starts until one is clear, at most so many times. -/
def drawClear {γ : Type} [RandomSource γ] (placed : List (Nat × Nat)) (length size : Nat) :
    Nat → Draw γ (Option Nat)
  | 0 => return none
  | attempts + 1 => do
    let start ← Draw.below (size - length + 1)
    if isClear placed start length then return some start
    else drawClear placed length size attempts

/-- Draws starts for programs one after another, beside those placed before. -/
def drawStarts {γ : Type} [RandomSource γ] (size : Nat) (placed : List (Nat × Nat)) :
    List Nat → Draw γ (Option (List Nat))
  | [] => return some []
  | length :: lengths => do
    if size < length then return none
    match ← drawClear placed length size maxAttempts with
    | none => return none
    | some start =>
      let starts ← drawStarts size (placed ++ [(start, length)]) lengths
      return starts.map (start :: ·)

/-- Random starts for programs of the given lengths, so that none shares a cell with another and
none goes past the end of the arena. There may be none even where the programs would fit. -/
def randomLayout {γ : Type} [RandomSource γ] (lengths : List Nat) (size : Nat) :
    Draw γ (Option (List Nat)) :=
  if size < lengths.foldr (· + ·) 0 then return none else drawStarts size [] lengths

end CoreArena.Placement
