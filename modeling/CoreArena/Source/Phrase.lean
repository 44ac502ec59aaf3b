import CoreArena.Instruction.Operation

/-! The phrases of program texts.

A statement opens with a keyword. Some keywords stand alone, some take one operand, and some take
two joined by a link phrase. Tables are in order of priority: of two phrases that fit, the earlier
one counts. -/

namespace CoreArena.Source

/-- A phrase between two operands and the operation that it selects. -/
structure Link where
  phrase : String
  operation : Operation
  deriving DecidableEq, Repr

inductive Shape where
  /-- None. -/
  | bare (operation : Operation)
  /-- One. -/
  | unary (operation : Operation)
  /-- Two, joined by a link. The first link is the one that advice shows. -/
  | binary (usual : Link) (others : List Link)
  deriving Repr

structure Keyword where
  phrase : String
  shape : Shape
  deriving Repr

/-- Phrases that each add one lookup to the operand after them. -/
def indicators : List String :=
  ["the value at ", "the address given at ", "the address specified at ", "the value given at ",
    "the value specified at ", "*"]

/-- Every phrase of a list selects the same operation. -/
def linksTo (op : Operation) (phrases : List String) : List Link :=
  phrases.map (⟨·, op⟩)

/-- Links of a comparison, each with the comparison it selects. -/
def comparisonLinks : List Link :=
  linksTo .skipIfEqual ["is equal to ", "equals the value ", "equals "] ++
    linksTo .skipIfGreater ["is greater than ", "is above ", "above "] ++
    linksTo .skipIfLower ["is lower than ", "is less than ", "is under ", "under "] ++
    [⟨"==", .skipIfEqual⟩, ⟨"=", .skipIfEqual⟩, ⟨">", .skipIfGreater⟩, ⟨"<", .skipIfLower⟩,
      ⟨",", .skipIfEqual⟩]

/-- All keywords, the more specific first. -/
def keywords : List Keyword :=
  [⟨"jump to", .unary .jump⟩,
    ⟨"go to", .unary .jump⟩,
    ⟨"jump", .unary .jump⟩,
    ⟨"write", .binary ⟨"to address ", .write⟩ (linksTo .write ["at address ", "to ", "at ", ","])⟩,
    ⟨"add", .binary ⟨"to the value at ", .add⟩ (linksTo .add ["to ", ","])⟩,
    ⟨"subtract", .binary ⟨"from the value at ", .subtract⟩ (linksTo .subtract ["from ", ","])⟩,
    ⟨"multiply",
      .binary ⟨"with the value at ", .multiply⟩ (linksTo .multiply ["with ", "to ", ","])⟩,
    ⟨"copy", .binary ⟨"to address ", .copy⟩ (linksTo .copy ["to ", ","])⟩,
    ⟨"move", .binary ⟨"to address ", .move⟩ (linksTo .move ["to ", ","])⟩,
    ⟨"skip if", .binary ⟨"is equal to the value ", .skipIfEqual⟩ comparisonLinks⟩,
    ⟨"data", .unary .data⟩,
    ⟨"do nothing", .bare .noop⟩,
    ⟨"noop", .bare .noop⟩,
    ⟨"nop", .bare .noop⟩]

/-- The keywords in alphabetical order, as advice lists them. -/
def expectedKeywords : String :=
  ", ".intercalate ((keywords.map Keyword.phrase).mergeSort (· ≤ ·))

end CoreArena.Source
