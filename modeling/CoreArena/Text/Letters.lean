import CoreArena.Text.Table.Alphanumeric
import CoreArena.Text.Table.Case

/-! Letters, digits and letter case in Unicode.

Lowering a text follows the full mapping: one capital becomes two characters, and a capital sigma
at the end of a word takes its final form. Folding makes characters equal that differ only in
case. -/

namespace CoreArena.Text

def inRanges (ranges : List (Nat × Nat)) (n : Nat) : Bool :=
  ranges.any fun r => r.1 ≤ n && n ≤ r.2

/-- The image of a code point under the first shift that covers it. -/
def shifted? (shifts : List Table.Shift) (n : Nat) : Option Nat :=
  (shifts.find? fun s => s.first ≤ n && n ≤ s.last && (n - s.first) % s.step == 0).map
    fun s => ((n : Int) + s.distance).toNat

def isAlphanumeric (c : Char) : Bool :=
  c.isAlphanum || (c.toNat ≥ 0x80 && inRanges Table.alphanumeric c.toNat)

/-- The lower case of a character that has a single one. -/
def lowerChar (c : Char) : Char :=
  if c.toNat < 0x80 then c.toLower
  else (shifted? Table.lower c.toNat).elim c Char.ofNat

/-- The folded form of a character: equal for characters that differ only in case. -/
def fold (c : Char) : Char :=
  let n := c.toNat
  if n < 0x80 then c.toLower
  else match Table.foldExceptions.lookup n with
    | some m => Char.ofNat m
    | none =>
      -- Cherokee folds to its capitals.
      if 0x13A0 ≤ n && n ≤ 0x13F5 then c
      else if 0x13F8 ≤ n && n ≤ 0x13FD then Char.ofNat (n - 8)
      else if 0xAB70 ≤ n && n ≤ 0xABBF then Char.ofNat (n - 0x97D0)
      else if inRanges Table.unfolded n then c
      else lowerChar c

/-- A character that has case or is a case form. -/
def isCased (c : Char) : Bool :=
  c.isAlpha || (c.toNat ≥ 0x80 && inRanges Table.cased c.toNat)

/-- A character that word ends look through. -/
def isCaseIgnorable (c : Char) : Bool :=
  [0x27, 0x2E, 0x3A, 0x5E, 0x60].contains c.toNat || inRanges Table.caseIgnorable c.toNat

/-- Whether the next character that counts for case, if any, is a cased one. -/
def meetsCased (cs : List Char) : Bool :=
  (cs.dropWhile isCaseIgnorable).head?.elim false isCased

/-- The lower case of a text whose characters before it, last first, are given. -/
def lowerAfter (before : List Char) : List Char → List Char
  | [] => []
  | c :: cs =>
    let image :=
      if c = 'Σ' then
        if meetsCased before && !meetsCased cs then ['ς'] else ['σ']
      else if c = 'İ' then ['i', Char.ofNat 0x307]
      else [lowerChar c]
    image ++ lowerAfter (c :: before) cs

def lower (cs : List Char) : List Char :=
  lowerAfter [] cs

end CoreArena.Text
