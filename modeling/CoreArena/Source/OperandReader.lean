import CoreArena.Text.Blank
import CoreArena.Source.Problem

/-! Reading an operand: indicators, an optional sign, digits. -/

namespace CoreArena.Source

open Text

def afterIndicator? (cs : List Char) : Option (List Char) :=
  indicators.findSome? fun phrase => afterPhrase? phrase.toList cs

theorem length_afterIndicator?_lt {cs rest : List Char} (h : afterIndicator? cs = some rest) :
    rest.length < cs.length := by
  obtain ⟨phrase, hp, hr⟩ := List.exists_of_findSome?_eq_some h
  have hpos : 0 < phrase.toList.length := by
    revert phrase
    simp [indicators]
  rw [afterPhrase?_eq_some_iff.mp hr, List.length_append]
  omega

theorem length_trimStart_le (cs : List Char) : (trimStart cs).length ≤ cs.length :=
  (List.dropWhile_sublist _).length_le

/-- Goes on counting the indicators that open a text, blanks after each, up to 255. Returns the
count with what follows them. -/
def countIndicators (count : Nat) (cs : List Char) : Nat × List Char :=
  match _h : afterIndicator? cs with
  | none => (count, cs)
  | some rest => countIndicators (min 255 (count + 1)) (trimStart rest)
termination_by cs.length
decreasing_by
  have := length_afterIndicator?_lt _h
  have := length_trimStart_le rest
  omega

def readSign : List Char → List Char × List Char
  | '-' :: cs => (['-'], cs)
  | '+' :: cs => (['+'], cs)
  | cs => ([], cs)

/-- The number that a sign and digits write. -/
def signedValue (sign digits : List Char) : Int :=
  if sign = ['-'] then -(numeralValue digits : Int) else numeralValue digits

/-- The number that a sign and digits write, if it fits in 64 bits. -/
def readInt64? (sign digits : List Char) : Option Int :=
  let value := signedValue sign digits
  if Int64.minValue.toInt ≤ value ∧ value ≤ Int64.maxValue.toInt then some value else none

/-- Reads an operand at the start of a text and returns it with what follows it. Blanks may come
first. Too many indicators are reported before a missing number, and that before its range. -/
def readOperand (cs : List Char) : Except Problem (Operand × List Char) :=
  let (depth, rest) := countIndicators 0 (trimStart cs)
  let (sign, afterSign) := readSign rest
  let digits := afterSign.takeWhile Char.isDigit
  if depth > Operand.maxDepth then
    .error (.tooManyReferences (String.ofList (trim cs)))
  else if digits = [] then
    .error (.notAnInteger (String.ofList (firstWord rest)))
  else
    match (readInt64? sign digits).filter (fun value => decide (Operand.InRange value)) with
    | none => .error (.valueOutOfRange (String.ofList (sign ++ digits)))
    | some value => .ok (⟨depth, value⟩, afterSign.dropWhile Char.isDigit)

end CoreArena.Source
