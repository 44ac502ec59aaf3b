import CoreArena.Instruction.Word

/-! Words written back as statements. -/

namespace CoreArena.Source.Listing

/-- Two operands joined by a link behind a keyword. -/
def joined (keyword link : String) (i : Instruction) : List Char :=
  keyword.toList ++ i.firstOrZero.text ++ link.toList ++ i.secondOrZero.text

/-- The statement of an instruction. Instructions that no statement stands for are `invalid`,
which is no keyword. -/
def statement (i : Instruction) : List Char :=
  match i.operation with
  | .data => "data ".toList ++ Text.signedNumeral i.secondOrZero.value
  | .noop => "nop".toList
  | .jump => "jump ".toList ++ i.firstOrZero.text
  | .write => joined "write " " to " i
  | .add => joined "add " " to " i
  | .subtract => joined "subtract " " from " i
  | .multiply => joined "multiply " " with " i
  | .copy => joined "copy " " to " i
  | .move => joined "move " " to " i
  | .skipIfEqual => joined "skip if " " equals " i
  | .skipIfGreater => joined "skip if " " is greater than " i
  | .skipIfLower => joined "skip if " " is lower than " i
  | .invalid => "invalid".toList

def line (w : Word) : List Char :=
  statement (.decode w)

/-- The statements of a program, one on each line. -/
def text (ws : List Word) : String :=
  String.ofList (['\n'].intercalate (ws.map line))

end CoreArena.Source.Listing
