import CoreArena.Source.OperandReader
import CoreArena.Instruction.Word

/-! Reading a statement: a keyword and what it takes.

A statement with a problem keeps what was understood of it before the problem. -/

namespace CoreArena.Source

open Text

/-- What was understood of a statement. -/
structure Statement where
  operation : Operation
  operands : List Operand
  /-- The phrase the statement opened with, empty if none was known. -/
  keyword : String
  /-- The link between the operands. -/
  link : Option String
  deriving DecidableEq, Repr

namespace Statement

/-- A statement of which only the keyword is known. -/
def opening (operation : Operation) (keyword : String) : Statement :=
  ⟨operation, [], keyword, none⟩

def instruction (s : Statement) : Instruction :=
  ⟨s.operation, s.operands[0]?, s.operands[1]?⟩

end Statement

/-- A link as advice shows it. -/
def Link.word (l : Link) : List Char :=
  trim l.phrase.toList

/-- What follows a keyword that opens a line. A letter or digit right behind it makes it another
word. -/
def afterKeyword? (keyword line : List Char) : Option (List Char) :=
  match afterPhrase? keyword line with
  | some [] => some []
  | some (c :: cs) => if c.isAlphanum then none else some (c :: cs)
  | none => none

/-- Text that should not be there. -/
def trailing? (rest : List Char) : Option Problem :=
  if trim rest = [] then none else some (.trailingText (String.ofList (trim rest)))

/-- Reads the operand of a statement that takes one. The payload of `data` is its second operand
and takes no lookups. -/
def readUnary (operation : Operation) (keyword : String) (rest : List Char) :
    Statement × Option Problem :=
  let opening := Statement.opening operation keyword
  if rest = [] then
    (opening, some (.missingArgument keyword))
  else
    match readOperand rest with
    | .error problem => (opening, some problem)
    | .ok (operand, rest) =>
      match trailing? rest with
      | some problem => (opening, some problem)
      | none =>
        if operation ≠ .data then
          ({ opening with operands := [operand] }, none)
        else if operand.depth > 0 then
          (opening, some (.referenceNotAllowed keyword))
        else
          ({ opening with operands := [.zero, operand] }, none)

def readLink? (links : List Link) (rest : List Char) : Option (Link × List Char) :=
  links.findSome? fun link => (afterPhrase? link.phrase.toList rest).map (link, ·)

/-- Reads the operands of a statement that takes two. A first operand followed by nothing, by
the start of the usual link or by a bare link is an unfinished statement. -/
def readBinary (usual : Link) (others : List Link) (keyword : String) (rest : List Char) :
    Statement × Option Problem :=
  let opening := Statement.opening usual.operation keyword
  let hint := String.ofList usual.word
  if rest = [] then
    (opening, some (.missingArgument keyword))
  else
    match readOperand rest with
    | .error problem => (opening, some problem)
    | .ok (first, rest) =>
      let opening := { opening with operands := [first] }
      let rest := trim rest
      if rest.isPrefixOf usual.word || (usual :: others).any (·.word == rest) then
        (opening, some (.missingSecondArgument keyword hint))
      else
        match readLink? (usual :: others) rest with
        | none =>
          (opening, some (.invalidSecondArgument keyword (String.ofList rest) hint))
        | some (link, rest) =>
          let word := String.ofList link.word
          let opening := { opening with operation := link.operation, link := some word }
          let rest := trimStart rest
          if rest = [] then
            (opening, some (.missingSecondArgument keyword word))
          else
            match readOperand rest with
            | .error (.notAnInteger _) =>
              (opening, some (.invalidSecondArgument keyword (String.ofList rest) word))
            | .error problem => (opening, some problem)
            | .ok (second, rest) =>
              match trailing? rest with
              | some problem => (opening, some problem)
              | none => ({ opening with operands := [first, second] }, none)

def readKeyword? (line : List Char) : Option (Keyword × List Char) :=
  keywords.findSome? fun keyword =>
    (afterKeyword? keyword.phrase.toList line).map (keyword, ·)

/-- Reads a trimmed line that is a statement. Letter case does not matter. What follows a keyword
that stands alone is not looked at. -/
def readStatement (text : List Char) : Statement × Option Problem :=
  match readKeyword? (text.map Char.toLower) with
  | none =>
    (.opening .invalid "", some (.unknownStatement (String.ofList (firstWord text))))
  | some (keyword, rest) =>
    match keyword.shape with
    | .bare operation => (.opening operation keyword.phrase, none)
    | .unary operation => readUnary operation keyword.phrase (trimStart rest)
    | .binary usual others => readBinary usual others keyword.phrase (trimStart rest)

end CoreArena.Source
