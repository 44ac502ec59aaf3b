import CoreArena.Source.Statement

/-! A program text, line by line.

A blank line idles for one cell, so that lines and cells stay in step; a line that opens with `#`
is a comment, and one that opens with `@` describes the program. Problems stay with their line. -/

namespace CoreArena.Source

open Text

inductive LineContent where
  | comment
  | description (key value : String)
  | statement (statement : Statement)
  deriving DecidableEq, Repr

structure SourceLine where
  /-- Counted from one. -/
  number : Nat
  /-- The line without the blanks around it. -/
  text : List Char
  content : LineContent
  problem : Option Problem
  deriving DecidableEq, Repr

namespace SourceLine

/-- The statement of a line that takes a cell. -/
def statement? (l : SourceLine) : Option Statement :=
  match l.content with
  | .statement s => some s
  | _ => none

/-- A line that takes a cell because it is empty. -/
def isBlank (l : SourceLine) : Bool :=
  l.text.isEmpty && l.statement?.isSome

/-- A line that holds a statement, sound or not. -/
def isStatement (l : SourceLine) : Bool :=
  !l.text.isEmpty && l.statement?.isSome

def blank (number : Nat) : SourceLine :=
  ⟨number, [], .statement (.opening .noop ""), none⟩

/-- The key and value of a description that has no problem. -/
def description? (l : SourceLine) : Option (String × String) :=
  match l.content, l.problem with
  | .description key value, none => some (key, value)
  | _, _ => none

end SourceLine

/-- Reads what follows the `@` of a description: a key in any letter case, blanks, a value.
Descriptions come before the first statement. -/
def readDescription (number : Nat) (statementsBefore : Nat) (text body : List Char) :
    SourceLine :=
  let body := trim body
  let key := body.takeWhile fun c => !isBlank c
  let value := trim (body.dropWhile fun c => !isBlank c)
  let problem :=
    if statementsBefore ≠ 0 then some .misplacedDescription
    else if key = [] then some .emptyDescription
    else none
  ⟨number, text, .description (String.ofList (key.map Char.toLower)) (String.ofList value),
    problem⟩

/-- Reads a line. A sound statement beyond the limit has the program's length as its problem. -/
def readLine (number : Nat) (statementsBefore : Nat) (line : List Char) : SourceLine :=
  match trim line with
  | [] => .blank number
  | '#' :: cs => ⟨number, '#' :: cs, .comment, none⟩
  | '@' :: cs => readDescription number statementsBefore ('@' :: cs) cs
  | text =>
    let (statement, problem) := readStatement text
    let tooLong := if statementsBefore < maxStatements then none else some Problem.programTooLong
    ⟨number, text, .statement statement, problem.or tooLong⟩

/-- Reads lines in order, the first having the given number. -/
def readLines (number statementsBefore : Nat) : List (List Char) → List SourceLine
  | [] => []
  | line :: lines =>
    let l := readLine number statementsBefore line
    l :: readLines (number + 1) (statementsBefore + if l.isStatement then 1 else 0) lines

/-- Without the blank lines that no statement follows: they would only pad the program. -/
def dropPadding (ls : List SourceLine) : List SourceLine :=
  ls.foldr (fun l kept => if l.isBlank && !kept.any (·.isStatement) then kept else l :: kept) []

structure Reading where
  lines : List SourceLine
  deriving Repr

namespace Reading

/-- The problems of a text with their line numbers, in order. -/
def problems (r : Reading) : List (Nat × Problem) :=
  r.lines.filterMap fun l => l.problem.map (l.number, ·)

/-- Whether some line has a problem that more typing would not cure. -/
def anyHardProblem (r : Reading) : Bool :=
  r.problems.any fun p => !p.2.isSoft

def statements (r : Reading) : List Statement :=
  r.lines.filterMap SourceLine.statement?

def descriptions (r : Reading) : List (String × String) :=
  r.lines.filterMap SourceLine.description?

end Reading

def read (source : String) : Reading :=
  ⟨dropPadding (readLines 1 0 (Text.lines source.toList))⟩

end CoreArena.Source
