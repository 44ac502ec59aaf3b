import CoreArena.Source.Reading

/-! A problem shown under the line it is on. -/

namespace CoreArena.Source

open Text

/-- Points at a line of a text: what is wrong, where, and the line itself with carets below. The
column counts bytes, the carets count characters. A line that does not exist is only named. -/
def diagnostic (file source : String) (line : Nat) (message : String) : String :=
  let raw? := (Text.lines source.toList)[line - 1]?
  let blanks (raw : List Char) : Nat := (raw.takeWhile isBlank).foldl (fun n c => n + c.utf8Size) 0
  let column := (raw?.elim 0 blanks) + 1
  let head := s!"error: {message}\n --> {file}:{line}:{column}\n"
  match raw? with
  | none => head
  | some raw =>
    let shown := (raw.reverse.dropWhile (· == '\r')).reverse
    let number := String.ofList (padLeft 4 ' ' (numeral line))
    let carets := "".pushn '^' (max 1 (trim shown).length)
    let indent := "".pushn ' ' (column - 1)
    head ++ s!"     |\n{number} | {String.ofList shown}\n     | {indent}{carets}\n"

def diagnostics (file source : String) : List String :=
  (read source).problems.map fun p => diagnostic file source p.1 p.2.message

end CoreArena.Source
