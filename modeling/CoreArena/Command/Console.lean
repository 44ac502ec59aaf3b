import CoreArena.Disk
import CoreArena.Log
import CoreArena.Source.Diagnostic
import CoreArena.Source.File
import CoreArena.Terminal

/-! What commands write, and how it looks. -/

namespace CoreArena.Command

inductive Output where
  /-- A message for the operator, on the error stream. -/
  | log (entry : Log.Entry)
  /-- A text on the error stream, whatever messages are shown. -/
  | note (text : String)
  /-- A picture or text on the output stream. -/
  | drawn (strokes : List Stroke)

/-- What is shown of messages, and whether the terminal understands colors. -/
structure Console where
  least : Log.Level := .info
  colors : Bool := false

def levelPaint : Log.Level → Paint
  | .debug => { foreground := some .cyan, dimmed := true }
  | .info => {}
  | .warn => { foreground := some .yellow, bold := true }
  | .error => { foreground := some .red, bold := true }

namespace Console

def ofLookup (lookup : String → Option String) : Console where
  least := ((lookup "COREWAR_LOG").bind Log.Level.ofName?).getD .info
  colors := wantsColors (lookup "TERM") (lookup "NO_COLOR")

def entryStroke (e : Log.Entry) : Stroke :=
  .painted (levelPaint e.level) s!"[{e.level.name}] {e.text}\n"

def errorText (c : Console) : Output → String
  | .log entry => if entry.level.shownAt c.least then (entryStroke entry).render c.colors else ""
  | .note text => text
  | .drawn _ => ""

def outputText (c : Console) : Output → String
  | .drawn strokes => String.join (strokes.map (·.render c.colors))
  | _ => ""

end Console

structure Finished where
  /-- Zero if all went well. -/
  code : Nat
  outputs : List Output
  disk : Disk

def diagnosticOutputs (d : Disk) (path : String) : List Output :=
  match Source.readFile d path with
  | .error _ => []
  | .ok text => (Source.diagnostics path text).map fun t => .log (Log.error t)

def isHelp (arg : String) : Bool :=
  arg == "--help" || arg == "-h"

end CoreArena.Command
