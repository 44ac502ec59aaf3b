import CoreArena.Text.Blank

/-! Messages for the operator, by importance. -/

namespace CoreArena.Log

inductive Level where
  | debug
  | info
  | warn
  | error
  deriving DecidableEq, Repr

namespace Level

/-- Levels in ascending importance. -/
def all : List Level := [debug, info, warn, error]

def rank : Level → Nat
  | debug => 0
  | info => 1
  | warn => 2
  | error => 3

def name : Level → String
  | debug => "DEBUG"
  | info => "INFO"
  | warn => "WARN"
  | error => "ERROR"

/-- The level that a setting names, in any letter case and with blanks around it. -/
def ofName? (s : String) : Option Level :=
  match String.ofList ((Text.trim s.toList).map Char.toLower) with
  | "debug" | "trace" => some debug
  | "info" => some info
  | "warn" | "warning" => some warn
  | "error" => some error
  | _ => none

/-- Whether messages of a level are shown when the given one is the least shown. -/
def shownAt (level least : Level) : Bool :=
  least.rank ≤ level.rank

end Level

structure Entry where
  level : Level
  text : String
  deriving DecidableEq, Repr

def debug (text : String) : Entry := ⟨.debug, text⟩

def info (text : String) : Entry := ⟨.info, text⟩

def warn (text : String) : Entry := ⟨.warn, text⟩

def error (text : String) : Entry := ⟨.error, text⟩

end CoreArena.Log
