/-! Text in colors, as terminals show it. -/

namespace CoreArena

/-- The colors that have names, and those of the palette of 256. -/
inductive Color where
  | black
  | red
  | green
  | yellow
  | blue
  | magenta
  | cyan
  | white
  | palette (n : Nat)
  deriving DecidableEq, Repr

namespace Color

def number : Color → Nat
  | black => 0
  | red => 1
  | green => 2
  | yellow => 3
  | blue => 4
  | magenta => 5
  | cyan => 6
  | white => 7
  | palette n => n

/-- The control sequence that selects a color on a layer: three for letters, four for the ground
behind them. -/
def sequence (layer : Nat) (intense : Bool) : Color → String
  | palette n => s!"\x1b[{layer}8;5;{n}m"
  | c => if intense then s!"\x1b[{layer}8;5;{c.number + 8}m" else s!"\x1b[{layer}{c.number}m"

end Color

structure Paint where
  foreground : Option Color := none
  background : Option Color := none
  intense : Bool := false
  bold : Bool := false
  dimmed : Bool := false
  deriving DecidableEq, Repr

namespace Paint

def reset : String := "\x1b[0m"

def isColored (p : Paint) : Bool :=
  p.foreground.isSome || p.background.isSome

/-- The control sequences that make text look so, whatever it looked like before. -/
def sequence (p : Paint) : String :=
  reset ++ (if p.bold then "\x1b[1m" else "") ++ (if p.dimmed then "\x1b[2m" else "") ++
    p.foreground.elim "" (·.sequence 3 p.intense) ++ p.background.elim "" (·.sequence 4 p.intense)

end Paint

/-- A piece of text. Painted text makes the terminal plain again; plain text leaves it alone. -/
structure Stroke where
  paint : Option Paint
  text : String
  deriving DecidableEq, Repr

namespace Stroke

def plain (text : String) : Stroke := ⟨none, text⟩

def painted (paint : Paint) (text : String) : Stroke := ⟨some paint, text⟩

/-- What is sent to a terminal, which may or may not understand colors. -/
def render (colors : Bool) (s : Stroke) : String :=
  match s.paint.filter fun _ => colors with
  | none => s.text
  | some paint => paint.sequence ++ s.text ++ Paint.reset

def texts (strokes : List Stroke) : String :=
  String.join (strokes.map (·.text))

/-- Neighbours that look the same, joined. -/
def runs (strokes : List Stroke) : List Stroke :=
  strokes.foldr (fun s rest =>
    match rest with
    | [] => [s]
    | t :: ts =>
      if s.paint.getD {} = t.paint.getD {} then ⟨s.paint, s.text ++ t.text⟩ :: ts
      else s :: t :: ts) []

end Stroke

/-- Whether a terminal with these settings is sent colors. -/
def wantsColors (terminal noColor : Option String) : Bool :=
  terminal.any (· != "dumb") && noColor.isNone

end CoreArena
