import CoreArena.Random

/-! Programs made up to keep a quiet shard lively.

A wall overwrites the cells behind it, a bomber scatters copies of an instruction, and a suicidal
one counts until it runs into its own data. -/

namespace CoreArena.Bystander

variable {γ : Type} [RandomSource γ]

def threeInTen : Nat := 5534023222112865280

def fourInTen : Nat := 7378697629483821056

def oneInTwo : Nat := 0x8000000000000000

def source (lines : List String) : String :=
  "\n".intercalate lines

/-- Overwrites two to four cells behind itself, over and over. -/
def wall : Draw γ (List String) := do
  let length ← Draw.between 2 5
  return ((List.range length).map fun i => s!"write -999 at -{i + 1}") ++ [s!"go to -{length}"]

/-- Copies of the bomb's neighbours, one more for each draw that lies above a quarter more than the
last one had to. Only so many quarters are left. -/
def scatter : Nat → Draw γ (List String)
  | 0 => do
    let _ ← Draw.aboveQuarters (γ := γ) 4
    return []
  | left + 1 => do
    if ← Draw.aboveQuarters (4 - (left + 1)) then
      let target ← Draw.between 5 8
      let rest ← scatter left
      return s!"copy 1 to {target}" :: rest
    else
      return []

/-- Copies an instruction to where a growing counter points, or nearby. Its loop closes on its
first line. -/
def bomber (allowSuicidal : Bool) : Draw γ (List String) := do
  let counter := s!"add {← Draw.between 117 263} to 10"
  let bomb ← if ← Draw.chance oneInTwo then
      pure "copy 3 to the address specified at 9"
    else do
      let distance ← if allowSuicidal then Draw.between 1 10 else Draw.between 10 12
      pure s!"copy 2 to -{distance}"
  let rest ← if ← Draw.chance oneInTwo then do
      let distance ← Draw.between 3 4
      pure [s!"add 1 to the value at -{distance}"]
    else scatter 4
  let body := counter :: bomb :: rest
  return body ++ [s!"go to -{body.length}"]

/-- Counts up to a limit and then executes its own counter. -/
def suicidal : Draw γ (List String) := do
  let limit ← Draw.between 11 45
  return ["add 1 to 3", s!"skip if the value at 2 equals {limit}", "jump -2", "data 0"]

def lines (allowSuicidal : Bool) : Draw γ (List String) := do
  let harmless ← if allowSuicidal then Draw.chance threeInTen else pure true
  if !harmless then suicidal
  else if ← Draw.chance fourInTen then wall
  else bomber allowSuicidal

def generate (allowSuicidal : Bool) : Draw γ String :=
  source <$> lines allowSuicidal

end CoreArena.Bystander
