import CoreArena.Command.Console
import CoreArena.Text.Decimal

/-! The arguments of the command that runs programs. -/

namespace CoreArena.Command

structure RunnerOptions where
  programs : List String := []
  persistent : Bool := false
  display : Bool := false
  extended : Bool := false
  /-- Milliseconds between two steps. -/
  speedMillis : Nat := 100
  maxSteps : Option Nat := none
  seed : Option Nat := none
  world : Bool := false

namespace RunnerOptions

def usage (program : String) : String :=
  "\n".intercalate
    ["Core-War Runner",
      "",
      "USAGE:",
      s!"    {program} <program.src>... [OPTIONS]",
      "",
      "ARGS:",
      "    <program.src>    Redcode source files to load",
      "",
      "OPTIONS:",
      "    --persistent        Remove dead programs and keep running",
      "    --display           Draw the arena after every step",
      "    --extended          Draw with one 8-character label per cell (implies --display)",
      "    --speed <ms>        Delay between two steps (defaults to 100)",
      "    --max-steps <n>     Stop after this many steps",
      "    --seed <n>          Seed for program placement",
      "    --world             Host the programs in a persistent world shard",
      "    -h, --help          Print this help message",
      "",
      "ENVIRONMENT:",
      "    COREWAR_LOG         Minimum log level (debug, info, warn, error)",
      "    COREWAR_*           World settings, see WorldConfig::from_env",
      "",
      "EXAMPLES:",
      "    # Fight two programs and watch",
      s!"    {program} dwarf.src imp.src --display",
      "",
      "    # Reproducible run, no drawing",
      s!"    {program} dwarf.src imp.src --seed 7 --speed 1",
      "",
      "    # Host programs in a world",
      s!"    {program} dwarf.src imp.src --world",
      "",
      ""]

def setNumber (o : RunnerOptions) (key : String) (n : Nat) : RunnerOptions :=
  if key == "--speed" then { o with speedMillis := max 1 n }
  else if key == "--max-steps" then { o with maxSteps := some n }
  else { o with seed := some n }

def parse (program : String) (o : RunnerOptions) :
    List String → Except (List Output) RunnerOptions
  | [] =>
    if o.programs.isEmpty then
      .error [.log (Log.error "No program given\n"), .note (usage program)]
    else .ok o
  | arg :: rest =>
    if arg == "--persistent" then parse program { o with persistent := true } rest
    else if arg == "--display" then parse program { o with display := true } rest
    else if arg == "--extended" then
      parse program { o with display := true, extended := true } rest
    else if arg == "--world" then parse program { o with world := true } rest
    else if arg == "--speed" || arg == "--max-steps" || arg == "--seed" then
      match rest with
      | [] => .error [.log (Log.error s!"{arg} requires an argument")]
      | value :: rest =>
        match Text.readBelow? UInt64.size value with
        | some n => parse program (o.setNumber arg n) rest
        | none =>
          .error [.log (Log.error
            s!"Invalid value for {arg}: '{value}' is not a valid number")]
    else if arg.startsWith "-" then
      .error [.log (Log.error s!"Unexpected argument: {arg}\n"), .note (usage program)]
    else parse program { o with programs := o.programs ++ [arg] } rest

end RunnerOptions

end CoreArena.Command
