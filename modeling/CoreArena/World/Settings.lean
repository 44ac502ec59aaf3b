import CoreArena.Battle.Rules
import CoreArena.Log
import CoreArena.Text.Decimal
import CoreArena.World.Shard

/-! The settings of a world. -/

namespace CoreArena

structure Settings where
  /-- Programs that a shard takes from players. -/
  maxPrograms : Nat := 16
  maxShards : Nat := 16
  /-- Milliseconds in which every program of a shard plays once. -/
  roundMillis : Nat := 300
  maxNameLength : Nat := 32
  /-- Bystanders that each shard keeps alive. -/
  bystanders : Nat := 3
  /-- Ticks between two top-ups of bystanders. -/
  bystanderInterval : Nat := 310
  namesPath : String := "badnames.txt"
  bansPath : String := "kill.txt"
  /-- Where programs are archived, if they are. -/
  archive : Option String := some "programs"
  namesRefreshMillis : Nat := 5000
  bansRefreshMillis : Nat := 10000
  deriving DecidableEq, Repr

namespace Settings

/-- The time between two ticks of a shard, in nanoseconds. -/
def tickNanos (s : Settings) : Nat :=
  s.roundMillis * 1000000 / roundLength

def rules (s : Settings) : Rules :=
  { Rules.persistent with
    bystanderCount := s.bystanders
    bystanderInterval := s.bystanderInterval }

/-- The number that a variable sets, if any, and a complaint if it sets something else. -/
def number? (lookup : String → Option String) (key : String) : Option Nat × List Log.Entry :=
  match lookup key with
  | none => (none, [])
  | some raw =>
    match Text.readBelow? UInt64.size (Text.trimmed raw) with
    | some n => (some n, [])
    | none => (none, [Log.warn s!"ignoring {key}={raw}: not a valid value"])

/-- The defaults, overridden by variables. A value that is no number is reported and ignored. -/
def ofLookup (lookup : String → Option String) : Settings × List Log.Entry :=
  let s : Settings := {}
  let (maxPrograms, e1) := number? lookup "COREWAR_MAX_PROGRAMS"
  let (maxShards, e2) := number? lookup "COREWAR_MAX_SHARDS"
  let (maxNameLength, e3) := number? lookup "COREWAR_MAX_NAME_LENGTH"
  let (bystanders, e4) := number? lookup "COREWAR_BYSTANDERS"
  let (bystanderInterval, e5) := number? lookup "COREWAR_BYSTANDER_INTERVAL"
  let (roundMillis, e6) := number? lookup "COREWAR_CORE_SPEED_MS"
  let archive := match lookup "COREWAR_CAPTURE_DIR" with
    | none => s.archive
    | some path => if (Text.trimmed path).isEmpty then none else some path
  ({ s with
      maxPrograms := maxPrograms.getD s.maxPrograms
      maxShards := maxShards.getD s.maxShards
      maxNameLength := maxNameLength.getD s.maxNameLength
      bystanders := bystanders.getD s.bystanders
      bystanderInterval := bystanderInterval.getD s.bystanderInterval
      roundMillis := max 1 (roundMillis.getD s.roundMillis)
      namesPath := (lookup "COREWAR_NAMES_FILE").getD s.namesPath
      bansPath := (lookup "COREWAR_BANS_FILE").getD s.bansPath
      archive := archive },
    e1 ++ e2 ++ e3 ++ e4 ++ e5 ++ e6)

end Settings

end CoreArena
