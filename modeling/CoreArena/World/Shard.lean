import CoreArena.Admission.Filter
import CoreArena.Ascending
import CoreArena.Battle.Basic
import CoreArena.Source.Assembly
import CoreArena.Source.Diagnostic
import CoreArena.World.Bystander
import CoreArena.World.Notice
import CoreArena.World.Placement

/-! A shard: a battle that never ends, as players see it.

A shard gives its programs numbers and checks their names, counts kills, tops up bystanders, and
reports which cells look different after a play. Its clock ticks 31 times in a round. With `n`
programs, that at place `k` plays at the tick `k * (30 / n)` of the round, so that the pace does not
depend on how many there are. -/

namespace CoreArena

/-- The ticks of a round, and the numbers that a shard has for programs. -/
def roundLength : Nat := 31

inductive ShardError where
  | emptyName
  | nameTooLong (max : Nat)
  | duplicateName (name : String)
  | full (max : Nat)
  | noFreeId
  | assembly (cause : Source.AssemblyError)
  | rejected (cause : Admission.Rejection)
  | install (cause : InstallError)
  deriving DecidableEq, Repr

def ShardError.message : ShardError → String
  | emptyName => "program name is empty"
  | nameTooLong max => s!"program name is longer than {max} characters"
  | duplicateName name => s!"a program named `{name}` is already running"
  | full max => s!"shard is full ({max} programs)"
  | noFreeId => "no program id left"
  | assembly cause => cause.message
  | rejected cause => cause.message
  | install cause => cause.message

structure Installed where
  id : Nat
  position : Nat
  bytecode : List UInt8
  deriving DecidableEq, Repr

/-- A battle with numbers, names, scores and a clock. -/
structure Shard where
  id : Nat
  battle : Battle
  /-- Numbers no program has, the next to give first. -/
  freeIds : List Nat
  /-- The scores of the living, in the order of their installation. -/
  scores : List Score
  /-- The numbers of the bystanders, ascending. -/
  bystanders : List Nat
  /-- How many bystanders there ever were. -/
  spawned : Nat
  tick : Nat
  /-- How each cell looked in the last report. -/
  summary : List Nat
  maxPrograms : Nat
  maxNameLength : Nat
  random : Xoshiro

structure ShardReply (α : Type) where
  result : α
  shard : Shard
  notices : List Notice

namespace Shard

/-- A shard without programs. Its battle never ends, whatever the rules say. -/
def start (id : Nat) (rules : Rules) (maxPrograms maxNameLength : Nat) (random : Xoshiro) :
    Shard :=
  let battle := Battle.start { rules with runForever := true }
  { id, battle, maxPrograms, maxNameLength, random
    freeIds := (List.range roundLength).map (· + 1)
    scores := []
    bystanders := []
    spawned := 0
    tick := 0
    summary := List.replicate battle.arena.size 0 }

def playerCount (s : Shard) : Nat :=
  s.battle.warriors.length - s.bystanders.length

def scoreNotice (s : Shard) : Notice :=
  .scores s.id s.scores

/-! ### Installation -/

/-- Installs words in the middle of the longest stretch without a pointer, under the next free
number. A number whose program could not be installed goes to the end of the queue. -/
def place (s : Shard) (name : String) (code : List Word) :
    ShardReply (Except ShardError (Nat × Nat)) :=
  match s.freeIds with
  | [] => ⟨.error .noFreeId, s, []⟩
  | id :: freeIds =>
    let position := Placement.middleOfLongestGap s.battle.pointers s.battle.arena.size
    match s.battle.install ⟨id, name, code⟩ position with
    | .error cause => ⟨.error (.install cause), { s with freeIds := freeIds ++ [id] }, []⟩
    | .ok battle =>
      let s := { s with freeIds, battle, scores := s.scores ++ [⟨id, name, 0⟩] }
      let entry := Log.info
        s!"shard {s.id}: installed program {name}:{id} at position {position}"
      ⟨.ok (id, position), s, [.log entry, s.scoreNotice]⟩

/-- What is wrong with a trimmed name, or with taking in one more program, if anything is. -/
def refuses? (s : Shard) (name : String) : Option ShardError :=
  if name.isEmpty then some .emptyName
  else if name.length > s.maxNameLength then some (.nameTooLong s.maxNameLength)
  else if s.scores.any (·.name == name) then some (.duplicateName name)
  else if s.playerCount ≥ s.maxPrograms then some (.full s.maxPrograms)
  else none

/-- The notices that the operator gets of a program that does not assemble. -/
def diagnosticNotices (name source : String) : List Notice :=
  (Source.diagnostics name source).map fun text => .log (Log.error text)

/-- Assembles, screens and installs a player's program. -/
def install (s : Shard) (name source : String) (filter : Option Admission.Filter)
    (address : Option String) : ShardReply (Except ShardError Installed) :=
  let name := Text.trimmed name
  match s.refuses? name with
  | some cause => ⟨.error cause, s, []⟩
  | none =>
    match Source.assemble source with
    | .error cause => ⟨.error (.assembly cause), s, diagnosticNotices name source⟩
    | .ok assembled =>
      match filter.bind (·.refuses? name assembled.bytecode address) with
      | some cause => ⟨.error (.rejected cause), s, []⟩
      | none =>
        let reply := s.place name assembled.words
        { reply with
          result := reply.result.map fun (id, position) => ⟨id, position, assembled.bytecode⟩ }

/-! ### Deaths -/

/-- Keeps the books of one death: the killer scores, the victim is struck out, and its number is
free again. -/
def settleOne (s : Shard) (victim killer : Nat) : Shard :=
  let credited := s.scores.map fun score =>
    if score.id = killer then { score with kills := score.kills + 1 } else score
  { s with
    scores := credited.filter (·.id ≠ victim)
    bystanders := s.bystanders.filter (· ≠ victim)
    freeIds := s.freeIds ++ [victim] }

/-- Keeps the books of the deaths among events, and tells the scores if there were any. -/
def settle (s : Shard) (events : List Event) : Shard × List Notice :=
  let (s, notices) := events.foldl (fun (s, notices) e =>
    match e with
    | .killed victim killer reason _ =>
      let entry := Log.info
        s!"shard {s.id}: program {victim} died ({reason.text}), releasing id"
      (s.settleOne victim killer, notices ++ [Notice.log entry])
    | _ => (s, notices)) (s, [])
  (s, if notices.isEmpty then [] else notices ++ [s.scoreNotice])

def kill (s : Shard) (id : Nat) : ShardReply Bool :=
  let after := s.battle.killById id
  let (s, notices) := settle { s with battle := after.battle } after.events
  ⟨after.result.isSome, s, Notice.ofEvents after.events ++ notices⟩

def offenders (s : Shard) (names : Admission.NameMatcher) : List Nat :=
  (s.battle.warriors.filter fun w => names.rejects w.program.name).map Warrior.id

def expel (s : Shard) (ids : List Nat) : Battle × List Event × List Notice :=
  ids.foldl (fun (battle, events, notices) id =>
    let after := battle.killById id
    let entry := Log.debug s!"shard {s.id}: program {id} has a blacklisted name"
    (after.battle, events ++ after.events,
      notices ++ .log entry :: Notice.ofEvents after.events)) (s.battle, [], [])

/-- Takes out every program whose name is rejected, and tells which they were. -/
def checkNames (s : Shard) (names : Admission.NameMatcher) : ShardReply (List Nat) :=
  let ids := s.offenders names
  let (battle, events, notices) := s.expel ids
  let (s, settled) := settle { s with battle } events
  ⟨ids, s, notices ++ settled⟩

/-! ### Bystanders -/

/-- Makes up a bystander and installs it. -/
def spawn (s : Shard) : ShardReply (Except ShardError Nat) :=
  let (source, random) := (Bystander.generate true).run s.random
  let s := { s with random }
  match Source.assemble source with
  | .error cause =>
    let entry := Log.warn s!"shard {s.id}: generated bystander does not compile: {cause.message}"
    ⟨.error (.assembly cause), s, diagnosticNotices "bystander" source ++ [.log entry]⟩
  | .ok assembled =>
    let s := { s with spawned := s.spawned + 1 }
    let reply := s.place s!"BYSTANDER_{s.spawned}" assembled.words
    match reply.result with
    | .error cause =>
      let entry := Log.warn s!"shard {s.id}: could not place bystander: {cause.message}"
      ⟨.error cause, reply.shard, reply.notices ++ [.log entry]⟩
    | .ok (id, _) =>
      let s := { reply.shard with bystanders := insertAscending id reply.shard.bystanders }
      ⟨.ok id, s, reply.notices⟩

/-- Whether a number is left for one more bystander, and the rules want it. -/
def wantsBystander (s : Shard) : Bool :=
  !s.freeIds.isEmpty && decide (s.bystanders.length < s.battle.rules.bystanderCount)

/-- Adds bystanders until there are enough or no number is left, at most so many. Tells how many
were added. -/
def topUp (s : Shard) : Nat → ShardReply Nat
  | 0 => ⟨0, s, []⟩
  | missing + 1 =>
    if s.wantsBystander then
      let first := s.spawn
      match first.result with
      | .error _ => ⟨0, first.shard, first.notices⟩
      | .ok _ =>
        let rest := first.shard.topUp missing
        ⟨rest.result + 1, rest.shard, first.notices ++ rest.notices⟩
    else ⟨0, s, []⟩

/-- Tops the shard up to the number of bystanders that the rules want. -/
def repopulate (s : Shard) : ShardReply Nat :=
  s.topUp (s.battle.rules.bystanderCount - s.bystanders.length)

/-! ### Ticking -/

/-- How a cell looks: the operation number in the low four bits, five bits of its owner above, and
above those whether a pointer is on it. -/
def summarize (c : Cell) (hasPointer : Bool) : Nat :=
  (Instruction.decode c.value).operation.number + c.owner % 32 * 16
    + if hasPointer then 512 else 0

def currentSummary (s : Shard) : List Nat :=
  let pointers := s.battle.pointers
  s.battle.arena.cells.toList.zipIdx.map fun (c, i) => summarize c (pointers.contains i)

/-- Reports how the cells look that look different from the last report. -/
def report (s : Shard) : Delta × Shard :=
  let current := s.currentSummary
  let delta := (current.zip s.summary).zipIdx.filterMap fun ((new, old), i) =>
    if new = old then none else some (i, new)
  (delta, { s with summary := current })

def isPlayTick (s : Shard) : Bool :=
  let count := s.battle.warriors.length
  count != 0 && s.battle.turn * ((roundLength - 1) / count) == s.tick % roundLength

def play (s : Shard) : ShardReply Delta :=
  let warning := s.battle.warning?.toList.map Notice.log
  let after := s.battle.advance
  let (s, notices) := settle { s with battle := after.battle } after.events
  let (delta, s) := s.report
  ⟨delta, s, warning ++ Notice.ofEvents after.events ++ notices ++ [.ticked s.id delta]⟩

def isTopUpTick (s : Shard) : Bool :=
  let rules := s.battle.rules
  rules.bystanderCount != 0 && rules.bystanderInterval != 0 &&
    s.tick % rules.bystanderInterval == 0

def playIfDue (s : Shard) : ShardReply (Option Delta) :=
  if s.isPlayTick then
    let reply := s.play
    ⟨some reply.result, reply.shard, reply.notices⟩
  else ⟨none, s, []⟩

def repopulateIfDue (s : Shard) : ShardReply Nat :=
  if s.isTopUpTick then s.repopulate else ⟨0, s, []⟩

/-- Lets one tick pass. If a program played, tells which cells look different. -/
def pass (s : Shard) : ShardReply (Option Delta) :=
  let played := s.playIfDue
  let filled := played.shard.repopulateIfDue
  ⟨played.result, { filled.shard with tick := filled.shard.tick + 1 },
    played.notices ++ filled.notices⟩

/-- Lets ticks pass. Tells at which of them a program played, and the change. -/
def passMany (s : Shard) : Nat → ShardReply (List (Nat × Delta))
  | 0 => ⟨[], s, []⟩
  | n + 1 =>
    let first := s.pass
    let rest := first.shard.passMany n
    ⟨(first.result.map (s.tick, ·)).toList ++ rest.result, rest.shard,
      first.notices ++ rest.notices⟩

/-! ### Looking -/

/-- Which cell each living program executes next, and whether it is its turn. -/
def active (s : Shard) : List (Nat × Nat × Bool) :=
  s.battle.groups.zipIdx.filterMap fun (g, index) =>
    g.current?.map fun address => (g.id, address, index == s.battle.turn)

end Shard

end CoreArena
