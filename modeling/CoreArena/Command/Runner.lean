import CoreArena.Admission.Reload
import CoreArena.Command.RunnerOptions
import CoreArena.Picture
import CoreArena.World.Pacemaker

/-! The command that runs programs, in an arena of their own or in a world.

A session is prepared, then woken whenever something is due, until it is over or interrupted. -/

namespace CoreArena.Command

structure ArenaRun where
  options : RunnerOptions
  battle : Battle
  steps : Nat

/-- A world that is kept running. Times are in nanoseconds since it began. -/
structure WorldRun where
  options : RunnerOptions
  world : World
  pacemakers : List Pacemaker
  reload : Admission.Reload
  now : Nat
  /-- When the first shard is drawn next. -/
  drawDue : Nat

inductive Session where
  | over (code : Nat)
  | arena (run : ArenaRun)
  | world (run : WorldRun)

structure Step where
  session : Session
  outputs : List Output
  disk : Disk

/-- The picture of a battle on a cleared screen. -/
def drawing (o : RunnerOptions) (b : Battle) : Output :=
  .drawn (.plain "\x1b[2J\x1b[H" ::
    if o.extended then Picture.extended b else Picture.minimal b)

/-- What the operator is told of notices. Scores are told as a line each, if asked for. -/
def noticeOutputs (tellScores : Bool) (notices : List Notice) : List Output :=
  notices.filterMap fun
    | .log entry => some (.log entry)
    | .scores shard table =>
      let board := ", ".intercalate (table.map fun score => s!"{score.name}={score.kills}")
      if tellScores then some (.log (Log.info s!"shard {shard} scores: {board}"))
      else none
    | .ticked .. => none

/-! ### Arena -/

namespace ArenaRun

/-- The name that a program takes part under: its own, or that of its file. -/
def programName (path : String) (a : Source.Assembled) : String :=
  a.name?.getD (Path.fileStem path)

/-- Assembles files in order, up to the first that cannot be. -/
def assembleAll (d : Disk) : List String →
    Except (List Output) (List (String × List Word)) × List Output
  | [] => (.ok [], [])
  | path :: paths =>
    match Source.assembleFile d path with
    | .error e =>
      (.error (diagnosticOutputs d path ++
        [.log (Log.error s!"Program {path} is not valid: {e.message}")]), [])
    | .ok a =>
      let entry := Output.log
        (Log.info s!"Compiled {path} into {a.words.length} instruction(s)")
      let (rest, outputs) := assembleAll d paths
      (rest.map ((programName path a, a.words) :: ·), entry :: outputs)

/-- Installs programs under numbers from the given one on, up to the first that cannot be. -/
def installAll (b : Battle) (id : Nat) :
    List ((String × List Word) × Nat) → Except String Battle × List Output
  | [] => (.ok b, [])
  | ((name, code), position) :: rest =>
    match b.install ⟨id, name, code⟩ position with
    | .error e => (.error s!"Could not install {name}: {e.message}", [])
    | .ok b =>
      let entry := Output.log
        (Log.info s!"Installed {name} as program {id} at {position}")
      let (result, outputs) := installAll b (id + 1) rest
      (result, entry :: outputs)

/-- Assembles the programs and puts them into an arena at random. -/
def prepare (o : RunnerOptions) (seed : Nat) (d : Disk) : Step :=
  let (assembled, outputs) := assembleAll d o.programs
  let fail (more : List Output) : Step := ⟨.over 1, outputs ++ more, d⟩
  match assembled with
  | .error complaints => fail complaints
  | .ok programs =>
    let battle := Battle.start { Rules.tournament with runForever := o.persistent }
    let lengths := programs.map (·.2.length)
    let size := battle.arena.size
    match (Placement.randomLayout lengths size).run (Xoshiro.ofSeed (.ofNat seed)) with
    | (none, _) =>
      fail [.log (Log.error s!"Programs do not fit in an arena of {size} cells")]
    | (some positions, _) =>
      match installAll battle 1 (programs.zip positions) with
      | (.error complaint, installed) => fail (installed ++ [.log (Log.error complaint)])
      | (.ok battle, installed) => ⟨.arena ⟨o, battle, 0⟩, outputs ++ installed, d⟩

/-- The picture, if one is wanted. -/
def pictures (r : ArenaRun) : List Output :=
  if r.options.display then [drawing r.options r.battle] else []

/-- Why the run is over after a step with this result, if it is. -/
def ending? (r : ArenaRun) : Option Outcome → Option String
  | some (.decided (some winner)) =>
    some s!"program {winner.name} (#{winner.index}) is victorious!"
  | some (.decided none) => some "every program died, end of simulation"
  | some .nothingToRun => some "nothing left to run"
  | none =>
    let steps := r.steps + 1
    if r.options.persistent && r.battle.warriors.isEmpty then
      some s!"every program died after {steps} steps"
    else if r.options.maxSteps.any (· ≤ steps) then some s!"stopping after {steps} steps"
    else none

/-- Draws the arena and lets one instruction be executed. -/
def step (r : ArenaRun) (d : Disk) : Step :=
  let warning := r.battle.warning?.toList.map Notice.log
  let after := r.battle.advance
  let next := { r with battle := after.battle }
  let outputs := r.pictures ++ noticeOutputs false (warning ++ Notice.ofEvents after.events)
  match next.ending? after.result with
  | some text => ⟨.over 0, outputs ++ .log (Log.info text) :: next.pictures, d⟩
  | none => ⟨.arena { next with steps := r.steps + 1 }, outputs, d⟩

def interrupt (r : ArenaRun) (d : Disk) : Step :=
  let entry := Log.info s!"Ctrl+C received, stopping after {r.steps} steps"
  ⟨.over 0, .log entry :: r.pictures, d⟩

end ArenaRun

/-! ### World -/

namespace WorldRun

/-- Submissions so far: the world, its files, what was written, and the shards that were joined. -/
structure Joining where
  world : World
  disk : Disk
  outputs : List Output
  joined : List Nat

def submit (j : Joining) (name source : String) : Joining :=
  let found := j.world.shardForNewcomer
  let j := { j with
    world := found.world
    outputs := j.outputs ++ noticeOutputs false found.notices }
  match found.result with
  | .error e =>
    { j with outputs := j.outputs ++ [.log (Log.error s!"No shard for {name}: {e.message}")] }
  | .ok id =>
    let (reply, disk) := j.world.submit j.disk id ⟨name, "local", source, none⟩
    let outputs := j.outputs ++ noticeOutputs false reply.notices
    match reply.result with
    | .error e =>
      { j with
        world := reply.world, disk
        outputs := outputs ++ [.log (Log.error s!"{name} was refused: {e.message}")] }
    | .ok installed =>
      let entry := Log.info s!"{name} joined shard {id} as program {installed.id}"
      { world := reply.world, disk
        outputs := outputs ++ [.log entry]
        joined := if j.joined.contains id then j.joined else j.joined ++ [id] }

/-- Sends the program texts of files to a world, up to the first that cannot be read. -/
def submitAll (j : Joining) : List String → Except Joining Joining
  | [] => .ok j
  | path :: paths =>
    match j.disk.readText path with
    | .error fault =>
      .error { j with outputs := j.outputs ++
        [.log (Log.error s!"Could not read {path}: {fault.message}")] }
    | .ok source => submitAll (submit j (Path.fileStem path) source) paths

/-- Makes a world from variables and sends the programs to it. -/
def prepare (o : RunnerOptions) (lookup : String → Option String) (d : Disk) : Step :=
  let (settings, complaints) := Settings.ofLookup lookup
  let outputs := complaints.map Output.log
  match Admission.Gate.withFiles settings.namesPath settings.bansPath d with
  | .error e =>
    ⟨.over 1, outputs ++ [.log (Log.error s!"Could not load the blacklist: {e.message}")], d⟩
  | .ok gate =>
    match submitAll ⟨World.start settings gate, d, outputs, []⟩ o.programs with
    | .error j => ⟨.over 1, j.outputs, j.disk⟩
    | .ok j =>
      if j.joined.isEmpty then
        ⟨.over 1, j.outputs ++ [.log (Log.error "No program was accepted")], j.disk⟩
      else
        let run : WorldRun := {
          options := o
          world := j.world
          pacemakers := j.joined.map fun id => ⟨id, none, false⟩
          reload := {
            namesPeriod := settings.namesRefreshMillis * 1000000
            bansPeriod := settings.bansRefreshMillis * 1000000 }
          now := 0
          drawDue := 0 }
        ⟨.world run, j.outputs, j.disk⟩

/-- Answers an alarm of the lists. Programs whose names are no longer allowed are taken out. -/
def ring (w : World) (d : Disk) (alarm : Admission.Alarm) : World × List Output :=
  let rung := w.gate.ring d alarm
  let w := { w with gate := rung.gate }
  let entries := rung.entry.toList.map Output.log
  match rung.reloaded with
  | none => (w, entries)
  | some names =>
    let reply := w.checkNames names
    let removed := if reply.result = 0 then [] else
      [Output.log (Log.info s!"name check removed {reply.result} program(s)")]
    (reply.world, entries ++ noticeOutputs true reply.notices ++ removed)

def ringAll (w : World) (d : Disk) : List Admission.Alarm → World × List Output
  | [] => (w, [])
  | alarm :: alarms =>
    let (w, outputs) := ring w d alarm
    let (w, more) := ringAll w d alarms
    (w, outputs ++ more)

/-- The picture of the first shard that was joined, if one is due at a time and wanted. -/
def pictures (r : WorldRun) (time : Nat) : List Output :=
  if r.options.display && r.drawDue ≤ time then
    let shard := (r.pacemakers.head?).bind fun p => r.world.shard? p.shard
    shard.toList.map fun s => drawing r.options s.battle
  else []

def drawPeriod (r : WorldRun) : Nat :=
  max r.options.speedMillis r.world.settings.roundMillis * 1000000

/-- Does everything that is due up to a time. -/
def wake (r : WorldRun) (d : Disk) (time : Nat) : Step :=
  let pictures := r.pictures time
  let drawDue := if r.drawDue ≤ time then r.drawDue + r.drawPeriod else r.drawDue
  let (alarms, reload) := r.reload.alarms time
  let (world, rung) := ringAll r.world d alarms
  let reply := Pacemaker.runAll world r.now time r.pacemakers
  let run := { r with
    world := reply.world, pacemakers := reply.result, reload, now := time, drawDue }
  ⟨.world run, pictures ++ rung ++ noticeOutputs true reply.notices, d⟩

def nextDue (r : WorldRun) : Nat :=
  let ticks := (r.pacemakers.filter (!·.stopped)).map fun p => p.due.getD r.now
  (r.reload.namesDue :: r.reload.bansDue :: ticks).foldl min r.drawDue

def interrupt (d : Disk) : Step :=
  ⟨.over 0, [.log (Log.info "Ctrl+C received, shutting down...")], d⟩

end WorldRun

/-! ### Sessions -/

namespace Session

/-- Starts the command under a name with arguments. The seed is used if none is given. -/
def start (program : String) (args : List String) (lookup : String → Option String)
    (seed : Nat) (d : Disk) : Step :=
  match args with
  | [] => ⟨.over 1, [.note (RunnerOptions.usage program)], d⟩
  | first :: _ =>
    if isHelp first then ⟨.over 0, [.note (RunnerOptions.usage program)], d⟩
    else match RunnerOptions.parse program {} args with
      | .error outputs => ⟨.over 1, outputs, d⟩
      | .ok o =>
        if o.world then WorldRun.prepare o lookup d
        else ArenaRun.prepare o (o.seed.getD seed) d

/-- When the session has to be woken next, in nanoseconds since it began, unless it is over. -/
def nextDue? : Session → Option Nat
  | .over _ => none
  | .arena r => some (r.steps * r.options.speedMillis * 1000000)
  | .world r => some r.nextDue

/-- Does what is due at a time. -/
def wake (s : Session) (d : Disk) (time : Nat) : Step :=
  match s with
  | .over _ => ⟨s, [], d⟩
  | .arena r => r.step d
  | .world r => r.wake d time

def interrupt (s : Session) (d : Disk) : Step :=
  match s with
  | .over _ => ⟨s, [], d⟩
  | .arena r => r.interrupt d
  | .world _ => WorldRun.interrupt d

end Session

end CoreArena.Command
