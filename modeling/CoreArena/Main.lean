import CoreArena.Command.Assembler
import CoreArena.Command.Runner

/-! The commands at a terminal.

A command works on a picture of the files that its arguments and variables name, and what it
changed is then written. The first argument may name the command: `assembler`, or `corewar`, which
is meant if none is named. An interrupt just ends the process. -/

namespace CoreArena.Command

/-- The variables that commands look up. -/
def settingKeys : List String :=
  ["TERM", "NO_COLOR", "COREWAR_LOG", "COREWAR_MAX_PROGRAMS", "COREWAR_MAX_SHARDS",
    "COREWAR_MAX_NAME_LENGTH", "COREWAR_BYSTANDERS", "COREWAR_BYSTANDER_INTERVAL",
    "COREWAR_CORE_SPEED_MS", "COREWAR_CAPTURE_DIR", "COREWAR_NAMES_FILE", "COREWAR_BANS_FILE"]

def environment : IO (String → Option String) := do
  let found ← settingKeys.filterMapM fun key => return (← IO.getEnv key).map (key, ·)
  return fun key => found.lookup key

/-! ### Files -/

/-- The places that names lead through. -/
def visited (place : List String) : List String → List (List String)
  | [] => [place]
  | name :: names =>
    place :: visited
      (if Path.isIdle name then place
        else if name = ".." then place.dropLast
        else place ++ [name]) names

def pathOf (place : List String) : String :=
  "/" ++ "/".intercalate place

/-- Looks up what stands at a place. -/
def look (place : List String) : IO (Option Node) := do
  let path := (← IO.currentDir) / pathOf place
  if ← path.isDir then return some .directory
  unless ← path.pathExists do return none
  try return some (.file (← IO.FS.readBinFile path))
  catch _ => return some .locked

/-- A picture of the files that paths lead to. -/
def pictureOf (paths : List String) : IO Disk := do
  let home := (Path.names (← IO.currentDir).toString).filter (!Path.isIdle ·)
  let d : Disk := { entries := [], home }
  let places := paths.flatMap fun path => visited (d.origin path) (Path.names path)
  (home :: places).foldlM (fun d place => do
    if (d.node? place).isSome then return d
    return (← look place).elim d (d.put place)) d

/-- Writes what is new in a picture. -/
def writeChanges (old new : Disk) : IO Unit := do
  let base ← IO.currentDir
  for (place, node) in new.entries.reverse do
    unless (old.node? place).any node.same do
      match node with
      | .directory => IO.FS.createDirAll (base / pathOf place)
      | .file content => IO.FS.writeBinFile (base / pathOf place) content
      | .locked => return

/-! ### Commands -/

def emit (console : Console) (outputs : List Output) : IO Unit := do
  let stdout ← IO.getStdout
  let stderr ← IO.getStderr
  for output in outputs do
    stderr.putStr (console.errorText output)
    stdout.putStr (console.outputText output)
  stdout.flush
  stderr.flush

def assemblerMain (args : List String) : IO UInt32 := do
  let lookup ← environment
  let disk ← pictureOf (args ++ args.map Assembler.defaultOutput)
  let finished := Assembler.run "assembler" args disk
  writeChanges disk finished.disk
  emit (.ofLookup lookup) finished.outputs
  return .ofNat finished.code

/-- The paths that a world may ask for when programs are sent to it. -/
def worldPaths (s : Settings) (args : List String) : List String :=
  let archived := s.archive.toList.flatMap fun directory =>
    args.flatMap fun arg =>
      let stem := Archive.stem (Path.fileStem arg) "local"
      [Path.join directory (stem ++ ".src"), Path.join directory (stem ++ ".bin"),
        Path.join (Archive.refusedDirectory ⟨directory⟩) (stem ++ ".src")]
  [s.namesPath, s.bansPath] ++ archived

/-- The paths that a session asks for again and again. -/
def Session.watched : Session → List String
  | .world run => [run.world.settings.namesPath, run.world.settings.bansPath]
  | _ => []

/-- Wakes a session whenever something is due, until it is over. Times count from the given one. -/
partial def attend (console : Console) (began : Nat) (session : Session) : IO UInt32 := do
  match session, session.nextDue? with
  | .over code, _ => return .ofNat code
  | _, due =>
    let due := due.getD 0
    let now := (← IO.monoNanosNow) - began
    if now < due then
      IO.sleep (.ofNat ((due - now) / 1000000 + 1))
      attend console began session
    else
      let disk ← pictureOf session.watched
      let step := session.wake disk due
      emit console step.outputs
      writeChanges disk step.disk
      attend console began step.session

def runnerMain (args : List String) : IO UInt32 := do
  let lookup ← environment
  let console := Console.ofLookup lookup
  let disk ← pictureOf (args ++ worldPaths (Settings.ofLookup lookup).1 args)
  let step := Session.start "corewar" args lookup (← IO.rand 0 (UInt32.size - 1)) disk
  emit console step.outputs
  writeChanges disk step.disk
  attend console (← IO.monoNanosNow) step.session

end CoreArena.Command

open CoreArena.Command in
def main : List String → IO UInt32
  | "assembler" :: args => assemblerMain args
  | "corewar" :: args => runnerMain args
  | args => runnerMain args
