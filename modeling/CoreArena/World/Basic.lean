import CoreArena.Admission.Gate
import CoreArena.World.Archive
import CoreArena.World.Settings

/-! A world: the shards of a server and the gate they share. -/

namespace CoreArena

def friendlyWords : List String :=
  ["AMAROK", "BECK", "COCOON", "DECIBEL", "ELEMENT", "FJORD", "GIST", "HILDA", "INCUBUS",
    "JANUARY", "KINO", "LIMESTONE", "MYRIAD"]

/-- The name that a shard is shown with. Beyond the last word the number is added. -/
def friendlyName (id : Nat) : String :=
  let word := friendlyWords.getD (id % friendlyWords.length) ""
  if id < friendlyWords.length then word else s!"{word}_{id}"

inductive WorldError where
  | shardLimit (max : Nat)
  | unknownShard (id : Nat)
  | shard (cause : ShardError)
  deriving DecidableEq, Repr

def WorldError.message : WorldError → String
  | shardLimit max => s!"cannot create more than {max} shards"
  | unknownShard id => s!"no shard with id {id}"
  | shard cause => cause.message

structure Submission where
  name : String
  author : String
  source : String
  /-- Where it came from. -/
  address : Option String
  deriving DecidableEq, Repr

/-- The shards of a server. -/
structure World where
  settings : Settings
  /-- In the order of their numbers. -/
  shards : List Shard
  /-- The number of the next shard. After the last number of 32 bits comes zero. -/
  nextId : UInt32
  gate : Admission.Gate

structure WorldReply (α : Type) where
  result : α
  world : World
  notices : List Notice

namespace World

def start (settings : Settings) (gate : Admission.Gate) : World :=
  ⟨settings, [], 1, gate⟩

def shard? (w : World) (id : Nat) : Option Shard :=
  w.shards.find? (·.id == id)

/-- Puts a shard in place of the one with its number. -/
def putShard (w : World) (s : Shard) : World :=
  { w with shards := w.shards.map fun old => if old.id = s.id then s else old }

def archive? (w : World) : Option Archive :=
  w.settings.archive.map Archive.mk

/-! ### Shards -/

/-- Puts a shard at its place among others in the order of their numbers. One that has its number
makes way. -/
def enroll (s : Shard) : List Shard → List Shard
  | [] => [s]
  | t :: ts =>
    if s.id = t.id then s :: ts
    else if s.id < t.id then s :: t :: ts
    else t :: enroll s ts

/-- Makes a shard with the next number. -/
def createShard (w : World) : WorldReply (Except WorldError Nat) :=
  if w.shards.length ≥ w.settings.maxShards then
    ⟨.error (.shardLimit w.settings.maxShards), w, []⟩
  else
    let id := w.nextId.toNat
    let s := Shard.start id w.settings.rules w.settings.maxPrograms w.settings.maxNameLength
      (.ofSeed (.ofNat id))
    ⟨.ok id, { w with shards := enroll s w.shards, nextId := w.nextId + 1 },
      [.log (Log.info s!"created shard {id} ({friendlyName id})")]⟩

def removeShard (w : World) (id : Nat) : WorldReply Bool :=
  if (w.shard? id).isSome then
    ⟨true, { w with shards := w.shards.filter (·.id ≠ id) },
      [.log (Log.info s!"removed shard {id} ({friendlyName id})")]⟩
  else ⟨false, w, []⟩

/-- What players are told of a shard. -/
structure Listed where
  id : Nat
  name : String
  players : Nat
  deriving DecidableEq, Repr

/-- Every shard, in the order of their numbers. -/
def list (w : World) : List Listed :=
  w.shards.map fun s => ⟨s.id, friendlyName s.id, s.playerCount⟩

/-- Shards with fewer players than this are preferred for newcomers. -/
def desirablePlayers : Nat := 8

/-- The shard that a new player is sent to: a quiet one, else a new one, else any that has room. -/
def shardForNewcomer (w : World) : WorldReply (Except WorldError Nat) :=
  match w.shards.find? (·.playerCount < desirablePlayers) with
  | some s => ⟨.ok s.id, w, []⟩
  | none =>
    let created := w.createShard
    match created.result with
    | .ok _ => created
    | .error cause =>
      match w.shards.find? (·.playerCount < w.settings.maxPrograms) with
      | some s => ⟨.ok s.id, w, []⟩
      | none =>
        ⟨.error cause, w, [.log (Log.warn
          s!"every shard is full and the limit of {w.settings.maxShards} shards is reached")]⟩

/-! ### Programs -/

def archiveNotices (name : String) : Except FileError String → List Notice
  | .ok _ => []
  | .error e => [.log (Log.warn s!"could not capture `{name}`: {e.message}")]

def archiveAccepted (w : World) (d : Disk) (sub : Submission) (bytes : List UInt8) :
    Disk × List Notice :=
  match w.archive? with
  | none => (d, [])
  | some a =>
    let (kept, d) := a.keepAccepted d sub.name sub.author sub.source bytes
    (d, archiveNotices sub.name kept)

def archiveRefused (w : World) (d : Disk) (sub : Submission) (reason : String) :
    Disk × List Notice :=
  match w.archive? with
  | none => (d, [])
  | some a =>
    let (kept, d) := a.keepRefused d sub.name sub.author sub.source reason
    (d, archiveNotices sub.name kept)

/-- Bans the address of a submission if the cause of its refusal is worth it. -/
def banSubmitter (w : World) (d : Disk) (sub : Submission) (cause : Admission.Rejection) :
    World × Disk × List Notice :=
  match sub.address.filter fun _ => cause.shouldBan with
  | none => (w, d, [])
  | some address =>
    match w.gate.ban d address with
    | .error e =>
      (w, d, [.log (Log.warn s!"could not ban {address}: {e.message}")])
    | .ok (isNew, gate, d) =>
      ({ w with gate }, d, if isNew then [.log (Admission.Gate.banEntry address)] else [])

/-- Installs a player's program in a shard. Every program that is assembled or screened is
archived, and the author of a worm is banned. -/
def submit (w : World) (d : Disk) (id : Nat) (sub : Submission) :
    WorldReply (Except WorldError Installed) × Disk :=
  match w.shard? id with
  | none => (⟨.error (.unknownShard id), w, []⟩, d)
  | some s =>
    let reply := s.install sub.name sub.source (some w.gate.filter) sub.address
    let w := w.putShard reply.shard
    match reply.result with
    | .ok installed =>
      let (d, notices) := w.archiveAccepted d sub installed.bytecode
      (⟨.ok installed, w, reply.notices ++ notices⟩, d)
    | .error (.rejected cause) =>
      let entry := Log.warn s!"shard {id}: refused `{sub.name}`: {cause.message}"
      let (w, d, banned) := w.banSubmitter d sub cause
      let (d, notices) := w.archiveRefused d sub cause.message
      (⟨.error (.shard (.rejected cause)), w,
        reply.notices ++ .log entry :: banned ++ notices⟩, d)
    | .error (.assembly cause) =>
      let (d, notices) := w.archiveRefused d sub cause.message
      (⟨.error (.shard (.assembly cause)), w, reply.notices ++ notices⟩, d)
    | .error cause => (⟨.error (.shard cause), w, reply.notices⟩, d)

/-- Takes out every program whose name is rejected, in all shards. Tells how many there were. -/
def checkNames (w : World) (names : Admission.NameMatcher) : WorldReply Nat :=
  let replies := w.shards.map (·.checkNames names)
  ⟨replies.foldl (fun n reply => n + reply.result.length) 0,
    { w with shards := replies.map (·.shard) }, replies.flatMap (·.notices)⟩

def pass (w : World) (id ticks : Nat) : WorldReply (Option (List (Nat × Delta))) :=
  match w.shard? id with
  | none => ⟨none, w, []⟩
  | some s =>
    let reply := s.passMany ticks
    ⟨some reply.result, w.putShard reply.shard, reply.notices⟩

end World

end CoreArena
