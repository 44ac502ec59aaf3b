import CoreArena.World.Basic

/-! Keeping shards ticking.

A pacemaker ticks one shard at once when it is first looked after, then after every period, and
stops at its first tick after the shard is gone. Time is in nanoseconds. -/

namespace CoreArena

/-- What keeps a shard ticking. -/
structure Pacemaker where
  shard : Nat
  /-- When it ticks next, once it has been looked after. -/
  due : Option Nat
  stopped : Bool
  deriving DecidableEq, Repr

namespace Pacemaker

def start? (w : World) (id : Nat) : Except WorldError Pacemaker :=
  if (w.shard? id).isSome then .ok ⟨id, none, false⟩ else .error (.unknownShard id)

/-- How often a pacemaker ticks up to a time, being looked after since another. -/
def ticksUntil (p : Pacemaker) (period since time : Nat) : Nat :=
  let due := p.due.getD since
  if time < due then 0 else (time - due) / max 1 period + 1

/-- Looks after a pacemaker from one time up to another. -/
def runUntil (p : Pacemaker) (w : World) (since time : Nat) : WorldReply Pacemaker :=
  let period := w.settings.tickNanos
  let ticks := p.ticksUntil period since time
  if p.stopped || ticks == 0 then ⟨p, w, []⟩
  else if (w.shard? p.shard).isNone then
    ⟨{ p with stopped := true }, w,
      [.log (Log.info s!"shard {p.shard} is gone, stopping its driver")]⟩
  else
    let reply := w.pass p.shard ticks
    ⟨{ p with due := some (p.due.getD since + ticks * max 1 period) }, reply.world,
      reply.notices⟩

def runAll (w : World) (since time : Nat) : List Pacemaker → WorldReply (List Pacemaker)
  | [] => ⟨[], w, []⟩
  | p :: ps =>
    let first := p.runUntil w since time
    let rest := runAll first.world since time ps
    ⟨first.result :: rest.result, rest.world, first.notices ++ rest.notices⟩

end Pacemaker

end CoreArena
