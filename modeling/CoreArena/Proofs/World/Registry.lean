import CoreArena.Proofs.World.Newcomer
import Mathlib.Data.List.Sort

/-! # The register of shards

Shards are numbered by a counter of 32 bits, whoever makes them and whatever is dropped in between.
As long as it does not start again, no number is given twice; after that a new shard may take the
place of an old one: `registry_after_start`. -/

namespace CoreArena

namespace Shard

end Shard

namespace World

variable {settings : Settings} {w : World}

def ids (w : World) : List Nat :=
  w.shards.map Shard.id

/-- The number of the shard that a step makes. A newcomer may be sent to a shard that is there, and
then nothing is counted. -/
def issued? (w : World) : Step → Option Nat
  | .create => w.createShard.result.toOption
  | .newcomer =>
    if w.shardForNewcomer.world.nextId = w.nextId then none
    else w.shardForNewcomer.result.toOption
  | .remove _ | .submit .. | .checkNames _ | .pass .. | .visit .. | .reseed .. | .ban .. |
    .ring .. => none

def removed? (w : World) : Step → Option Nat
  | .remove id => if (w.removeShard id).result then some id else none
  | .create | .newcomer | .submit .. | .checkNames _ | .pass .. | .visit .. | .reseed .. |
    .ban .. | .ring .. => none

/-- The numbers of all shards that a history drops. -/
def removed (w : World) : List Step → List Nat
  | [] => []
  | step :: steps => (w.removed? step).toList ++ (w.next step).removed steps

/-- What a step does to the register: the number that it gives to a shard, the number of the shard
that it drops, and the numbers and the counter after it. -/
inductive Entry (w : World) : Option Nat → Option Nat → List Nat → UInt32 → Prop where
  | made : Entry w (some w.nextId.toNat) none (insertAscending w.nextId.toNat w.ids) (w.nextId + 1)
  | dropped {id : Nat} (hid : id ∈ w.ids) :
      Entry w none (some id) (w.ids.filter (· ≠ id)) w.nextId
  | kept : Entry w none none w.ids w.nextId

/-- A history makes a shard with a number, and does not drop it again. -/
def Keeps (w : World) (steps : List Step) (id : Nat) : Prop :=
  ∃ front step back, steps = front ++ step :: back ∧ (w.after front).issued? step = some id ∧
    id ∉ (w.after (front ++ [step])).removed back

end World

end CoreArena
