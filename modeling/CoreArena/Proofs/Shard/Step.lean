import CoreArena.World.Shard.Lemmas

/-! # Histories of a shard

Players submit programs, the clock ticks, and operators take programs out, check names or ask for
bystanders, in any order. A history is a list of such steps; `after` is the shard at its end. -/

namespace CoreArena.Shard

/-- Something that happens to a shard. -/
inductive Step where
  | install (name source : String) (filter : Option Admission.Filter) (address : Option String)
  | pass
  | kill (id : Nat)
  | checkNames (names : Admission.NameMatcher)
  | repopulate

/-- The shard after a step, whether the step succeeds or not. -/
def next (s : Shard) : Step → Shard
  | .install name source filter address => (s.install name source filter address).shard
  | .pass => s.pass.shard
  | .kill id => (s.kill id).shard
  | .checkNames names => (s.checkNames names).shard
  | .repopulate => s.repopulate.shard

def after (s : Shard) : List Step → Shard
  | [] => s
  | step :: steps => (s.next step).after steps

@[simp] theorem after_nil (s : Shard) : s.after [] = s := rfl

@[simp] theorem after_cons (s : Shard) (step : Step) (steps : List Step) :
    s.after (step :: steps) = (s.next step).after steps := rfl

/-- What every step keeps, every history keeps. -/
theorem after_induction {P : Shard → Prop} (hnext : ∀ s step, P s → P (s.next step)) {s : Shard}
    (hs : P s) (steps : List Step) : P (s.after steps) := by
  induction steps generalizing s with
  | nil => exact hs
  | cons step steps ih => exact ih (hnext s step hs)

end CoreArena.Shard
