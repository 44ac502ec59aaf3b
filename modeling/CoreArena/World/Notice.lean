import CoreArena.Battle.Event

/-! What a shard tells those who watch it. -/

namespace CoreArena

/-- Where a number is told, a counter tells the number that it shows. -/
instance coeCounter : CoeOut UInt32 Nat := ⟨UInt32.toNat⟩

/-- How many programs a living program has killed. -/
structure Score where
  id : Nat
  name : String
  /-- After the last number of 32 bits it starts from zero again. -/
  kills : UInt32
  deriving DecidableEq, Repr

/-- Cells whose summary changed, in ascending order, with their new summaries. -/
abbrev Delta := List (Nat × Nat)

/-- Something to tell, in the order in which it happened. -/
inductive Notice where
  /-- A message for the operator. -/
  | log (entry : Log.Entry)
  /-- The scores of a shard changed to these. -/
  | scores (shard : Nat) (table : List Score)
  /-- A program of a shard played. -/
  | ticked (shard : Nat) (delta : Delta)
  deriving DecidableEq, Repr

namespace Notice

def isScores : Notice → Bool
  | scores .. => true
  | _ => false

def isTicked : Notice → Bool
  | ticked .. => true
  | _ => false

def ofEvents (events : List Event) : List Notice :=
  events.filterMap fun e => e.entry?.map .log

end Notice

end CoreArena
