import CoreArena.Admission.Gate

/-! Reading the lists of a gate again from time to time.

A list is read first and taken over then. Others may come between.
Names and bans have a period each. Both are due when the clock starts and then after every period.
Time is a number of any unit. -/

namespace CoreArena.Admission

inductive Alarm where
  | names
  | bans
  deriving DecidableEq, Repr

/-- The alarm clock of a gate. -/
structure Reload where
  namesPeriod : Nat
  bansPeriod : Nat
  /-- When the names are due next. -/
  namesDue : Nat := 0
  /-- When the bans are due next. -/
  bansDue : Nat := 0
  deriving DecidableEq, Repr

namespace Reload

/-- Sets the clock to its next alarm up to a time, which it tells. Of two at once, that of the
names comes first. -/
def next? (r : Reload) (time : Nat) : Option (Alarm × Reload) :=
  if r.namesDue ≤ time && r.namesDue ≤ r.bansDue then
    some (.names, { r with namesDue := r.namesDue + max 1 r.namesPeriod })
  else if r.bansDue ≤ time then
    some (.bans, { r with bansDue := r.bansDue + max 1 r.bansPeriod })
  else none

/-- All alarms up to a time, and the clock after them. -/
def alarms (r : Reload) (time : Nat) : List Alarm × Reload :=
  match _h : r.next? time with
  | none => ([], r)
  | some (alarm, r') =>
    let (rest, last) := r'.alarms time
    (alarm :: rest, last)
termination_by (time + 1 - r.namesDue) + (time + 1 - r.bansDue)
decreasing_by
  unfold next? at _h
  split at _h
  · next hd =>
    simp only [Option.some.injEq, Prod.mk.injEq] at _h
    simp only [Bool.and_eq_true, decide_eq_true_eq] at hd
    rw [← _h.2]
    simp only
    omega
  · split at _h
    · next hd =>
      simp only [Option.some.injEq, Prod.mk.injEq] at _h
      rw [← _h.2]
      simp only
      omega
    · simp at _h

end Reload

/-- What was read for an alarm, or why nothing could be read. -/
structure Reading where
  alarm : Alarm
  text : Except FileError (Option String)

structure Rung where
  gate : Gate
  entry : Option Log.Entry
  /-- The names to check running programs against, if they were read. -/
  reloaded : Option NameMatcher

namespace Gate

/-- Reads the list that is due. -/
def read (g : Gate) (d : Disk) : Alarm → Reading
  | .names => ⟨.names, contents? d g.namesPath⟩
  | .bans => ⟨.bans, contents? d g.bansPath⟩

/-- Takes over a list that was read, however long ago. One that could not be read stays as it is. -/
def takeOver (g : Gate) : Reading → Rung
  | ⟨.names, .ok text⟩ =>
    let g := g.installNames text
    ⟨g, some (Log.debug "name list refreshed"), some g.filter.names⟩
  | ⟨.names, .error e⟩ =>
    ⟨g, some (Log.warn s!"could not refresh name list: {e.message}"), none⟩
  | ⟨.bans, .ok text⟩ => ⟨g.installBans text, none, none⟩
  | ⟨.bans, .error e⟩ =>
    ⟨g, some (Log.warn s!"could not refresh ban list: {e.message}"), none⟩

/-- Answers an alarm at once. -/
def ring (g : Gate) (d : Disk) (alarm : Alarm) : Rung :=
  g.takeOver (g.read d alarm)

end Gate

end CoreArena.Admission
