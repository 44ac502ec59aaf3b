import CoreArena.Proofs.Battle.Register
import CoreArena.World.Notice

/-! # Who is credited with which deaths

A scoreboard is kept beside a battle: a death is entered when it is reported, and whoever joins
starts with nothing. In a persistent battle it lists the programs in their order, each with as many
kills as there were deaths since it joined that were blamed on its number: `board_after`. Where the
dead forget what they own, each of these deaths was that of another program on a cell of this very
instance: `Credits`. -/

namespace CoreArena

/-- The number that an event blames a death on. -/
def Event.killer? : Event → Option Nat
  | killed _ killer .. => some killer
  | _ => none

/-- The numbers that deaths are blamed on, in order. -/
def Event.killers (events : List Event) : List Nat :=
  events.filterMap killer?

namespace Score

/-- The score of a program after a death that a number is blamed for. -/
def credit (killer : Nat) (score : Score) : Score :=
  if score.id = killer then { score with kills := score.kills + 1 } else score

/-- The scores of a program that has just joined. -/
def fresh (p : Program) : Score :=
  ⟨p.id, p.name, 0⟩

/-- The scores after a report: of a death the killer gets credit, and the victim is struck out. -/
def enter (scores : List Score) : Event → List Score
  | .killed victim killer _ _ => (scores.map (credit killer)).filter (·.id ≠ victim)
  | _ => scores

/-- The scores of programs that have so many kills. -/
def table (programs : List Program) (kills : Nat → Nat) : List Score :=
  programs.map fun p => ⟨p.id, p.name, .ofNat (kills p.id)⟩

variable {programs : List Program} {kills : Nat → Nat}

theorem table_congr {kills' : Nat → Nat} (h : ∀ p ∈ programs, kills p.id = kills' p.id) :
    table programs kills = table programs kills' := by
  refine List.map_congr_left fun p hp => ?_
  rw [h p hp]

/-- A counter shows how many kills there were, until there are too many. -/
theorem toNat_kills_of_mem_table {score : Score} (hscore : score ∈ table programs kills)
    (hfew : kills score.id < 2 ^ 32) : score.kills.toNat = kills score.id := by
  obtain ⟨p, -, rfl⟩ := List.mem_map.mp hscore
  exact UInt32.toNat_ofNat_of_lt' hfew

theorem table_append (programs more : List Program) (kills : Nat → Nat) :
    table (programs ++ more) kills = table programs kills ++ table more kills :=
  List.map_append

theorem filter_table (victim : Nat) :
    (table programs kills).filter (·.id ≠ victim) =
      table (programs.filter (·.id ≠ victim)) kills := by
  rw [table, List.filter_map]
  rfl

theorem map_credit_table (killer : Nat) :
    (table programs kills).map (credit killer) =
      table programs fun id => kills id + [killer].count id := by
  rw [table, List.map_map]
  refine List.map_congr_left fun p _ => ?_
  show credit killer ⟨p.id, p.name, .ofNat (kills p.id)⟩ = _
  by_cases hp : p.id = killer
  · simp [credit, hp, UInt32.ofNat_add]
  · simp [credit, hp, Ne.symm hp]

/-- Reports strike their victims out, and each survivor is credited with the deaths it is blamed
for. -/
theorem foldl_enter_table (programs : List Program) (kills : Nat → Nat) (events : List Event) :
    events.foldl enter (table programs kills) =
      table (programs.filter (·.id ∉ Event.victims events))
        fun id => kills id + (Event.killers events).count id := by
  induction events generalizing programs kills with
  | nil => simp [Event.killers]
  | cons e events ih =>
      cases e with
      | killed victim killer reason place =>
          have hentered : enter (table programs kills) (.killed victim killer reason place) =
              table (programs.filter (·.id ≠ victim)) fun id => kills id + [killer].count id := by
            rw [enter, map_credit_table, filter_table]
          have hvictims : Event.victims (.killed victim killer reason place :: events) =
              victim :: Event.victims events := rfl
          have hkillers : Event.killers (.killed victim killer reason place :: events) =
              [killer] ++ Event.killers events := rfl
          rw [List.foldl_cons, hentered, ih, List.filter_filter, hvictims, hkillers]
          simp only [List.count_append, Nat.add_assoc, List.mem_cons, not_or, ← Bool.decide_and,
            and_comm]
      | read | written | cycle | foreign => exact ih programs kills

end Score

namespace Battle

variable {b : Battle} {s : Step} {index : Nat}

def programs (b : Battle) : List Program :=
  b.warriors.map Warrior.program

/-- The programs that a step lets in. -/
def admits (b : Battle) : Step → List Program
  | .install p address =>
    match b.install p address with
    | .ok _ => [p]
    | .error _ => []
  | .advance | .kill _ | .killById _ | .poke .. => []

theorem map_id_programs (b : Battle) : b.programs.map Program.id = b.warriors.map Warrior.id := by
  rw [programs, List.map_map]
  rfl

theorem Invariant.mem_ids_of_mem_programs (h : b.Invariant) {p : Program} (hp : p ∈ b.programs) :
    p.id ∈ b.ids := by
  rw [← h.map_id_warriors, ← map_id_programs]
  exact List.mem_map_of_mem hp

/-- Who is taken out from a place is struck out by its number. -/
theorem Roster.eraseIdx_programs (h : b.Roster) {g : PointerGroup}
    (hget : b.groups[index]? = some g) :
    (b.warriors.eraseIdx index).map Warrior.program = b.programs.filter (·.id ∉ [g.id]) := by
  obtain ⟨w, hw, hid⟩ := h.exists_warrior hget
  have hnodup : (b.programs.map Program.id).Nodup := by
    rw [map_id_programs, h.ids_eq]
    exact h.ids_nodup
  have hplace : b.programs[index]? = some w.program := by
    rw [programs, List.getElem?_map, hw, Option.map_some]
  have herased : (b.warriors.eraseIdx index).map Warrior.program = b.programs.eraseIdx index :=
    (List.eraseIdx_map ..).symm
  have hid : w.program.id = g.id := hid
  rw [herased, eraseIdx_eq_filter hnodup hplace, hid]
  simp only [List.mem_singleton]

theorem Roster.programs_kill (h : b.Roster) (index : Nat) :
    (b.kill index).battle.programs =
      b.programs.filter (·.id ∉ Event.victims (b.kill index).events) := by
  cases hget : b.groups[index]? with
  | none =>
      rw [kill_of_length_le (List.getElem?_eq_none_iff.mp hget)]
      simp
  | some g =>
      rw [kill_of_getElem? hget]
      exact h.eraseIdx_programs hget

theorem Invariant.programs_advance (h : b.Invariant) (hforever : b.rules.runForever = true) :
    b.advance.battle.programs = b.programs.filter (·.id ∉ Event.victims b.advance.events) := by
  have hadvance := h.advance
  generalize b.advance = a at hadvance ⊢
  cases hadvance with
  | idle => simp
  | moved _ hrun =>
      rw [victims_of_run hrun]
      simp [programs]
  | @died index id position reason track hplayer hrun =>
      rw [Event.victims_append, victims_of_run hrun, events_bury, programs, battle_bury]
      rw [if_pos (show (b.fallen index id track.arena).rules.runForever = true from hforever)]
      exact h.eraseIdx_programs hplayer.group

/-- In a persistent battle a step strikes out those it reports dead, and lets others in. -/
theorem Invariant.programs_next (h : b.Invariant) (hforever : b.rules.runForever = true)
    (s : Step) :
    (b.next s).programs =
      b.programs.filter (·.id ∉ Event.victims (b.reports s)) ++ b.admits s := by
  cases s with
  | install p address =>
      rw [admits, reports, Battle.next]
      cases hinstall : b.install p address with
      | error => simp [Except.toOption]
      | ok c =>
          obtain ⟨-, -, -, -, rfl⟩ := install_eq_ok_iff.mp hinstall
          simp [Except.toOption, programs]
  | advance =>
      rw [admits, List.append_nil]
      exact h.programs_advance hforever
  | kill index =>
      rw [admits, List.append_nil]
      exact h.programs_kill index
  | killById id =>
      show (b.killById id).battle.programs =
        b.programs.filter (·.id ∉ Event.victims (b.killById id).events) ++ []
      rw [killById_eq_kill, List.append_nil]
      exact h.programs_kill _
  | poke address w =>
      show b.programs = b.programs.filter (·.id ∉ []) ++ []
      simp

theorem install_of_admits {p : Program} (hp : p ∈ b.admits s) :
    ∃ address c, s = .install p address ∧ b.install p address = .ok c := by
  cases s with
  | install q address =>
      rw [admits] at hp
      split at hp
      · cases List.mem_singleton.mp hp
        exact ⟨address, _, rfl, ‹_›⟩
      · cases hp
  | advance | kill | killById | poke => cases hp

theorem not_mem_ids_of_admits (h : b.Invariant) {p : Program} (hp : p ∈ b.admits s) :
    p.id ∉ b.ids := by
  obtain ⟨address, c, -, hinstall⟩ := install_of_admits hp
  exact h.toRoster.not_mem_ids (install_eq_ok_iff.mp hinstall).2.2.2.1

/-- In a persistent battle, numbers of programs are of a kind while only such are let in. -/
theorem Invariant.ids_next_subset (h : b.Invariant) (hforever : b.rules.runForever = true)
    {names : List Nat} (hids : b.ids ⊆ names)
    (hs : ∀ p address, s = .install p address → p.id ∈ names) : (b.next s).ids ⊆ names := by
  intro id hid
  rw [← (h.next s).map_id_warriors, ← map_id_programs, h.programs_next hforever] at hid
  obtain ⟨p, hp, rfl⟩ := List.mem_map.mp hid
  rcases List.mem_append.mp hp with hold | hnew
  · exact hids (h.mem_ids_of_mem_programs (List.mem_of_mem_filter hold))
  · obtain ⟨address, -, hinstall, -⟩ := install_of_admits hnew
    exact hs p address hinstall

/-- Cells of a persistent battle know no other numbers than those of programs let in. -/
theorem Invariant.ownedBy_after (h : b.Invariant) (hforever : b.rules.runForever = true)
    {names : List Nat} (hids : b.ids ⊆ names) (hb : b.arena.OwnedBy names) {steps : List Step}
    (hsteps : ∀ p address, .install p address ∈ steps → p.id ∈ names) :
    (b.after steps).arena.OwnedBy names := by
  induction steps generalizing b with
  | nil => exact hb
  | cons s steps ih =>
      have hnext := h.ids_next_subset hforever hids fun p address hs =>
        hsteps p address (hs ▸ List.mem_cons_self)
      refine ih (h.next s) ?_ hnext (h.ownedBy_next hb hids hnext) fun p address hlater =>
        hsteps p address (List.mem_cons_of_mem s hlater)
      rwa [h.rules_next s]

end Battle

/-! ## Credits -/

namespace Register

open Battle

variable {g : Register} {s : Step} {log : List Death}

/-- How many of the deaths were blamed on a number since the instance that has it joined. -/
def kills (g : Register) (log : List Death) (id : Nat) : Nat :=
  log.countP fun d => decide (g.chronicle.birth id < d.time) && d.killer == id

/-- A log of deaths is over, and those that count for a program were rightly blamed on it: another
program died, on a cell that was last attributed to this very instance. -/
structure Credits (g : Register) (log : List Death) : Prop where
  time_lt : ∀ d ∈ log, d.time < g.chronicle.clock
  earned : ∀ d ∈ log, d.killer ≠ 0 → g.chronicle.birth d.killer < d.time →
    d.victim.id ≠ d.killer ∧ d.holder = some (g.chronicle.stay d.killer)

theorem credits_nil (g : Register) : g.Credits [] :=
  ⟨fun _ hd => absurd hd List.not_mem_nil, fun _ hd => absurd hd List.not_mem_nil⟩

theorem birth_next_of_mem {id : Nat} (hid : id ∈ g.battle.ids) :
    (g.next s).chronicle.birth id = g.chronicle.birth id :=
  if_pos hid

theorem birth_next_of_not_mem {id : Nat} (hid : id ∉ g.battle.ids) :
    (g.next s).chronicle.birth id = g.chronicle.clock :=
  if_neg hid

theorem time_of_mem_deathsAt {d : Death} (hd : d ∈ g.deathsAt s) : d.time = g.chronicle.clock := by
  obtain ⟨e, -, hdeath⟩ := List.mem_filterMap.mp hd
  cases e with
  | killed =>
      cases hdeath
      rfl
  | read | written | cycle | foreign => cases hdeath

theorem map_killer_deathsAt (g : Register) (s : Step) :
    (g.deathsAt s).map Death.killer = Event.killers (g.battle.reports s) := by
  rw [deathsAt, List.map_filterMap, Event.killers]
  congr 1
  funext e
  cases e <;> rfl

/-- A step keeps that deaths are rightly blamed. -/
theorem Credits.next (hg : g.Faithful) (h : g.Credits log) (s : Step) :
    (g.next s).Credits (log ++ g.deathsAt s) where
  time_lt d hd := by
    rcases List.mem_append.mp hd with hold | hnew
    · exact Nat.lt_succ_of_lt (h.time_lt d hold)
    · rw [time_of_mem_deathsAt hnew]
      exact Nat.lt_succ_self _
  earned d hd hkiller hsince := by
    rcases List.mem_append.mp hd with hold | hnew
    · by_cases hid : d.killer ∈ g.battle.ids
      · have hstay : (g.next s).chronicle.stay d.killer = g.chronicle.stay d.killer := by
          rw [Chronicle.stay, birth_next_of_mem hid]
          rfl
        rw [birth_next_of_mem hid] at hsince
        rw [hstay]
        exact h.earned d hold hkiller hsince
      · -- Whoever has the number by now has joined after the death.
        rw [birth_next_of_not_mem hid] at hsince
        exact absurd (h.time_lt d hold) (Nat.not_lt_of_lt hsince)
    · obtain ⟨-, hid, hother, hholder⟩ := hg.of_mem_deathsAt hnew hkiller
      refine ⟨hother, hholder.trans ?_⟩
      rw [Chronicle.stay, Chronicle.stay, birth_next_of_mem hid]

/-- Whoever is there before a step is credited with the deaths that the step blames on it. -/
theorem kills_next_of_mem (hg : g.chronicle.Sound) {id : Nat} (hid : id ∈ g.battle.ids) :
    (g.next s).kills (log ++ g.deathsAt s) id =
      g.kills log id + (Event.killers (g.battle.reports s)).count id := by
  have hbirth : g.chronicle.birth id < g.chronicle.clock := hg.birth_lt id hid
  rw [kills, kills, birth_next_of_mem hid, List.countP_append, ← map_killer_deathsAt, List.count,
    List.countP_map]
  congr 1
  refine List.countP_congr fun d hd => ?_
  simp [time_of_mem_deathsAt hd, hbirth]

/-- Whoever joins at a step has no kills. -/
theorem kills_next_of_not_mem (h : g.Credits log) {id : Nat} (hid : id ∉ g.battle.ids) :
    (g.next s).kills (log ++ g.deathsAt s) id = 0 := by
  rw [kills, birth_next_of_not_mem hid, List.countP_eq_zero]
  intro d hd
  have hle : d.time ≤ g.chronicle.clock := by
    rcases List.mem_append.mp hd with hold | hnew
    · exact Nat.le_of_lt (h.time_lt d hold)
    · exact Nat.le_of_eq (time_of_mem_deathsAt hnew)
  simp [Nat.not_lt.mpr hle]

end Register

/-! ## Scoreboards -/

/-- A battle and the scores of its programs. -/
structure Scoreboard where
  battle : Battle
  scores : List Score

namespace Scoreboard

open Battle

/-- The scoreboard after a step: the deaths are entered, then those who joined are added. -/
def next (b : Scoreboard) (s : Step) : Scoreboard where
  battle := b.battle.next s
  scores := (b.battle.reports s).foldl Score.enter b.scores ++ (b.battle.admits s).map Score.fresh

def after (b : Scoreboard) : List Step → Scoreboard
  | [] => b
  | s :: steps => (b.next s).after steps

@[simp] theorem after_nil (b : Scoreboard) : b.after [] = b := rfl

@[simp] theorem after_cons (b : Scoreboard) (s : Step) (steps : List Step) :
    b.after (s :: steps) = (b.next s).after steps := rfl

theorem after_append (b : Scoreboard) (steps more : List Step) :
    b.after (steps ++ more) = (b.after steps).after more := by
  induction steps generalizing b with
  | nil => rfl
  | cons s steps ih => exact ih (b.next s)

variable {b : Scoreboard}

/-- The scores are those of the programs, in their order. -/
def Lists (b : Scoreboard) : Prop :=
  ∃ kills, b.scores = Score.table b.battle.programs kills

theorem Lists.map_name_scores (h : b.Lists) :
    b.scores.map Score.name = b.battle.programs.map Program.name := by
  obtain ⟨kills, hscores⟩ := h
  rw [hscores, Score.table, List.map_map]
  rfl

/-- Whoever is there before a step is credited with the deaths that the step blames on it, and
whoever joins at it has no kills. -/
theorem scores_next (hb : b.battle.Invariant) (hforever : b.battle.rules.runForever = true)
    {kills kills' : Nat → Nat} (hscores : b.scores = Score.table b.battle.programs kills)
    (s : Step)
    (hthere : ∀ id ∈ b.battle.ids,
      kills' id = kills id + (Event.killers (b.battle.reports s)).count id)
    (hjoined : ∀ id ∉ b.battle.ids, kills' id = 0) :
    (b.next s).scores = Score.table (b.battle.next s).programs kills' := by
  show (b.battle.reports s).foldl Score.enter b.scores ++ (b.battle.admits s).map Score.fresh = _
  rw [hscores, Score.foldl_enter_table, hb.programs_next hforever s, Score.table_append]
  congr 1
  · refine Score.table_congr fun p hp => ?_
    exact (hthere p.id (hb.mem_ids_of_mem_programs (List.mem_of_mem_filter hp))).symm
  · refine List.map_congr_left fun p hp => ?_
    rw [hjoined p.id (not_mem_ids_of_admits hb hp)]
    rfl

theorem Lists.next (h : b.Lists) (hb : b.battle.Invariant)
    (hforever : b.battle.rules.runForever = true) (s : Step) : (b.next s).Lists := by
  obtain ⟨kills, hscores⟩ := h
  let killers := Event.killers (b.battle.reports s)
  refine ⟨fun id => if id ∈ b.battle.ids then kills id + killers.count id else 0, ?_⟩
  apply scores_next hb hforever hscores s
  · intro id hid
    exact if_pos hid
  · intro id hid
    exact if_neg hid

theorem Lists.after (h : b.Lists) (hb : b.battle.Invariant)
    (hforever : b.battle.rules.runForever = true) (steps : List Step) : (b.after steps).Lists := by
  induction steps generalizing b with
  | nil => exact h
  | cons s steps ih =>
      refine ih (h.next hb hforever s) (hb.next s) ?_
      rwa [show (b.next s).battle.rules = _ from hb.rules_next s]

end Scoreboard

namespace Register

open Battle

variable {g : Register} {log : List Death}

/-- The scoreboard that lists the kills of all programs in their order. -/
def board (g : Register) (log : List Death) : Scoreboard :=
  ⟨g.battle, Score.table g.battle.programs (g.kills log)⟩

theorem board_next (hg : g.Faithful) (hforever : g.battle.rules.runForever = true)
    (h : g.Credits log) (s : Step) :
    (g.board log).next s = (g.next s).board (log ++ g.deathsAt s) := by
  refine congrArg (Scoreboard.mk (g.battle.next s)) ?_
  apply Scoreboard.scores_next hg.sound.battle hforever rfl s
  · intro id hid
    exact kills_next_of_mem hg.sound hid
  · intro id hid
    exact kills_next_of_not_mem h hid

/-- In a persistent battle a scoreboard goes on to list the programs in their order, each with the
deaths since it joined that were blamed on it. -/
theorem board_after (hg : g.Faithful) (hforever : g.battle.rules.runForever = true)
    (h : g.Credits log) (steps : List Step) :
    (g.board log).after steps = (g.after steps).board (log ++ g.deaths steps) := by
  induction steps generalizing g log with
  | nil => rw [deaths_nil, List.append_nil, Scoreboard.after_nil, after_nil]
  | cons s steps ih =>
      have hrules : (g.next s).battle.rules.runForever = true := by
        rwa [show (g.next s).battle.rules = _ from hg.sound.battle.rules_next s]
      rw [Scoreboard.after_cons, board_next hg hforever h, ih (hg.next s) hrules (h.next hg s),
        deaths_cons, List.append_assoc, after_cons]

theorem Credits.after (hg : g.Faithful) (h : g.Credits log) (steps : List Step) :
    (g.after steps).Credits (log ++ g.deaths steps) := by
  induction steps generalizing g log with
  | nil => rwa [deaths_nil, List.append_nil]
  | cons s steps ih =>
      rw [deaths_cons, ← List.append_assoc]
      exact ih (hg.next s) (h.next hg s)

end Register

end CoreArena
