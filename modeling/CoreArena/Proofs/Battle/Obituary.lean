import CoreArena.Proofs.Battle.Exhaustion
import CoreArena.Proofs.Battle.Fairness
import CoreArena.Proofs.Battle.Rota

/-! # How often a death is reported

A program is reported dead when it loses its last pointer. In a tournament its body stays in the
arena, and when that is taken out the program is reported dead once more:
`reported_once_unless_exhumed`. -/

namespace CoreArena

/-- How the roll of programs may change, each of which is there dead or alive, and who is reported
dead. Nobody joins who has been there before. -/
inductive RollCall {α : Type} (old : α → Prop) :
    List (α × Bool) → List α → List (α × Bool) → Prop where
  | same (roll : List (α × Bool)) : RollCall old roll [] roll
  | joined (roll : List (α × Bool)) (x : α) (h : ¬ old x) :
      RollCall old roll [] (roll ++ [(x, false)])
  | fell (front back : List (α × Bool)) (x : α) :
      RollCall old (front ++ (x, false) :: back) [x] (front ++ (x, true) :: back)
  | left (front back : List (α × Bool)) (x : α) (dead : Bool) :
      RollCall old (front ++ (x, dead) :: back) [x] (front ++ back)

namespace RollCall

variable {α β : Type} {old : α → Prop} {roll roll' : List (α × Bool)} {reported : List α} {x : α}

theorem map (h : RollCall old roll reported roll') {new : β → Prop} {f f' : α → β}
    (hsame : ∀ x ∈ roll.map Prod.fst, f' x = f x) (hnew : ∀ x, ¬ old x → ¬ new (f' x)) :
    RollCall new (roll.map (Prod.map f id)) (reported.map f) (roll'.map (Prod.map f' id)) := by
  have hmap : roll.map (Prod.map f id) = roll.map (Prod.map f' id) := by
    refine List.map_congr_left fun p hp => ?_
    rw [Prod.map, Prod.map, hsame p.1 (List.mem_map_of_mem hp)]
  rw [hmap]
  cases h with
  | same => exact .same _
  | joined roll x hx =>
      rw [List.map_append]
      exact .joined _ (f' x) (hnew x hx)
  | fell front back x =>
      rw [List.map_append, List.map_append, List.map_singleton, ← hsame x (by simp)]
      exact .fell _ _ (f' x)
  | left front back x dead =>
      rw [List.map_append, List.map_append, List.map_singleton, ← hsame x (by simp)]
      exact .left _ _ (f' x) dead

theorem not_mem_of_nodup {front back : List (α × Bool)} {dead : Bool}
    (h : ((front ++ (x, dead) :: back).map Prod.fst).Nodup) (dead' : Bool) :
    (x, dead') ∉ front ∧ (x, dead') ∉ back := by
  rw [List.map_append, List.map_cons, List.nodup_middle, List.nodup_cons, ← List.map_append] at h
  have hfst : x ∉ (front ++ back).map Prod.fst := h.1
  have hx : (x, dead') ∉ front ++ back := fun hmem => hfst (List.mem_map_of_mem hmem)
  simpa using hx

theorem mem_of_mem (h : RollCall old roll reported roll') (hx : x ∈ roll'.map Prod.fst)
    (hold : old x) : x ∈ roll.map Prod.fst := by
  cases h with
  | same => exact hx
  | joined roll y hy =>
      rw [List.map_append, List.mem_append] at hx
      refine hx.resolve_right fun hnew => hy ?_
      obtain rfl : x = y := List.mem_singleton.mp hnew
      exact hold
  | fell front back y => simpa using hx
  | left front back y dead =>
      rw [List.map_append, List.mem_append] at hx
      rw [List.map_append, List.mem_append]
      exact hx.imp_right (List.mem_cons_of_mem y)

/-- Whoever is found dead has been dead before, or is reported now. -/
theorem dead_or_reported (h : RollCall old roll reported roll') (hx : (x, true) ∈ roll') :
    (x, true) ∈ roll ∨ x ∈ reported := by
  cases h with
  | same => exact .inl hx
  | joined roll y => exact .inl (by simpa using hx)
  | fell front back y =>
      by_cases hy : x = y
      · exact .inr (by simp [hy])
      · exact .inl (by simpa [hy] using hx)
  | left front back y dead =>
      refine .inl ?_
      rw [List.mem_append] at hx ⊢
      exact hx.imp_right (List.mem_cons_of_mem _)

variable [DecidableEq α]

/-- Whoever is reported has been alive and is not any more, or has been dead and is gone. -/
theorem count_reported (h : RollCall old roll reported roll')
    (hnodup : (roll.map Prod.fst).Nodup) (x : α) :
    reported.count x =
      (if (x, false) ∈ roll ∧ (x, false) ∉ roll' then 1 else 0) +
        (if (x, true) ∈ roll ∧ (x, true) ∉ roll' then 1 else 0) := by
  have hother {y : α} (hx : x ≠ y) (front back : List (α × Bool)) (dead dead' : Bool) :
      (x, dead) ∈ front ++ (y, dead') :: back ↔ (x, dead) ∈ front ++ back := by
    simp [hx]
  cases h with
  | same => simp
  | joined roll y => simp +contextual
  | fell front back y =>
      by_cases hx : x = y
      · subst hx
        simp [not_mem_of_nodup hnodup]
      · simp only [hother hx, and_not_self, if_false, List.count_singleton]
        simp [Ne.symm hx]
  | left front back y dead =>
      by_cases hx : x = y
      · subst hx
        cases dead <;> simp [not_mem_of_nodup hnodup]
      · simp only [hother hx, and_not_self, if_false, List.count_singleton]
        simp [Ne.symm hx]

end RollCall

namespace Battle

variable {b c : Battle} {index id position : Nat}

/-- The programs, and whether they are dead. -/
def roll (b : Battle) : List (Nat × Bool) :=
  b.groups.map fun g => (g.id, g.isDead)

theorem map_fst_roll (b : Battle) : b.roll.map Prod.fst = b.ids := by
  simp [roll, ids]

theorem roll_of_split {front back : List PointerGroup} {g : PointerGroup}
    (h : b.groups = front ++ g :: back) :
    b.roll = front.map (fun g => (g.id, g.isDead)) ++
      (g.id, g.isDead) :: back.map fun g => (g.id, g.isDead) := by
  simp [roll, h]

theorem rollCall_kill (b : Battle) (index : Nat) :
    RollCall (· ∈ b.ids) b.roll (Event.victims (b.kill index).events)
      (b.kill index).battle.roll := by
  cases hget : b.groups[index]? with
  | none =>
      rw [kill_of_length_le (List.getElem?_eq_none_iff.mp hget)]
      exact .same _
  | some g =>
      obtain ⟨front, back, hgroups, rfl⟩ := exists_append_of_getElem? hget
      rw [kill_of_getElem? hget, roll_of_split hgroups]
      have hroll : (b.removeAt front.length g.id).roll =
          front.map (fun g => (g.id, g.isDead)) ++ back.map fun g => (g.id, g.isDead) := by
        rw [roll, groups_removeAt, hgroups, eraseIdx_length_append, List.map_append]
      show RollCall _ _ [g.id] (b.removeAt front.length g.id).roll
      rw [hroll]
      exact .left _ _ g.id g.isDead

theorem rollCall_died (h : b.IsPlayer index id position) (reason : Reason) (a : Arena) :
    RollCall (· ∈ b.ids) b.roll [id]
      ((b.fallen index id a).bury index id position reason).battle.roll := by
  obtain ⟨front, back, hgroups, rfl, -⟩ := h.exists_split
  rw [roll_of_split hgroups, roll, groups_bury, fallen, hgroups, set_length_append,
    eraseIdx_length_append]
  split
  · rw [List.map_append]
    exact .left _ _ id false
  · rw [List.map_append, List.map_cons]
    exact .fell _ _ id

theorem IsPlayer.roll_set (h : b.IsPlayer index id position) (next : Nat) :
    (b.groups.set index ⟨id, [next], 0⟩).map (fun g => (g.id, g.isDead)) = b.roll := by
  obtain ⟨front, back, hgroups, rfl, -⟩ := h.exists_split
  rw [roll_of_split hgroups, hgroups, set_length_append, List.map_append, List.map_cons]
  rfl

theorem roll_install {p : Program} {address : Nat} (h : b.install p address = .ok c) :
    c.roll = b.roll ++ [(p.id, false)] := by
  obtain ⟨-, -, -, -, rfl⟩ := install_eq_ok_iff.mp h
  exact List.map_append

/-- What a step does to the roll, and whom it reports dead. -/
theorem Invariant.rollCall_next (h : b.Invariant) (s : Step) :
    RollCall (· ∈ b.ids) b.roll (Event.victims (b.reports s)) (b.next s).roll := by
  cases s with
  | install p address =>
      show RollCall (· ∈ b.ids) b.roll [] (b.next (.install p address)).roll
      rcases b.next_install p address with hrefused | hinstall
      · rw [hrefused]
        exact .same _
      · have hfree := (install_eq_ok_iff.mp hinstall).2.2.2.1
        rw [roll_install hinstall]
        exact .joined _ p.id (h.toRoster.not_mem_ids hfree)
  | advance =>
      show RollCall (· ∈ b.ids) b.roll (Event.victims b.advance.events) b.advance.battle.roll
      have hadvance := h.advance
      generalize b.advance = a at hadvance ⊢
      cases hadvance with
      | idle => exact .same _
      | @moved index id position next track hplayer hrun =>
          rw [victims_of_run hrun]
          show RollCall _ _ [] ((b.groups.set index ⟨id, [next], 0⟩).map _)
          rw [hplayer.roll_set]
          exact .same _
      | died hplayer hrun =>
          rw [Event.victims_append, victims_of_run hrun, events_bury]
          exact rollCall_died hplayer _ _
  | kill index => exact b.rollCall_kill index
  | killById id =>
      show RollCall _ _ (Event.victims (b.killById id).events) (b.killById id).battle.roll
      rw [killById_eq_kill]
      exact b.rollCall_kill _
  | poke => exact .same _

end Battle

namespace Chronicle

open Battle

variable {c : Chronicle} {x : Instance}

/-- An instance is in the arena, but has no pointer left. -/
def Lies (c : Chronicle) (x : Instance) : Prop :=
  ∃ g ∈ c.battle.groups, g.isDead = true ∧ c.stay g.id = x

instance (c : Chronicle) (x : Instance) : Decidable (c.Lives x) :=
  inferInstanceAs (Decidable (∃ g ∈ c.battle.groups, g.isDead = false ∧ c.stay g.id = x))

instance (c : Chronicle) (x : Instance) : Decidable (c.Lies x) :=
  inferInstanceAs (Decidable (∃ g ∈ c.battle.groups, g.isDead = true ∧ c.stay g.id = x))

/-- The instances that a step reports dead. -/
def obituaries (c : Chronicle) (s : Step) : List Instance :=
  (Event.victims (c.battle.reports s)).map c.stay

/-- The instances that a list of steps reports dead, in order. -/
def deaths (c : Chronicle) : List Step → List Instance
  | [] => []
  | s :: steps => c.obituaries s ++ (c.next s).deaths steps

/-- One of the steps takes an instance out after its death. -/
def Exhumes (c : Chronicle) (x : Instance) : List Step → Prop
  | [] => False
  | s :: steps => c.Lies x ∧ ¬ (c.next s).Lies x ∨ (c.next s).Exhumes x steps

/-! ## The roll of instances -/

def roll (c : Chronicle) : List (Instance × Bool) :=
  c.battle.roll.map (Prod.map c.stay id)

theorem lives_iff : c.Lives x ↔ (x, false) ∈ c.roll := by
  simp [Lives, roll, Battle.roll, and_comm]

theorem lies_iff : c.Lies x ↔ (x, true) ∈ c.roll := by
  simp [Lies, roll, Battle.roll, and_comm]

theorem Sound.nodup_roll (h : c.Sound) : (c.roll.map Prod.fst).Nodup := by
  have hfst : c.roll.map Prod.fst = c.battle.ids.map c.stay := by
    rw [← map_fst_roll, roll, List.map_map, List.map_map]
    rfl
  rw [hfst]
  refine h.battle.ids_nodup.map ?_
  intro id id' hsame
  exact congrArg Instance.id hsame

/-- A step changes the roll of instances as it changes that of the programs. -/
theorem Sound.rollCall_next (h : c.Sound) (s : Step) :
    RollCall (·.birth < c.clock) c.roll (c.obituaries s) (c.next s).roll := by
  refine (h.battle.rollCall_next s).map ?_ ?_
  · intro id hid
    rw [map_fst_roll] at hid
    simp only [stay, Chronicle.next, if_pos hid]
  · intro id hid
    simp only [stay, Chronicle.next, if_neg hid]
    exact Nat.lt_irrefl c.clock

/-- Whoever is reported dead loses its last pointer, or its body is taken out. -/
theorem Sound.count_obituaries (h : c.Sound) (s : Step) (x : Instance) :
    (c.obituaries s).count x =
      (if c.Lives x ∧ ¬ (c.next s).Lives x then 1 else 0) +
        (if c.Lies x ∧ ¬ (c.next s).Lies x then 1 else 0) := by
  simp only [lives_iff, lies_iff]
  exact (h.rollCall_next s).count_reported h.nodup_roll x

/-- Nobody is both alive and dead. -/
theorem Sound.not_lives_of_lies (h : c.Sound) (hlies : c.Lies x) : ¬ c.Lives x := by
  rw [lives_iff]
  rw [lies_iff] at hlies
  intro hlives
  have hsame := List.inj_on_of_nodup_map h.nodup_roll hlives hlies rfl
  cases hsame

theorem Sound.birth_lt_of_lies (h : c.Sound) (hlies : c.Lies x) : x.birth < c.clock := by
  obtain ⟨g, hg, -, rfl⟩ := hlies
  exact h.birth_lt g.id (List.mem_map_of_mem hg)

/-! ## Lists of steps -/

/-- An instance has left the arena for good. -/
structure Gone (c : Chronicle) (x : Instance) : Prop where
  birth_lt : x.birth < c.clock
  not_lives : ¬ c.Lives x
  not_lies : ¬ c.Lies x

theorem Gone.next (h : c.Sound) (hgone : c.Gone x) (s : Step) : (c.next s).Gone x := by
  have habsent : x ∉ (c.next s).roll.map Prod.fst := by
    intro hx
    obtain ⟨⟨y, dead⟩, hmem, rfl⟩ :=
      List.mem_map.mp ((h.rollCall_next s).mem_of_mem hx hgone.birth_lt)
    cases dead with
    | false => exact hgone.not_lives (lives_iff.mpr hmem)
    | true => exact hgone.not_lies (lies_iff.mpr hmem)
  refine ⟨Nat.lt_succ_of_lt hgone.birth_lt, fun hlives => habsent ?_, fun hlies => habsent ?_⟩
  · exact List.mem_map_of_mem (lives_iff.mp hlives)
  · exact List.mem_map_of_mem (lies_iff.mp hlies)

theorem Gone.count_deaths (h : c.Sound) (hgone : c.Gone x) (steps : List Step) :
    (c.deaths steps).count x = 0 ∧ ¬ c.Exhumes x steps := by
  induction steps generalizing c with
  | nil => exact ⟨rfl, id⟩
  | cons s steps ih =>
      obtain ⟨hcount, hexhumes⟩ := ih (h.next s) (hgone.next h s)
      constructor
      · rw [deaths, List.count_append, hcount, h.count_obituaries]
        simp [hgone.not_lives, hgone.not_lies]
      · rintro (⟨hlies, -⟩ | hlater)
        · exact hgone.not_lies hlies
        · exact hexhumes hlater

/-- The dead are reported once more if they are taken out, and only then. -/
theorem Sound.count_deaths_of_lies (h : c.Sound) (hlies : c.Lies x) (steps : List Step) :
    (c.Exhumes x steps → (c.deaths steps).count x = 1) ∧
      (¬ c.Exhumes x steps → (c.deaths steps).count x = 0) := by
  induction steps generalizing c with
  | nil => exact ⟨False.elim, fun _ => rfl⟩
  | cons s steps ih =>
      have hcount := h.count_obituaries s x
      simp only [h.not_lives_of_lies hlies, hlies, false_and, if_false, true_and, Nat.zero_add]
        at hcount
      rw [deaths, List.count_append, hcount, Exhumes]
      by_cases hlies' : (c.next s).Lies x
      · simp only [hlies', not_true, and_false, if_false, false_or, Nat.zero_add]
        exact ih (h.next s) hlies'
      · -- Nobody comes to life again, so the instance is gone.
        have hlives : ¬ (c.next s).Lives x := by
          intro hlives
          have hnow := h.lives_of_lives_after [s] hlives (h.birth_lt_of_lies hlies)
          exact h.not_lives_of_lies hlies hnow
        have hgone : (c.next s).Gone x :=
          ⟨Nat.lt_succ_of_lt (h.birth_lt_of_lies hlies), hlives, hlies'⟩
        rw [(hgone.count_deaths (h.next s) steps).1]
        simp [hlies, hlies']

/-- Until it lies in the arena, an instance is reported at most once, and twice if it is to be taken
out from there. -/
theorem Sound.count_deaths (h : c.Sound) (hlies : ¬ c.Lies x) (steps : List Step) :
    (c.Exhumes x steps → (c.deaths steps).count x = 2) ∧
      (¬ c.Exhumes x steps → (c.deaths steps).count x ≤ 1) := by
  induction steps generalizing c with
  | nil => exact ⟨False.elim, fun _ => Nat.zero_le 1⟩
  | cons s steps ih =>
      have hcount := h.count_obituaries s x
      simp only [hlies, false_and, if_false, Nat.add_zero] at hcount
      rw [deaths, List.count_append, Exhumes]
      simp only [hlies, false_and, false_or]
      by_cases hlies' : (c.next s).Lies x
      · obtain ⟨htwice, honce⟩ := (h.next s).count_deaths_of_lies hlies' steps
        have hreported : x ∈ c.obituaries s :=
          ((h.rollCall_next s).dead_or_reported (lies_iff.mp hlies')).resolve_left
            (mt lies_iff.mpr hlies)
        have hone : (c.obituaries s).count x = 1 := by
          have hpos := List.count_pos_iff.mpr hreported
          split at hcount <;> omega
        exact ⟨fun hlater => by rw [hone, htwice hlater], fun hnever => by rw [hone, honce hnever]⟩
      · by_cases hlost : c.Lives x ∧ ¬ (c.next s).Lives x
        · have hgone : (c.next s).Gone x :=
            ⟨Nat.lt_succ_of_lt (h.birth_lt_of_lives hlost.1), hlost.2, hlies'⟩
          obtain ⟨hnone, hnever⟩ := hgone.count_deaths (h.next s) steps
          rw [hcount, if_pos hlost, hnone]
          exact ⟨fun hlater => absurd hlater hnever, fun _ => Nat.le_refl 1⟩
        · rw [hcount, if_neg hlost, Nat.zero_add]
          exact ih (h.next s) hlies'

/-- In a persistent battle no body is ever taken out, since none is left in the arena. -/
theorem Sound.not_exhumes (h : c.Sound) (hforever : c.battle.rules.runForever = true)
    (steps : List Step) : ¬ c.Exhumes x steps := by
  induction steps generalizing c with
  | nil => exact id
  | cons s steps ih =>
      rintro (⟨⟨g, hg, hdead, -⟩, -⟩ | hlater)
      · rw [h.battle.alive hforever g hg] at hdead
        cases hdead
      · refine ih (h.next s) ?_ hlater
        rwa [show (c.next s).battle.rules = _ from h.battle.rules_next s]

/-- In each operation an instance is reported dead if it loses its last pointer or if its body is
taken out. Over a whole history it is reported once at most, unless its body is taken out; then it
is reported twice. In a persistent battle that never happens. -/
theorem reported_once_unless_exhumed (r : Rules) (steps : List Step) (x : Instance) :
    (∀ before s,
      (((start r).after before).obituaries s).count x =
        (if ((start r).after before).Lives x ∧ ¬ (((start r).after before).next s).Lives x
          then 1 else 0) +
        (if ((start r).after before).Lies x ∧ ¬ (((start r).after before).next s).Lies x
          then 1 else 0)) ∧
      (((start r).deaths steps).count x ≤ 1 ↔ ¬ (start r).Exhumes x steps) ∧
      ((start r).Exhumes x steps → ((start r).deaths steps).count x = 2) ∧
      (r.runForever = true → ¬ (start r).Exhumes x steps) := by
  have hempty : ¬ (start r).Lies x := by
    rintro ⟨g, hg, -⟩
    exact List.not_mem_nil hg
  obtain ⟨htwice, honce⟩ := (sound_start r).count_deaths hempty steps
  refine ⟨fun before s => ((sound_start r).after before).count_obituaries s x, ?_, htwice, ?_⟩
  · refine ⟨fun hone hexhumes => ?_, honce⟩
    rw [htwice hexhumes] at hone
    omega
  · exact fun hforever => (sound_start r).not_exhumes hforever steps

/-- A program that dies at its first turn and is then taken out is reported dead twice. -/
theorem exhumed_reported_twice :
    ((start .tournament).deaths [.install ⟨1, "fodder", [0]⟩ 0, .advance, .kill 0]).count ⟨1, 0⟩ =
      2 := by
  decide +kernel

end Chronicle

end CoreArena
