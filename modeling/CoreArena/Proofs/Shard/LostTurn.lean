import CoreArena.Proofs.Shard.Pace

/-! # Lost turns

The slots of the seats follow from how many seats there are at the time. A death moves the slots of
those that still wait towards the end of the round, but when it does not move that of the next seat,
this slot is the tick that has just gone, and nobody plays in this round any more. With 31 seats
every slot is the first tick. Nothing else costs a program its turn. -/

namespace CoreArena

namespace Rota

variable {α : Type} {r t : Rota α} {x : α} {base tick : Nat}

/-- The slot of the turn is to come in the round that began at `base`. -/
structure IsPending (r : Rota α) (base tick : Nat) : Prop where
  turn_lt : r.turn < r.seats.length
  length_le : r.seats.length ≤ 30
  base_le : base ≤ tick
  tick_le : tick ≤ base + r.slot

theorem slot_of_turn_eq_zero (h : r.turn = 0) : r.slot = 0 := by
  rw [slot, h, Nat.zero_mul]

theorem slot_pass_of_lt (hn : r.seats.length ≤ 30) (hlast : r.turn + 1 < r.seats.length) :
    r.slot < r.pass.slot := by
  have hpos := (slot_bounds hn hlast).1
  have hgap := slot_gap (30 / r.seats.length) (Nat.lt_succ_self r.turn)
  rw [slot, slot, turn_pass_of_lt hlast]
  exact Nat.lt_of_lt_of_le (Nat.lt_add_of_pos_right hpos) hgap

theorem slot_leave_turn_of_lt (hlast : r.turn + 1 < r.seats.length) :
    (r.leave r.turn).slot = r.turn * (30 / (r.seats.length - 1)) := by
  have hlength := length_leave_turn (Nat.lt_of_succ_lt hlast)
  rw [slot, turn_leave_turn_of_lt hlast, roundLength]
  congr 2
  omega

/-- The slot of the next seat does not come before the one that has just gone. -/
theorem Ticked.slot_le (h : Ticked tick r (some x) t) (hn : r.seats.length ≤ 30)
    (hlast : r.turn + 1 < r.seats.length) : r.slot ≤ t.slot := by
  cases h with
  | passed => exact Nat.le_of_lt (slot_pass_of_lt hn hlast)
  | died =>
      rw [slot_leave_turn_of_lt hlast]
      apply Nat.mul_le_mul_left
      apply Nat.div_le_div_left <;> omega

/-- The slots of 31 seats are all the first tick. -/
theorem Ticked.slot_of_crowded (h : Ticked tick r (some x) t) (hcrowd : 31 ≤ r.seats.length)
    (hfirst : r.turn = 0) : t.slot = 0 := by
  cases h with
  | passed =>
      have hspacing : 30 / r.seats.length = 0 := Nat.div_eq_of_lt hcrowd
      rw [slot, seats_pass, roundLength, hspacing, Nat.mul_zero]
  | died => exact slot_of_turn_eq_zero (turn_leave_of_turn_eq_zero hfirst _)

theorem IsPending.isDue_iff (h : r.IsPending base tick) (hbase : base % 31 = 0) :
    r.IsDue tick ↔ tick = base + r.slot := by
  obtain ⟨hturn, hn, hle, hslot⟩ := h
  have hlt := slot_lt hn hturn
  rw [IsDue, and_iff_right (List.ne_nil_of_length_pos (Nat.zero_lt_of_lt hturn)), roundLength]
  omega

theorem IsPending.of_not_isDue (h : r.IsPending base tick) (hbase : base % 31 = 0)
    (hdue : ¬ r.IsDue tick) : r.IsPending base (tick + 1) := by
  rw [h.isDue_iff hbase] at hdue
  obtain ⟨hturn, hn, hle, hslot⟩ := h
  exact ⟨hturn, hn, by omega, by omega⟩

/-- When a play moves the slot of the turn, it is still to come. -/
theorem IsPending.of_play (h : r.IsPending base tick) (hbase : base % 31 = 0) (hr : r.InRange)
    (hticked : Ticked tick r (some x) t) (hlater : r.slot < t.slot) :
    t.IsPending base (tick + 1) := by
  have hnow := (h.isDue_iff hbase).mp hticked.isDue
  have hle := h.base_le
  refine ⟨?_, hticked.sublist.length_le.trans h.length_le, by omega, by omega⟩
  refine (hticked.inRange hr).resolve_right fun hzero => ?_
  rw [slot_of_turn_eq_zero hzero] at hlater
  exact Nat.not_lt_zero _ hlater

end Rota

namespace Diary

open Shard

variable {rules : Rules} {maxPrograms : Nat} {d : Diary} {step : Step} {steps : List Step}
  {x : Instance} {base : Nat}

/-- Nobody joins, and nobody is taken out. -/
def Undisturbed (d : Diary) : List Step → Prop
  | [] => True
  | step :: steps =>
    (∀ x, (d.next step).Lives x → d.Lives x) ∧
      (step ≠ .pass → ∀ x, d.Lives x → (d.next step).Lives x) ∧ (d.next step).Undisturbed steps

/-- The program at the turn dies at this tick, others wait behind it, and the next of them would
have to play at this tick too. -/
def CostsTurn (d : Diary) : Prop :=
  (d.next .pass).rota.seats.length < d.rota.seats.length ∧
    d.rota.turn + 1 < d.rota.seats.length ∧
    d.rota.turn * (30 / (d.rota.seats.length - 1)) = d.rota.turn * (30 / d.rota.seats.length)

/-- No death costs another program its turn. -/
def Harmless (d : Diary) : List Step → Prop
  | [] => True
  | step :: steps => (step = .pass → ¬ d.CostsTurn) ∧ (d.next step).Harmless steps

def turns (d : Diary) (steps : List Step) (x : Instance) : Nat :=
  (d.plays steps).countP fun play => play.2 = x

/-- Of those that live to the end of some steps, just those play that wait for their turn before,
and they play once. -/
def Served (d : Diary) (steps : List Step) : Prop :=
  ∀ x, (d.after steps).Lives x → d.turns steps x = if x ∈ d.rota.waiting then 1 else 0

theorem turns_cons (d : Diary) (step : Step) (steps : List Step) (x : Instance) :
    d.turns (step :: steps) x =
      (if d.playing? step = some x then 1 else 0) + (d.next step).turns steps x := by
  rw [turns, plays_cons, List.countP_append]
  congr 1
  cases d.playing? step with
  | none => simp
  | some y => simp

theorem turns_eq_zero (h : d.plays steps = []) : d.turns steps x = 0 := by
  rw [turns, h]
  rfl

theorem Undisturbed.lives_of_lives_after (h : d.Undisturbed steps) (hx : (d.after steps).Lives x) :
    d.Lives x := by
  induction steps generalizing d with
  | nil => exact hx
  | cons step steps ih => exact h.1 x (ih h.2.2 hx)

theorem not_costsTurn_of_length (h : (d.next .pass).rota.seats.length = d.rota.seats.length) :
    ¬ d.CostsTurn :=
  fun hcosts => Nat.ne_of_lt hcosts.1 h

/-- A play costs the next seat its turn just when it leaves the slot where it was. -/
theorem costsTurn_iff (h : Rota.Ticked d.shard.tick d.rota (some x) (d.next .pass).rota)
    (hn : d.rota.seats.length ≤ 30) (hlast : d.rota.turn + 1 < d.rota.seats.length) :
    d.CostsTurn ↔ (d.next .pass).rota.slot = d.rota.slot := by
  unfold CostsTurn
  generalize (d.next .pass).rota = t at h ⊢
  cases h with
  | passed =>
      have hlt := Rota.slot_pass_of_lt hn hlast
      simp only [Rota.seats_pass, Nat.lt_irrefl, false_and, false_iff]
      omega
  | died =>
      have hlength := Rota.length_leave_turn (Nat.lt_of_succ_lt hlast)
      have hfewer : (d.rota.leave d.rota.turn).seats.length < d.rota.seats.length := by omega
      simp only [hfewer, hlast, true_and, Rota.slot_leave_turn_of_lt hlast]
      rfl

/-! ## When the slot of the turn has gone -/

/-- Nobody plays any more in a round in which the slot of the turn has gone. -/
theorem Sound.plays_of_gone (h : d.Sound rules maxPrograms) (hclosed : d.Undisturbed steps)
    (hbase : base % 31 = 0) (hgone : base + d.rota.slot < d.shard.tick)
    (hend : (d.after steps).shard.tick ≤ base + 31) :
    d.plays steps = [] ∧ (d.after steps).rota = d.rota ∧ d.Harmless steps := by
  induction steps generalizing d with
  | nil => exact ⟨rfl, rfl, trivial⟩
  | cons step steps ih =>
      obtain ⟨hold, hstay, hrest⟩ := hclosed
      have hstep := h.closed hold hstay
      have htick := d.tick_next step
      have hle := (d.next step).tick_le_tick_after steps
      rw [after_cons] at hend
      obtain ⟨hidle, hrota⟩ : d.playing? step = none ∧ (d.next step).rota = d.rota := by
        generalize (d.next step).rota = r, d.playing? step = played at hstep ⊢
        cases hstep with
        | paused => exact ⟨rfl, rfl⟩
        | ticked hticked =>
            have hnext := d.tick_next_pass
            refine hticked.eq_of_not_isDue fun hdue => ?_
            have hslot := hdue.2
            unfold roundLength at hslot
            omega
      have hgone' : base + (d.next step).rota.slot < (d.next step).shard.tick := by
        rw [hrota]
        omega
      obtain ⟨hplays, hafter, hharmless⟩ := ih (h.next step) hrest hgone' hend
      refine ⟨?_, hafter.trans hrota, ?_, hharmless⟩
      · rw [plays_cons, hidle]
        exact hplays
      · rintro rfl
        exact not_costsTurn_of_length (by rw [hrota])

theorem Sound.nodup_waiting (h : d.Sound rules maxPrograms) : d.rota.waiting.Nodup :=
  h.nodup_seats.sublist (List.drop_sublist _ _)

/-- A play after which the slot of the turn has gone leaves somebody waiting in vain. -/
theorem Sound.exists_robbed (h : d.Sound rules maxPrograms)
    (hclosed : (d.next .pass).Undisturbed steps) (hbase : base % 31 = 0)
    (hend : ((d.next .pass).after steps).shard.tick ≤ base + 31)
    (hgone : base + (d.next .pass).rota.slot < (d.next .pass).shard.tick)
    (hplaying : d.playing? .pass = some x)
    (hticked : Rota.Ticked d.shard.tick d.rota (some x) (d.next .pass).rota)
    (hlast : d.rota.turn + 1 < d.rota.seats.length) :
    ∃ y ∈ d.rota.waiting, ((d.next .pass).after steps).Lives y ∧
      d.turns (.pass :: steps) y = 0 := by
  have hwaiting := hticked.waiting_eq hlast
  have hnodup := h.nodup_waiting
  obtain ⟨hplays, hafter, -⟩ := (h.next .pass).plays_of_gone hclosed hbase hgone hend
  obtain ⟨y, hy⟩ : ∃ y, y ∈ (d.next .pass).rota.waiting := by
    have hlength := congrArg List.length hwaiting
    rw [Rota.waiting, List.length_drop, List.length_cons] at hlength
    exact List.exists_mem_of_length_pos (by omega)
  rw [hwaiting] at hnodup ⊢
  have hother : x ≠ y := fun heq => (List.nodup_cons.mp hnodup).1 (heq ▸ hy)
  refine ⟨y, List.mem_cons_of_mem x hy, ?_, ?_⟩
  · rw [Lives, hafter]
    exact List.mem_of_mem_drop hy
  · rw [turns_cons, hplaying, turns_eq_zero hplays, if_neg fun heq => hother (Option.some.inj heq)]

/-- Among 31 programs somebody waits in vain. -/
theorem Sound.exists_robbed_of_crowded (h : d.Sound rules maxPrograms)
    (hclosed : d.Undisturbed steps) (hbase : d.shard.tick % 31 = 0)
    (hend : (d.after steps).shard.tick = d.shard.tick + 31) (hcrowd : 31 ≤ d.rota.seats.length)
    (hfirst : d.rota.turn = 0) : ∃ x, (d.after steps).Lives x ∧ d.turns steps x = 0 := by
  induction steps generalizing d with
  | nil =>
      rw [after_nil] at hend
      omega
  | cons step steps ih =>
      obtain ⟨hold, hstay, hrest⟩ := hclosed
      have hstep := h.closed hold hstay
      rw [after_cons] at hend
      generalize hrota : (d.next step).rota = r, hplaying : d.playing? step = played at hstep
      cases hstep with
      | paused hpause =>
          have hnext : (d.next step).shard.tick = d.shard.tick := tick_next_of_ne_pass hpause
          obtain ⟨x, hx, hturns⟩ := ih (h.next step) hrest (by omega) (by omega)
            (by rwa [hrota]) (by rwa [hrota])
          refine ⟨x, hx, ?_⟩
          rw [turns_cons, hplaying, hturns]
          rfl
      | ticked hticked =>
          have hnext := d.tick_next_pass
          cases played with
          | none =>
              obtain ⟨-, hdue⟩ := hticked.eq_of_none
              refine absurd ⟨List.ne_nil_of_length_pos (by omega), ?_⟩ hdue
              rw [Rota.slot_of_turn_eq_zero hfirst]
              exact hbase.symm
          | some x =>
              rw [← hrota] at hticked
              have hslot := hticked.slot_of_crowded hcrowd hfirst
              obtain ⟨y, -, hlives, hnever⟩ := h.exists_robbed hrest hbase (by omega) (by omega)
                hplaying hticked (by omega)
              exact ⟨y, hlives, hnever⟩

/-! ## When the slot of the turn is to come -/

theorem turns_cons_iff (steps : List Step) (hplaying : d.playing? step = some x)
    (hwaiting : d.rota.waiting = x :: (d.next step).rota.waiting) (hnodup : d.rota.waiting.Nodup)
    (y : Instance) :
    (d.turns (step :: steps) y = if y ∈ d.rota.waiting then 1 else 0) ↔
      (d.next step).turns steps y = if y ∈ (d.next step).rota.waiting then 1 else 0 := by
  rw [hwaiting] at hnodup
  rw [turns_cons, hplaying, hwaiting]
  by_cases hy : y = x
  · subst hy
    simp [(List.nodup_cons.mp hnodup).1]
  · simp [hy, Ne.symm hy]

theorem served_iff_of_idle (hplaying : d.playing? step = none)
    (hrota : (d.next step).rota = d.rota)
    (hrest : (d.next step).Served steps ↔ (d.next step).Harmless steps) :
    d.Served (step :: steps) ↔ d.Harmless (step :: steps) := by
  have hharmless : d.Harmless (step :: steps) ↔ (d.next step).Harmless steps := by
    refine and_iff_right ?_
    rintro rfl
    exact not_costsTurn_of_length (by rw [hrota])
  rw [hharmless, ← hrest]
  simp [Served, turns_cons, hplaying, hrota]

/-- The last seat of a round plays without harm. -/
theorem Sound.served_iff_of_last (h : d.Sound rules maxPrograms)
    (hclosed : (d.next .pass).Undisturbed steps) (hbase : base % 31 = 0)
    (hend : ((d.next .pass).after steps).shard.tick = base + 31) (hle : base ≤ d.shard.tick)
    (hplaying : d.playing? .pass = some x)
    (hticked : Rota.Ticked d.shard.tick d.rota (some x) (d.next .pass).rota)
    (hlast : d.rota.seats.length ≤ d.rota.turn + 1) :
    d.Served (.pass :: steps) ↔ d.Harmless (.pass :: steps) := by
  have htick := d.tick_next_pass
  have hgone : base + (d.next .pass).rota.slot < (d.next .pass).shard.tick := by
    rw [Rota.slot_of_turn_eq_zero (hticked.turn_eq_zero hlast)]
    omega
  obtain ⟨hplays, -, hharmless⟩ :=
    (h.next .pass).plays_of_gone hclosed hbase hgone (Nat.le_of_eq hend)
  have hwaiting : d.rota.waiting = [x] := by
    rw [Rota.waiting_of_player? hticked.player?, List.drop_eq_nil_of_le hlast]
  refine iff_of_true ?_ ⟨fun _ hcosts => Nat.not_lt.mpr hlast hcosts.2.1, hharmless⟩
  intro y _
  rw [turns_cons, hplaying, turns_eq_zero hplays, hwaiting]
  simp [eq_comm]

/-- A play leaves a waiting seat without turn if its slot is the tick that has gone; otherwise the
round goes on. -/
theorem Sound.served_iff_of_not_last (h : d.Sound rules maxPrograms)
    (hclosed : (d.next .pass).Undisturbed steps) (hbase : base % 31 = 0)
    (hend : ((d.next .pass).after steps).shard.tick = base + 31)
    (hpending : d.rota.IsPending base d.shard.tick) (hplaying : d.playing? .pass = some x)
    (hticked : Rota.Ticked d.shard.tick d.rota (some x) (d.next .pass).rota)
    (hlast : d.rota.turn + 1 < d.rota.seats.length)
    (hrest : (d.next .pass).rota.IsPending base (d.next .pass).shard.tick →
      ((d.next .pass).Served steps ↔ (d.next .pass).Harmless steps)) :
    d.Served (.pass :: steps) ↔ d.Harmless (.pass :: steps) := by
  have htick := d.tick_next_pass
  have hslot := (hpending.isDue_iff hbase).mp hticked.isDue
  have hcosts := costsTurn_iff hticked hpending.length_le hlast
  have hpoint := turns_cons_iff steps hplaying (hticked.waiting_eq hlast) h.nodup_waiting
  rcases Nat.eq_or_lt_of_le (hticked.slot_le hpending.length_le hlast) with hsame | hlater
  · obtain ⟨y, hy, hlives, hnever⟩ :=
      h.exists_robbed hclosed hbase (Nat.le_of_eq hend) (by omega) hplaying hticked hlast
    refine iff_of_false ?_ fun hharmless => hharmless.1 rfl (hcosts.mpr hsame.symm)
    intro hturns
    have hone := hturns y hlives
    rw [hnever, if_pos hy] at hone
    cases hone
  · rw [htick] at hrest
    replace hrest := hrest (hpending.of_play hbase h.inRange hticked hlater)
    constructor
    · intro hturns
      refine ⟨fun _ hc => Nat.ne_of_gt hlater (hcosts.mp hc), hrest.mp ?_⟩
      exact fun y hy => (hpoint y).mp (hturns y hy)
    · rintro ⟨-, hharmless⟩ y hy
      exact (hpoint y).mpr (hrest.mpr hharmless y hy)

/-- While the slot of the turn is to come, all that wait are served just when no death costs anybody
the turn. -/
theorem Sound.served_iff_harmless (h : d.Sound rules maxPrograms) (hclosed : d.Undisturbed steps)
    (hbase : base % 31 = 0) (hend : (d.after steps).shard.tick = base + 31)
    (hpending : d.rota.IsPending base d.shard.tick) : d.Served steps ↔ d.Harmless steps := by
  induction steps generalizing d with
  | nil =>
      have hlt := Rota.slot_lt hpending.length_le hpending.turn_lt
      have hle := hpending.tick_le
      rw [after_nil] at hend
      omega
  | cons step steps ih =>
      obtain ⟨hold, hstay, hrest⟩ := hclosed
      have hstep := h.closed hold hstay
      rw [after_cons] at hend
      have hih := ih (h.next step) hrest hend
      generalize hrota : (d.next step).rota = r, hplaying : d.playing? step = played at hstep
      cases hstep with
      | paused hpause =>
          refine served_iff_of_idle hplaying hrota (hih ?_)
          rwa [hrota, tick_next_of_ne_pass hpause]
      | ticked hticked =>
          cases played with
          | none =>
              obtain ⟨rfl, hdue⟩ := hticked.eq_of_none
              refine served_iff_of_idle hplaying hrota (hih ?_)
              rw [hrota, tick_next_pass]
              exact hpending.of_not_isDue hbase hdue
          | some x =>
              rw [← hrota] at hticked
              by_cases hlast : d.rota.turn + 1 < d.rota.seats.length
              · exact h.served_iff_of_not_last hrest hbase hend hpending hplaying hticked hlast hih
              · exact h.served_iff_of_last hrest hbase hend hpending.base_le hplaying hticked
                  (Nat.not_lt.mp hlast)

/-- In a round that begins with the turn at the first seat and in which nobody joins or is taken
out, every program that lives to its end plays once, just when there are at most 30 programs and no
death costs another one its turn. -/
theorem everybody_plays_iff (hreach : d.Reachable) (hpos : 1 ≤ d.shard.battle.warriors.length)
    (hbase : d.shard.tick % 31 = 0) (hfirst : d.shard.battle.turn = 0)
    (hclosed : d.Undisturbed steps) (hend : (d.after steps).shard.tick = d.shard.tick + 31) :
    (∀ x, d.Lives x → (d.after steps).Lives x →
      (d.plays steps).countP (fun play => play.2 = x) = 1) ↔
        d.shard.battle.warriors.length ≤ 30 ∧ d.Harmless steps := by
  obtain ⟨rules, maxPrograms, h⟩ := hreach.sound
  have hzero : d.rota.turn = 0 := hfirst
  rw [← h.length_seats] at hpos ⊢
  by_cases hn : d.rota.seats.length ≤ 30
  · have hwaiting : d.rota.waiting = d.rota.seats := by rw [Rota.waiting, hzero, List.drop_zero]
    have hiff := h.served_iff_harmless hclosed hbase hend
      ⟨by omega, hn, Nat.le_refl _, Nat.le_add_right _ _⟩
    rw [and_iff_right hn, ← hiff, Served, hwaiting]
    constructor
    · intro hturns x hx
      have hlives : x ∈ d.rota.seats := hclosed.lives_of_lives_after hx
      rw [if_pos hlives]
      exact hturns x hlives hx
    · intro hturns x (hlives : x ∈ d.rota.seats) hx
      have hone := hturns x hx
      rwa [if_pos hlives] at hone
  · obtain ⟨x, hx, hnever⟩ :=
      h.exists_robbed_of_crowded hclosed hbase hend (Nat.lt_of_not_le hn) hzero
    refine iff_of_false ?_ fun hfew => hn hfew.1
    intro hturns
    have hone := hturns x (hclosed.lives_of_lives_after hx) hx
    rw [turns] at hnever
    omega

theorem undisturbed_replicate {n : Nat}
    (h : ∀ k < n, (d.after (List.replicate (k + 1) .pass)).rota.seats ⊆
      (d.after (List.replicate k .pass)).rota.seats) :
    d.Undisturbed (List.replicate n .pass) := by
  induction n generalizing d with
  | zero => trivial
  | succ n ih =>
      refine ⟨fun x hx => h 0 (Nat.zero_lt_succ n) hx, fun hpass => absurd rfl hpass, ih ?_⟩
      intro k hk
      simpa only [List.replicate_succ, after_cons] using h (k + 1) (Nat.succ_lt_succ hk)

def arena (sources : List String) : Diary :=
  (start 0 { columnSize := 1, columnCount := 4 } 31 8 ⟨1, 2, 3, 4⟩).after
    (sources.zipIdx.map fun (source, index) => .install (toString index) source none none)

theorem reachable_arena (sources : List String) : (arena sources).Reachable :=
  ⟨_, _, _, _, _, _, rfl⟩

/-- The second of three programs dies, and the third one plays at the later tick that it then has.
-/
theorem everybody_plays_but_the_dead :
    (arena ["jump 0", "data 0", "jump 0"]).plays (List.replicate 31 .pass) =
        [(0, ⟨1, 0⟩), (10, ⟨2, 1⟩), (15, ⟨3, 2⟩)] ∧
      (arena ["jump 0", "data 0", "jump 0"]).Harmless (List.replicate 31 .pass) := by
  have hplays : (arena ["jump 0", "data 0", "jump 0"]).plays (List.replicate 31 .pass) =
      [(0, ⟨1, 0⟩), (10, ⟨2, 1⟩), (15, ⟨3, 2⟩)] := by
    decide +kernel
  have hseats : (arena ["jump 0", "data 0", "jump 0"]).rota.seats = [⟨1, 0⟩, ⟨2, 1⟩, ⟨3, 2⟩] := by
    decide +kernel
  refine ⟨hplays, ((everybody_plays_iff (reachable_arena _) (by decide +kernel) (by decide +kernel)
    (by decide +kernel) (undisturbed_replicate (by decide +kernel)) (by decide +kernel)).mp ?_).2⟩
  intro x hx _
  rw [Lives, hseats] at hx
  rw [hplays]
  simp only [List.mem_cons, List.not_mem_nil, or_false] at hx
  rcases hx with rfl | rfl | rfl <;> decide

/-- The first of two programs dies at the first tick, and the other one does not play at all. -/
theorem death_costs_turn :
    (arena ["data 0", "jump 0"]).Reachable ∧
      (arena ["data 0", "jump 0"]).shard.battle.warriors.length = 2 ∧
      (arena ["data 0", "jump 0"]).shard.tick = 0 ∧
      (arena ["data 0", "jump 0"]).shard.battle.turn = 0 ∧
      (arena ["data 0", "jump 0"]).Undisturbed (List.replicate 31 .pass) ∧
      ((arena ["data 0", "jump 0"]).after (List.replicate 31 .pass)).shard.tick = 31 ∧
      (arena ["data 0", "jump 0"]).Lives ⟨2, 1⟩ ∧
      ((arena ["data 0", "jump 0"]).after (List.replicate 31 .pass)).Lives ⟨2, 1⟩ ∧
      (arena ["data 0", "jump 0"]).plays (List.replicate 31 .pass) = [(0, ⟨1, 0⟩)] :=
  ⟨reachable_arena _, by decide +kernel, by decide +kernel, by decide +kernel,
    undisturbed_replicate (by decide +kernel), by decide +kernel, by decide +kernel,
    by decide +kernel, by decide +kernel⟩

end Diary

end CoreArena
