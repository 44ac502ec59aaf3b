import CoreArena.Proofs.Shard.Diary

/-! # The pace of a shard

While nobody comes or goes, the slots of the seats do not move. From the first play on, each seat
then plays at its own slot of every round, and nobody plays in between. -/

namespace CoreArena

namespace Rota

variable {α : Type} {r : Rota α} {x y : α} {tick due : Nat}

/-- The tick is the slot of a seat of `x`. -/
def HasSlot (r : Rota α) (x : α) (tick : Nat) : Prop :=
  ∃ k, r.seats[k]? = some x ∧ tick % 31 = k * (30 / r.seats.length)

/-- The turn is due at a tick that is less than a round away. -/
structure Awaits (r : Rota α) (tick due : Nat) : Prop where
  turn_lt : r.turn < r.seats.length
  length_le : r.seats.length ≤ 30
  tick_le : tick ≤ due
  lt_tick : due < tick + 31
  slot_eq : due % 31 = r.slot

theorem slot_gap (spacing : Nat) {j k : Nat} (h : j < k) :
    j * spacing + spacing ≤ k * spacing := by
  have hnext : (j + 1) * spacing ≤ k * spacing := Nat.mul_le_mul_right _ h
  rwa [Nat.add_mul, Nat.one_mul] at hnext

/-- Slots of different seats are apart, and all are in the round. -/
theorem slot_bounds {n k : Nat} (hn : n ≤ 30) (hk : k < n) :
    1 ≤ 30 / n ∧ k * (30 / n) + 30 / n ≤ 30 := by
  constructor
  · rw [Nat.le_div_iff_mul_le (Nat.zero_lt_of_lt hk)]
    omega
  · calc k * (30 / n) + 30 / n ≤ n * (30 / n) := slot_gap _ hk
      _ ≤ 30 := Nat.mul_div_le 30 n

theorem slot_lt (hn : r.seats.length ≤ 30) (hturn : r.turn < r.seats.length) : r.slot < 31 := by
  obtain ⟨hpos, hfit⟩ := slot_bounds hn hturn
  show r.turn * (30 / r.seats.length) < 31
  omega

/-- A round has one tick for each slot, wherever it begins. -/
theorem exists_tick_of_slot (first slot : Nat) (hslot : slot < 31) :
    ∃ t, first ≤ t ∧ t < first + 31 ∧ t % 31 = slot ∧
      ∀ u, first ≤ u → u < first + 31 → u % 31 = slot → u = t := by
  by_cases hgone : slot < first % 31
  · refine ⟨first + 31 + slot - first % 31, by omega, by omega, by omega, ?_⟩
    intro u hu hu' hsame
    omega
  · refine ⟨first + slot - first % 31, by omega, by omega, by omega, ?_⟩
    intro u hu hu' hsame
    omega

theorem hasSlot_player (hplayer : r.player? = some x) (hdue : tick % 31 = r.slot) :
    r.HasSlot x tick :=
  ⟨r.turn, hplayer, hdue⟩

/-- Only the seat with the turn has its slot. -/
theorem HasSlot.eq_player (h : r.HasSlot x tick) (hn : r.seats.length ≤ 30)
    (hplayer : r.player? = some y) (hdue : tick % 31 = r.slot) : x = y := by
  obtain ⟨k, hseat, hslot⟩ := h
  have hpos := (slot_bounds hn (List.getElem?_eq_some_iff.mp hseat).1).1
  have hplace : r.turn = k := Nat.eq_of_mul_eq_mul_right hpos (hdue.symm.trans hslot)
  rw [player?, hplace, hseat] at hplayer
  exact Option.some.inj hplayer

theorem Awaits.isDue_iff (h : r.Awaits tick due) : r.IsDue tick ↔ tick = due := by
  obtain ⟨hturn, -, hle, hlt, hslot⟩ := h
  rw [IsDue, and_iff_right (List.ne_nil_of_length_pos (Nat.zero_lt_of_lt hturn)), roundLength]
  omega

theorem Awaits.of_not_isDue (h : r.Awaits tick due) (hdue : ¬ r.IsDue tick) :
    r.Awaits (tick + 1) due := by
  rw [h.isDue_iff] at hdue
  obtain ⟨hturn, hn, hle, hlt, hslot⟩ := h
  exact ⟨hturn, hn, by omega, by omega, hslot⟩

theorem turn_pass_lt (h : r.turn < r.seats.length) : r.pass.turn < r.seats.length := by
  by_cases hlast : r.turn + 1 < r.seats.length
  · rwa [turn_pass_of_lt hlast]
  · rw [turn_pass_of_ge (Nat.not_lt.mp hlast)]
    exact Nat.zero_lt_of_lt h

/-- After a play the turn is due again within a round, and up to then no seat has its slot. -/
theorem exists_next_due (hn : r.seats.length ≤ 30) (hturn : r.turn < r.seats.length)
    (hdue : tick % 31 = r.slot) :
    ∃ due, tick < due ∧ due ≤ tick + 31 ∧ due % 31 = r.pass.slot ∧
      ∀ t, tick < t → t < due → ∀ x, ¬ r.HasSlot x t := by
  obtain ⟨hpos, hfit⟩ := slot_bounds hn hturn
  have hpass : r.pass.slot = r.pass.turn * (30 / r.seats.length) := rfl
  rw [show r.slot = r.turn * (30 / r.seats.length) from rfl] at hdue
  by_cases hlast : r.turn + 1 < r.seats.length
  · rw [turn_pass_of_lt hlast, Nat.add_mul, Nat.one_mul] at hpass
    have hfit' := (slot_bounds hn hlast).2
    rw [Nat.add_mul, Nat.one_mul] at hfit'
    refine ⟨tick + 30 / r.seats.length, by omega, by omega, by omega, ?_⟩
    rintro t hafter hbefore x ⟨k, -, hsame⟩
    rcases Nat.lt_or_ge r.turn k with hlt | hge
    · have hgap := slot_gap (30 / r.seats.length) hlt
      omega
    · have hgap := Nat.mul_le_mul_right (30 / r.seats.length) hge
      omega
  · rw [turn_pass_of_ge (Nat.not_lt.mp hlast), Nat.zero_mul] at hpass
    refine ⟨tick + 31 - tick % 31, by omega, by omega, by omega, ?_⟩
    rintro t hafter hbefore x ⟨k, hseat, hsame⟩
    have hk := (List.getElem?_eq_some_iff.mp hseat).1
    have hgap : k * (30 / r.seats.length) ≤ r.turn * (30 / r.seats.length) := by
      apply Nat.mul_le_mul_right
      omega
    omega

/-- A play leaves the turn due again, and until then only the seat that plays has its slot. -/
theorem Awaits.exists_pass (h : r.Awaits tick tick) (hplayer : r.player? = some y) :
    ∃ due, r.pass.Awaits (tick + 1) due ∧ ∀ t x,
      tick ≤ t ∧ r.HasSlot x t ↔ (t = tick ∧ y = x) ∨ (due ≤ t ∧ r.pass.HasSlot x t) := by
  obtain ⟨hturn, hn, -, -, hnow⟩ := h
  obtain ⟨due, hafter, hbefore, hslot, hgap⟩ := exists_next_due hn hturn hnow
  refine ⟨due, ⟨turn_pass_lt hturn, hn, hafter, by omega, hslot⟩, ?_⟩
  intro t x
  constructor
  · rintro ⟨hle, hhas⟩
    by_cases hbehind : due ≤ t
    · exact .inr ⟨hbehind, hhas⟩
    · have hsame : t = tick := by
        by_contra hne
        exact hgap t (by omega) (by omega) x hhas
      subst hsame
      exact .inl ⟨rfl, (hhas.eq_player hn hplayer hnow).symm⟩
  · rintro (⟨rfl, rfl⟩ | ⟨hle, hhas⟩)
    · exact ⟨Nat.le_refl _, hasSlot_player hplayer hnow⟩
    · exact ⟨by omega, hhas⟩

end Rota

namespace Diary

open Shard

variable {rules : Rules} {maxPrograms : Nat} {d : Diary} {step : Step} {x : Instance} {due t : Nat}

theorem countP_eq_one {α : Type} [DecidableEq α] {l : List α} {p : α → Bool} {a : α}
    (hnodup : l.Nodup) (ha : a ∈ l) (hpa : p a = true) (honly : ∀ b ∈ l, p b = true → b = a) :
    l.countP p = 1 := by
  rw [← List.count_eq_one_of_mem hnodup ha]
  refine List.countP_congr fun b hb => ?_
  rw [beq_iff_eq]
  exact ⟨honly b hb, fun heq => heq ▸ hpa⟩

/-! ## Steps at which nobody comes or goes -/

/-- A step of a diary whose programs stay. -/
inductive Quiet (d : Diary) : Step → Option Instance → Rota Instance → Prop where
  | paused {step : Step} (hstep : step ≠ .pass) : Quiet d step none d.rota
  | waited (hdue : ¬ d.rota.IsDue d.shard.tick) : Quiet d .pass none d.rota
  | passed {x : Instance} (hdue : d.rota.IsDue d.shard.tick) (hplayer : d.rota.player? = some x) :
      Quiet d .pass (some x) d.rota.pass

theorem Sound.quiet (h : d.Sound rules maxPrograms)
    (hsame : ∀ x, (d.next step).Lives x ↔ d.Lives x) :
    d.Quiet step (d.playing? step) (d.next step).rota := by
  have hclosed := h.closed (fun x => (hsame x).mp) fun _ x => (hsame x).mpr
  unfold Lives at hsame
  generalize (d.next step).rota = r, d.playing? step = played at hclosed hsame ⊢
  cases hclosed with
  | paused hstep => exact .paused hstep
  | ticked hticked =>
      cases hticked with
      | waited hdue => exact .waited hdue
      | passed hdue hplayer => exact .passed hdue hplayer
      | died hdue hplayer =>
          have hlength := Rota.length_leave_turn (Rota.lt_length_of_player? hplayer)
          refine absurd ?_ (h.not_length_lt fun x => (hsame x).mpr)
          omega

/-- A step leaves the turn due at a tick, and until then only a seat that plays has its slot. -/
theorem Quiet.exists_awaits {played : Option Instance} {r : Rota Instance}
    (h : d.Quiet step played r) (hdue : d.rota.Awaits d.shard.tick due) :
    ∃ due', r.Awaits (d.next step).shard.tick due' ∧ ∀ t x,
      due ≤ t ∧ d.rota.HasSlot x t ↔
        (t = d.shard.tick ∧ played = some x) ∨ (due' ≤ t ∧ r.HasSlot x t) := by
  cases h with
  | paused hstep =>
      refine ⟨due, ?_, by simp⟩
      rwa [tick_next_of_ne_pass hstep]
  | waited hnot =>
      refine ⟨due, ?_, by simp⟩
      rw [tick_next_pass]
      exact hdue.of_not_isDue hnot
  | passed hnow hplayer =>
      obtain rfl := hdue.isDue_iff.mp hnow
      simpa only [tick_next_pass, Option.some.injEq] using hdue.exists_pass hplayer

/-! ## Plays in order -/

theorem tick_le_tick_after (d : Diary) (steps : List Step) :
    d.shard.tick ≤ (d.after steps).shard.tick := by
  induction steps generalizing d with
  | nil => exact Nat.le_refl _
  | cons step steps ih =>
      have hrest := ih (d.next step)
      rcases d.tick_next step with ⟨-, htick⟩ | ⟨-, htick⟩ <;> rw [after_cons] <;> omega

theorem tick_lt_of_playing (hplaying : d.playing? step = some x) :
    d.shard.tick < (d.next step).shard.tick := by
  cases step with
  | pass =>
      rw [tick_next_pass]
      exact Nat.lt_succ_self _
  | install | kill | checkNames | repopulate => cases hplaying

theorem mem_plays_cons {steps : List Step} :
    (t, x) ∈ d.plays (step :: steps) ↔
      (t = d.shard.tick ∧ d.playing? step = some x) ∨ (t, x) ∈ (d.next step).plays steps := by
  rw [plays_cons, List.mem_append]
  cases d.playing? step with
  | none => simp
  | some y => simp [eq_comm]

theorem tick_le_of_mem_plays {steps : List Step} (hplay : (t, x) ∈ d.plays steps) :
    d.shard.tick ≤ t := by
  induction steps generalizing d with
  | nil => cases hplay
  | cons step steps ih =>
      rcases mem_plays_cons.mp hplay with ⟨rfl, -⟩ | hplay
      · exact Nat.le_refl _
      · have htick := ih hplay
        rcases d.tick_next step with ⟨-, hnext⟩ | ⟨-, hnext⟩ <;> omega

/-- The ticks of plays come one after the other. -/
theorem pairwise_plays (d : Diary) (steps : List Step) :
    (d.plays steps).Pairwise (·.1 < ·.1) := by
  induction steps generalizing d with
  | nil => exact .nil
  | cons step steps ih =>
      rw [plays_cons]
      cases hplaying : d.playing? step with
      | none => exact ih (d.next step)
      | some x =>
          refine List.pairwise_cons.mpr ⟨?_, ih (d.next step)⟩
          rintro ⟨t, y⟩ hplay
          exact Nat.lt_of_lt_of_le (tick_lt_of_playing hplaying) (tick_le_of_mem_plays hplay)

/-! ## Each seat at its slot -/

/-- While nobody comes or goes, each seat plays at its slot from the tick on at which the turn is
due. -/
theorem Sound.mem_plays_iff (h : d.Sound rules maxPrograms) {steps : List Step}
    (hdue : d.rota.Awaits d.shard.tick due)
    (hsame : ∀ part, part <+: steps → ∀ x, (d.after part).Lives x ↔ d.Lives x) :
    (t, x) ∈ d.plays steps ↔
      due ≤ t ∧ t < (d.after steps).shard.tick ∧ d.rota.HasSlot x t := by
  induction steps generalizing d due with
  | nil =>
      have hle := hdue.tick_le
      simp only [plays_nil, List.not_mem_nil, after_nil, false_iff, not_and]
      omega
  | cons step steps ih =>
      have hfirst : ∀ x, (d.next step).Lives x ↔ d.Lives x := hsame [step] (by simp)
      have hrest : ∀ part, part <+: steps → ∀ x,
          ((d.next step).after part).Lives x ↔ (d.next step).Lives x := by
        intro part hpart x
        rw [hfirst]
        exact hsame (step :: part) (List.cons_prefix_cons.mpr ⟨rfl, hpart⟩) x
      obtain ⟨due', hdue', hstep⟩ := (h.quiet hfirst).exists_awaits hdue
      have hend := (d.next step).tick_le_tick_after steps
      rw [and_left_comm, hstep, mem_plays_cons, ih (h.next step) hdue' hrest, after_cons]
      constructor
      · rintro (⟨rfl, hplaying⟩ | ⟨hle, hlt, hhas⟩)
        · exact ⟨(tick_lt_of_playing hplaying).trans_le hend, .inl ⟨rfl, hplaying⟩⟩
        · exact ⟨hlt, .inr ⟨hle, hhas⟩⟩
      · rintro ⟨hlt, hplay | ⟨hle, hhas⟩⟩
        · exact .inl hplay
        · exact .inr ⟨hle, hlt, hhas⟩

theorem Sound.exists_awaits (h : d.Sound rules maxPrograms) (hpos : 1 ≤ d.rota.seats.length)
    (hn : d.rota.seats.length ≤ 30) :
    ∃ x due, d.rota.player? = some x ∧ d.rota.Awaits d.shard.tick due := by
  have hturn : d.rota.turn < d.rota.seats.length := by
    rcases h.inRange with hlt | hzero <;> omega
  obtain ⟨due, hafter, hbefore, hdue, -⟩ :=
    Rota.exists_tick_of_slot d.shard.tick d.rota.slot (Rota.slot_lt hn hturn)
  exact ⟨_, due, List.getElem?_eq_getElem hturn, hturn, hn, hafter, hbefore, hdue⟩

/-- While nobody comes or goes, somebody plays within a round, and from then on each program plays
once in any 31 ticks, at its own tick of every round. -/
theorem steady_pace {n : Nat} {steps : List Step} (hreach : d.Reachable)
    (hcount : d.shard.battle.warriors.length = n) (hpos : 1 ≤ n) (hle : n ≤ 30)
    (hsame : ∀ part, part <+: steps → ∀ x, (d.after part).Lives x ↔ d.Lives x) :
    (d.shard.tick + 31 ≤ (d.after steps).shard.tick →
      ∃ play ∈ d.plays steps, play.1 < d.shard.tick + 31) ∧
    ∀ first ∈ (d.plays steps).head?,
      (∀ t x, (t, x) ∈ d.plays steps ↔
        first.1 ≤ t ∧ t < (d.after steps).shard.tick ∧
          ∃ k, d.rota.seats[k]? = some x ∧ t % 31 = k * (30 / n)) ∧
      ∀ w, first.1 ≤ w → w + 31 ≤ (d.after steps).shard.tick → ∀ x, d.Lives x →
        (d.plays steps).countP (fun play => w ≤ play.1 ∧ play.1 < w + 31 ∧ play.2 = x) = 1 := by
  obtain ⟨rules, maxPrograms, h⟩ := hreach.sound
  rw [← h.length_seats] at hcount
  subst hcount
  obtain ⟨y, due, hplayer, hdue⟩ := h.exists_awaits hpos hle
  have hbefore := hdue.lt_tick
  have hiff {t : Nat} {x : Instance} := h.mem_plays_iff (t := t) (x := x) hdue hsame
  have hfirst (hend : due < (d.after steps).shard.tick) : (due, y) ∈ d.plays steps :=
    hiff.mpr ⟨Nat.le_refl _, hend, Rota.hasSlot_player hplayer hdue.slot_eq⟩
  refine ⟨fun hend => ⟨_, hfirst (by omega), hbefore⟩, ?_⟩
  rintro ⟨first, z⟩ hhead
  obtain ⟨rest, hplays⟩ := List.head?_eq_some_iff.mp hhead
  obtain rfl : first = due := by
    have hmem := hiff.mp (hplays ▸ List.mem_cons_self : (first, z) ∈ d.plays steps)
    have hturn := hfirst (by omega)
    have hsorted := d.pairwise_plays steps
    rw [hplays] at hturn hsorted
    rcases List.mem_cons.mp hturn with heq | hlater
    · exact (congrArg Prod.fst heq).symm
    · have hlt := List.rel_of_pairwise_cons hsorted hlater
      omega
  refine ⟨fun t x => hiff, ?_⟩
  intro w hw hend x hx
  obtain ⟨k, hseat⟩ := List.mem_iff_getElem?.mp hx
  obtain ⟨hspacing, hfit⟩ := Rota.slot_bounds hle (List.getElem?_eq_some_iff.mp hseat).1
  obtain ⟨t, ht, ht', htslot, honly⟩ :=
    Rota.exists_tick_of_slot w (k * (30 / d.rota.seats.length)) (by omega)
  have hplay : (t, x) ∈ d.plays steps := hiff.mpr ⟨by omega, by omega, k, hseat, htslot⟩
  refine countP_eq_one ?_ hplay (by simpa using ⟨ht, ht'⟩) ?_
  · exact (d.pairwise_plays steps).imp fun hlt heq => Nat.ne_of_lt hlt (congrArg Prod.fst heq)
  · rintro ⟨u, z⟩ hmem hwindow
    obtain ⟨hu, hu', rfl⟩ : w ≤ u ∧ u < w + 31 ∧ z = x := by simpa using hwindow
    obtain ⟨-, -, j, hseat', huslot⟩ := hiff.mp hmem
    have hplace : j = k := by
      refine (List.getElem?_inj (List.getElem?_eq_some_iff.mp hseat').1 h.nodup_seats).mp ?_
      rw [hseat', hseat]
    rw [hplace] at huslot
    rw [honly u hu hu' huslot]

/-- The second program joins when the first one has played in this round. -/
def lateJoiner : Diary :=
  (start 0 { columnSize := 1, columnCount := 4 } 2 8 ⟨1, 2, 3, 4⟩).after
    (.install "a" "jump 0" none none :: List.replicate 5 .pass ++
      [.install "b" "jump 0" none none])

theorem lives_lateJoiner (part : List Step) (hpart : part <+: List.replicate 60 .pass)
    (x : Instance) : (lateJoiner.after part).Lives x ↔ lateJoiner.Lives x := by
  obtain ⟨hlength, hpasses⟩ := List.prefix_replicate_iff.mp hpart
  have hseats : ∀ k < 61, (lateJoiner.after (List.replicate k .pass)).rota.seats =
      lateJoiner.rota.seats := by
    decide +kernel
  rw [Lives, hpasses, hseats part.length (by omega), Lives]

theorem steady_pace_lateJoiner :
    lateJoiner.shard.battle.warriors.length = 2 ∧
      (lateJoiner.plays (List.replicate 60 .pass)).head? = some (31, ⟨1, 0⟩) ∧
      (lateJoiner.plays (List.replicate 60 .pass)).countP
        (fun play => 32 ≤ play.1 ∧ play.1 < 32 + 31 ∧ play.2 = ⟨2, 6⟩) = 1 := by
  have hcount : lateJoiner.shard.battle.warriors.length = 2 := by
    decide +kernel
  have hfirst : (lateJoiner.plays (List.replicate 60 .pass)).head? = some (31, ⟨1, 0⟩) := by
    decide +kernel
  have hpace := steady_pace ⟨_, _, _, _, _, _, rfl⟩ hcount (by omega) (by omega) lives_lateJoiner
  exact ⟨hcount, hfirst, (hpace.2 _ hfirst).2 32 (by decide) (by decide +kernel) ⟨2, 6⟩
    (by decide +kernel)⟩

end Diary

end CoreArena
