import CoreArena.Proofs.Shard.Diary

/-! # At most one turn in a round

The turn moves forward through the seats until it is back at the first one, and there it stays until
a new round begins. Whoever has played in a round is therefore `Spent` for the rest of it, whatever
happens to the seats. -/

namespace CoreArena

namespace Rota

variable {α : Type} {r t : Rota α} {x y : α} {tick : Nat} {played : Option α}

/-- A seat has no turn any more before the turn comes back to the first one. -/
def Behind (r : Rota α) (x : α) : Prop :=
  r.turn = 0 ∨ x ∉ r.waiting

theorem behind_of_ticked (h : Ticked tick r (some x) t) (hnodup : r.seats.Nodup) :
    t.Behind x := by
  by_cases hlast : r.turn + 1 < r.seats.length
  · right
    have hnodup' : r.waiting.Nodup := hnodup.sublist (List.drop_sublist _ _)
    rw [h.waiting_eq hlast] at hnodup'
    exact (List.nodup_cons.mp hnodup').1
  · exact .inl (h.turn_eq_zero (Nat.not_lt.mp hlast))

namespace Behind

theorem join (h : r.Behind x) (hr : r.InRange) {newcomers : List α} (hx : x ∉ newcomers) :
    (r.join newcomers).Behind x := by
  rcases h with hzero | hwaiting
  · exact .inl hzero
  · right
    rw [waiting_join hr, List.mem_append, not_or]
    exact ⟨hwaiting, hx⟩

theorem leaves (h : r.Behind x) (hr : r.InRange) (hleaves : r.Leaves t) : t.Behind x := by
  induction hleaves with
  | refl => exact h
  | @tail t index hleaves hindex ih =>
      rcases ih with hzero | hwaiting
      · exact .inl (turn_leave_of_turn_eq_zero hzero index)
      · rcases waiting_leave (hleaves.inRange hr) index with hzero | hsub
        · exact .inl hzero
        · exact .inr fun hx => hwaiting (hsub hx)

theorem ticked (h : r.Behind x) (hticked : Ticked tick r played t)
    (hmid : tick % roundLength ≠ 0) : t.Behind x := by
  cases played with
  | none =>
      cases hticked with
      | waited => exact h
  | some y =>
      have hwaiting := h.resolve_left (turn_ne_zero_of_isDue hticked.isDue hmid)
      by_cases hlast : r.turn + 1 < r.seats.length
      · right
        rw [hticked.waiting_eq hlast] at hwaiting
        exact fun hx => hwaiting (List.mem_cons_of_mem y hx)
      · exact .inl (hticked.turn_eq_zero (Nat.not_lt.mp hlast))

/-- Only at the first tick of a round can such a seat be the one that plays. -/
theorem ne_of_ticked (h : r.Behind x) (hticked : Ticked tick r (some y) t)
    (hmid : tick % roundLength ≠ 0) : x ≠ y := by
  rintro rfl
  apply h.resolve_left (turn_ne_zero_of_isDue hticked.isDue hmid)
  rw [waiting_of_player? hticked.player?]
  exact List.mem_cons_self

end Behind

end Rota

namespace Diary

open Shard

variable {rules : Rules} {maxPrograms : Nat} {d : Diary} {step : Step} {x : Instance}

def round (d : Diary) : Nat :=
  d.shard.tick / roundLength

/-- An instance does not play any more in a round. -/
inductive Spent (d : Diary) (x : Instance) : Nat → Prop where
  | past {round : Nat} (hround : round < d.round) : Spent d x round
  | behind (hmid : d.shard.tick % roundLength ≠ 0) (hbirth : x.birth < d.clock)
      (hbehind : d.rota.Behind x) : Spent d x d.round

theorem Spent.not_playing (h : d.Sound rules maxPrograms) {round : Nat}
    (hspent : d.Spent x round) : ¬ (d.round = round ∧ d.playing? step = some x) := by
  rintro ⟨rfl, hplaying⟩
  cases hspent with
  | past hround => exact Nat.lt_irrefl _ hround
  | behind hmid hbirth hbehind =>
      have hturnover := h.turnover step
      rw [hplaying] at hturnover
      generalize (d.next step).rota = r at hturnover
      cases hturnover with
      | ticked hticked => exact hbehind.ne_of_ticked hticked hmid rfl

/-- If it is still the same round after a step, it is not the first tick of it. -/
theorem round_next (d : Diary) (step : Step) :
    d.round < (d.next step).round ∨ (d.next step).round = d.round ∧
      (step = .pass ∨ d.shard.tick % roundLength ≠ 0 →
        (d.next step).shard.tick % roundLength ≠ 0) := by
  have htick := d.tick_next step
  unfold round roundLength
  rcases htick with ⟨hstep, htick⟩ | ⟨hstep, htick⟩ <;> rw [htick]
  · exact .inr ⟨rfl, fun h => h.resolve_left hstep⟩
  · omega

theorem not_mem_of_birth_lt {newcomers : List Instance}
    (hnew : ∀ y ∈ newcomers, y.birth = d.clock) (hbirth : x.birth < d.clock) :
    x ∉ newcomers :=
  fun hx => Nat.ne_of_lt hbirth (hnew x hx)

theorem Spent.next (h : d.Sound rules maxPrograms) {round : Nat} (hspent : d.Spent x round)
    (step : Step) : (d.next step).Spent x round := by
  have hround := d.round_next step
  cases hspent with
  | past hpast =>
      refine .past ?_
      rcases hround with hlt | ⟨hsame, -⟩ <;> omega
  | behind hmid hbirth hbehind =>
      rcases hround with hlt | ⟨hsame, hmid'⟩
      · exact .past hlt
      · rw [← hsame]
        refine .behind (hmid' (.inr hmid)) (Nat.lt_succ_of_lt hbirth) ?_
        have hturnover := h.turnover step
        generalize (d.next step).rota = r, d.playing? step = played at hturnover ⊢
        cases hturnover with
        | joined hstep hnew => exact hbehind.join h.inRange (not_mem_of_birth_lt hnew hbirth)
        | left hstep hleaves => exact hbehind.leaves h.inRange hleaves
        | ticked hticked hnew =>
            refine (hbehind.ticked hticked hmid).join (hticked.inRange h.inRange) ?_
            exact not_mem_of_birth_lt hnew hbirth

theorem spent_of_playing (h : d.Sound rules maxPrograms) (hplaying : d.playing? step = some x) :
    (d.next step).Spent x d.round := by
  have hround := d.round_next step
  have hturnover := h.turnover step
  rw [hplaying] at hturnover
  generalize hrota : (d.next step).rota = r at hturnover
  cases hturnover with
  | ticked hticked hnew =>
      rcases hround with hlt | ⟨hsame, hmid⟩
      · exact .past hlt
      · have hlives : d.Lives x := List.mem_of_getElem? hticked.player?
        have hbirth := h.birth_lt_of_lives hlives
        rw [← hsame]
        refine .behind (hmid (.inl rfl)) (Nat.lt_succ_of_lt hbirth) ?_
        rw [hrota]
        refine (Rota.behind_of_ticked hticked h.nodup_seats).join (hticked.inRange h.inRange) ?_
        exact not_mem_of_birth_lt hnew hbirth

/-! ## Counting turns -/

/-- Whether a play is a turn of an instance in a round. -/
def isTurnOf (x : Instance) (round : Nat) (play : Nat × Instance) : Bool :=
  decide (play.1 / roundLength = round ∧ play.2 = x)

theorem countP_plays_cons (d : Diary) (step : Step) (steps : List Step) (x : Instance)
    (round : Nat) :
    (d.plays (step :: steps)).countP (isTurnOf x round) =
      (if d.round = round ∧ d.playing? step = some x then 1 else 0) +
        ((d.next step).plays steps).countP (isTurnOf x round) := by
  rw [plays_cons, List.countP_append]
  congr 1
  cases d.playing? step with
  | none => simp
  | some y => simp [isTurnOf, Diary.round]

theorem Spent.countP_plays (h : d.Sound rules maxPrograms) {round : Nat} (hspent : d.Spent x round)
    (steps : List Step) : (d.plays steps).countP (isTurnOf x round) = 0 := by
  induction steps generalizing d with
  | nil => rfl
  | cons step steps ih =>
      rw [countP_plays_cons, if_neg (hspent.not_playing h), Nat.zero_add]
      exact ih (h.next step) (hspent.next h step)

theorem Sound.countP_plays_le_one (h : d.Sound rules maxPrograms) (steps : List Step)
    (x : Instance) (round : Nat) : (d.plays steps).countP (isTurnOf x round) ≤ 1 := by
  induction steps generalizing d with
  | nil => exact Nat.zero_le 1
  | cons step steps ih =>
      rw [countP_plays_cons]
      split
      · rename_i hplays
        obtain ⟨rfl, hplaying⟩ := hplays
        have hrest := (spent_of_playing h hplaying).countP_plays (h.next step) steps
        rw [hrest]
      · rw [Nat.zero_add]
        exact ih (h.next step)

/-- Whatever happens to a shard, no instance executes two instructions in one round of 31 ticks. -/
theorem at_most_one_turn_a_round (id : Nat) (rules : Rules) (maxPrograms maxNameLength : Nat)
    (random : Xoshiro) (steps : List Step) (x : Instance) (round : Nat) :
    ((start id rules maxPrograms maxNameLength random).plays steps).countP
      (fun play => play.1 / 31 = round ∧ play.2 = x) ≤ 1 :=
  (sound_start id rules maxPrograms maxNameLength random).countP_plays_le_one steps x round

end Diary

end CoreArena
