import CoreArena.Proofs.Battle.Fairness
import CoreArena.Proofs.Shard.Turnover

/-! # Who plays when

A shard gives the numbers of dead programs again. A `Diary` therefore keeps the time at which each
program joined, and tells which instance plays at which tick. Whatever a step does to the rota of
instances is said by `Turnover`. -/

namespace CoreArena

/-- The numbers of the programs that a step does not bring in. -/
def Shard.veterans (s : Shard) : Shard.Step → List Nat
  | .pass => s.playIfDue.shard.battle.ids
  | .install .. | .kill _ | .checkNames _ | .repopulate => s.battle.ids

/-- A shard with the times at which its programs joined. -/
structure Diary where
  shard : Shard
  birth : Nat → Nat
  /-- The number of steps so far. -/
  clock : Nat

namespace Diary

open Shard

def start (id : Nat) (rules : Rules) (maxPrograms maxNameLength : Nat) (random : Xoshiro) : Diary :=
  ⟨.start id rules maxPrograms maxNameLength random, fun _ => 0, 0⟩

/-- The diary after a step. Whoever the step brings in joins at its time. -/
def next (d : Diary) (step : Step) : Diary where
  shard := d.shard.next step
  birth id := if id ∈ d.shard.veterans step then d.birth id else d.clock
  clock := d.clock + 1

def after (d : Diary) : List Step → Diary
  | [] => d
  | step :: steps => (d.next step).after steps

def stay (d : Diary) (id : Nat) : Instance :=
  ⟨id, d.birth id⟩

def rota (d : Diary) : Rota Instance :=
  d.shard.battle.rota.map d.stay

def Lives (d : Diary) (x : Instance) : Prop :=
  x ∈ d.rota.seats

instance (d : Diary) (x : Instance) : Decidable (d.Lives x) :=
  inferInstanceAs (Decidable (x ∈ d.rota.seats))

/-- The instance that a step lets execute an instruction. -/
def playing? (d : Diary) : Step → Option Instance
  | .pass => d.shard.playing?.map d.stay
  | .install .. | .kill _ | .checkNames _ | .repopulate => none

/-- The ticks of a list of steps at which an instruction is executed, and who executes it. -/
def plays (d : Diary) : List Step → List (Nat × Instance)
  | [] => []
  | step :: steps =>
    ((d.playing? step).map (d.shard.tick, ·)).toList ++ (d.next step).plays steps

@[simp] theorem after_nil (d : Diary) : d.after [] = d := rfl

@[simp] theorem after_cons (d : Diary) (step : Step) (steps : List Step) :
    d.after (step :: steps) = (d.next step).after steps := rfl

@[simp] theorem plays_nil (d : Diary) : d.plays [] = [] := rfl

@[simp] theorem plays_cons (d : Diary) (step : Step) (steps : List Step) :
    d.plays (step :: steps) =
      ((d.playing? step).map (d.shard.tick, ·)).toList ++ (d.next step).plays steps := rfl

/-- What can happen to the rota of a diary at a step, and who plays at it. -/
inductive Turnover (d : Diary) : Step → Option Instance → Rota Instance → Prop where
  | joined {step : Step} {newcomers : List Instance} (hstep : step ≠ .pass)
      (hnew : ∀ x ∈ newcomers, x.birth = d.clock) :
      Turnover d step none (d.rota.join newcomers)
  | left {step : Step} {r : Rota Instance} (hstep : step ≠ .pass) (hleaves : d.rota.Leaves r) :
      Turnover d step none r
  | ticked {played : Option Instance} {r : Rota Instance} {newcomers : List Instance}
      (hticked : Rota.Ticked d.shard.tick d.rota played r)
      (hnew : ∀ x ∈ newcomers, x.birth = d.clock) :
      Turnover d .pass played (r.join newcomers)

/-- What holds of a diary between two steps: the books are kept, and whoever is there has joined
before. -/
structure Sound (rules : Rules) (maxPrograms : Nat) (d : Diary) : Prop where
  inOrder : d.shard.InOrder rules maxPrograms
  birth_lt : ∀ id ∈ d.shard.battle.ids, d.birth id < d.clock

variable {rules : Rules} {maxPrograms : Nat} {d : Diary} {step : Step} {x : Instance}

/-! ## Reachable diaries -/

theorem sound_start (id : Nat) (rules : Rules) (maxPrograms maxNameLength : Nat)
    (random : Xoshiro) :
    (start id rules maxPrograms maxNameLength random).Sound rules maxPrograms :=
  ⟨inOrder_start .., fun _ h => absurd h List.not_mem_nil⟩

/-- What can become of a shard without programs. -/
def Reachable (d : Diary) : Prop :=
  ∃ id rules maxPrograms maxNameLength random steps,
    d = (start id rules maxPrograms maxNameLength random).after steps

theorem birth_next_of_mem {id : Nat} (hid : id ∈ d.shard.veterans step) :
    (d.next step).stay id = d.stay id :=
  congrArg (Instance.mk id) (if_pos hid)

theorem birth_next_of_not_mem {id : Nat} (hid : id ∉ d.shard.veterans step) :
    (d.next step).stay id = ⟨id, d.clock⟩ :=
  congrArg (Instance.mk id) (if_neg hid)

theorem tick_next_pass (d : Diary) : (d.next .pass).shard.tick = d.shard.tick + 1 :=
  d.shard.tick_pass

theorem tick_next_of_ne_pass (hstep : step ≠ .pass) : (d.next step).shard.tick = d.shard.tick :=
  Shard.tick_next_of_ne_pass hstep

theorem tick_next (d : Diary) (step : Step) :
    step ≠ .pass ∧ (d.next step).shard.tick = d.shard.tick ∨
      step = .pass ∧ (d.next step).shard.tick = d.shard.tick + 1 := by
  by_cases hpass : step = .pass
  · subst hpass
    exact .inr ⟨rfl, d.tick_next_pass⟩
  · exact .inl ⟨hpass, tick_next_of_ne_pass hpass⟩

namespace Sound

theorem nodup_ids (h : d.Sound rules maxPrograms) : d.shard.battle.ids.Nodup :=
  (List.nodup_append.mp h.inOrder.nodup).2.1

theorem nodup_seats (h : d.Sound rules maxPrograms) : d.rota.seats.Nodup := by
  refine h.nodup_ids.map ?_
  intro id id' hsame
  exact congrArg Instance.id hsame

theorem inRange (h : d.Sound rules maxPrograms) : d.rota.InRange := by
  have hrange := h.inOrder.battle.inRange_rota
  rwa [Rota.InRange, ← List.length_map (f := d.stay)] at hrange

theorem birth_lt_of_lives (h : d.Sound rules maxPrograms) (hx : d.Lives x) :
    x.birth < d.clock := by
  obtain ⟨id, hid, rfl⟩ := List.mem_map.mp hx
  exact h.birth_lt id hid

theorem veterans_subset (h : d.Sound rules maxPrograms) (step : Step) :
    d.shard.veterans step ⊆ d.shard.battle.ids := by
  cases step with
  | pass => exact h.inOrder.ticked_playIfDue.sublist.subset
  | install | kill | checkNames | repopulate => exact List.Subset.refl _

theorem next (h : d.Sound rules maxPrograms) (step : Step) :
    (d.next step).Sound rules maxPrograms := by
  refine ⟨h.inOrder.next step, ?_⟩
  intro id _
  show (if id ∈ d.shard.veterans step then d.birth id else d.clock) < d.clock + 1
  split
  · rename_i hid
    exact Nat.lt_succ_of_lt (h.birth_lt id (h.veterans_subset step hid))
  · exact Nat.lt_succ_self d.clock

theorem after (h : d.Sound rules maxPrograms) (steps : List Step) :
    (d.after steps).Sound rules maxPrograms := by
  induction steps generalizing d with
  | nil => exact h
  | cons step steps ih => exact ih (h.next step)

theorem length_seats (h : d.Sound rules maxPrograms) :
    d.rota.seats.length = d.shard.battle.warriors.length := by
  rw [h.inOrder.length_warriors]
  exact List.length_map _

/-! ## What a step does to the rota -/

/-- Veterans keep their births, and whoever joins behind them is born now. -/
theorem rota_next_of_join (h : d.Sound rules maxPrograms) (step : Step) {r : Rota Nat}
    {ids : List Nat}
    (hveterans : d.shard.veterans step = r.seats)
    (hjoin : (d.shard.next step).battle.rota = r.join ids) :
    ∃ newcomers, (∀ x ∈ newcomers, x.birth = d.clock) ∧
      (d.next step).rota = (r.map d.stay).join newcomers := by
  have hnodup : (r.seats ++ ids).Nodup := by
    have hnext := (h.next step).nodup_ids
    rwa [show (d.next step).shard.battle.ids = r.seats ++ ids from congrArg Rota.seats hjoin]
      at hnext
  have hold : r.map (d.next step).stay = r.map d.stay := by
    refine Rota.map_congr _ fun id hid => birth_next_of_mem ?_
    rwa [hveterans]
  refine ⟨ids.map (d.next step).stay, ?_, ?_⟩
  · intro x hx
    obtain ⟨id, hid, rfl⟩ := List.mem_map.mp hx
    have hnew : id ∉ d.shard.veterans step := by
      rw [hveterans]
      exact fun hmem => (List.nodup_append.mp hnodup).2.2 id hmem id hid rfl
    rw [birth_next_of_not_mem hnew]
  · rw [rota, ← hold, ← Rota.map_join]
    exact congrArg (Rota.map _) hjoin

theorem rota_next_of_leaves (hveterans : d.shard.veterans step = d.shard.battle.ids)
    (hleaves : d.shard.battle.rota.Leaves (d.shard.next step).battle.rota) :
    d.rota.Leaves (d.next step).rota := by
  have hold : (d.next step).rota = (d.shard.next step).battle.rota.map d.stay := by
    refine Rota.map_congr _ fun id hid => birth_next_of_mem ?_
    rw [hveterans]
    exact hleaves.sublist.subset hid
  rw [hold]
  exact hleaves.map d.stay

theorem turnover_of_joins (h : d.Sound rules maxPrograms) (hstep : step ≠ .pass)
    (hveterans : d.shard.veterans step = d.shard.battle.ids)
    (hjoins : d.shard.Joins (d.shard.next step)) : d.Turnover step none (d.next step).rota := by
  obtain ⟨ids, hids⟩ := hjoins.rota_eq
  obtain ⟨newcomers, hnew, hrota⟩ := h.rota_next_of_join step hveterans hids
  rw [hrota]
  exact .joined hstep hnew

/-- A step lets programs join, or takes some out, or is a tick, at which one may play. -/
theorem turnover (h : d.Sound rules maxPrograms) (step : Step) :
    d.Turnover step (d.playing? step) (d.next step).rota := by
  cases step with
  | install name source filter address =>
      exact h.turnover_of_joins (by simp) rfl (d.shard.joins_install name source filter address)
  | pass =>
      obtain ⟨ids, hids⟩ := d.shard.playIfDue.shard.joins_repopulateIfDue.rota_eq
      obtain ⟨newcomers, hnew, hrota⟩ := h.rota_next_of_join .pass rfl hids
      rw [hrota]
      exact .ticked (h.inOrder.ticked_playIfDue.map d.stay) hnew
  | kill id => exact .left (by simp) (rota_next_of_leaves rfl (h.inOrder.leaves_kill id))
  | checkNames names =>
      exact .left (by simp) (rota_next_of_leaves rfl (h.inOrder.leaves_checkNames names))
  | repopulate => exact h.turnover_of_joins (by simp) rfl d.shard.joins_repopulate

end Sound

/-! ## Steps at which nobody joins -/

/-- What can happen to the rota of a diary at a step at which nobody joins and nobody is taken
out. -/
inductive Closed (d : Diary) : Step → Option Instance → Rota Instance → Prop where
  | paused {step : Step} (hstep : step ≠ .pass) : Closed d step none d.rota
  | ticked {played : Option Instance} {r : Rota Instance}
      (hticked : Rota.Ticked d.shard.tick d.rota played r) : Closed d .pass played r

namespace Sound

theorem newcomers_eq_nil (h : d.Sound rules maxPrograms) {newcomers : List Instance}
    (hnew : ∀ x ∈ newcomers, x.birth = d.clock) (hlives : ∀ x ∈ newcomers, d.Lives x) :
    newcomers = [] := by
  rw [List.eq_nil_iff_forall_not_mem]
  intro x hx
  exact Nat.ne_of_lt (h.birth_lt_of_lives (hlives x hx)) (hnew x hx)

theorem not_length_lt (h : d.Sound rules maxPrograms) {seats : List Instance}
    (hsub : d.rota.seats ⊆ seats) : ¬ seats.length < d.rota.seats.length :=
  Nat.not_lt.mpr (h.nodup_seats.subperm hsub).length_le

theorem closed (h : d.Sound rules maxPrograms) (hold : ∀ x, (d.next step).Lives x → d.Lives x)
    (hstay : step ≠ .pass → ∀ x, d.Lives x → (d.next step).Lives x) :
    d.Closed step (d.playing? step) (d.next step).rota := by
  have hturnover := h.turnover step
  unfold Lives at hold hstay
  generalize (d.next step).rota = r, d.playing? step = played at hturnover hold hstay ⊢
  cases hturnover with
  | @joined _ newcomers hstep hnew =>
      have hnone : newcomers = [] := h.newcomers_eq_nil hnew fun x hx =>
        hold x (List.mem_append_right _ hx)
      rw [hnone, Rota.join_nil]
      exact .paused hstep
  | left hstep hleaves =>
      rcases hleaves.eq_or_length_lt with rfl | hlt
      · exact .paused hstep
      · exact absurd hlt (h.not_length_lt (hstay hstep))
  | @ticked _ t newcomers hticked hnew =>
      have hnone : newcomers = [] := h.newcomers_eq_nil hnew fun x hx =>
        hold x (List.mem_append_right _ hx)
      rw [hnone, Rota.join_nil]
      exact .ticked hticked

end Sound

theorem Reachable.sound (h : d.Reachable) :
    ∃ rules maxPrograms, d.Sound rules maxPrograms := by
  obtain ⟨id, rules, maxPrograms, maxNameLength, random, steps, rfl⟩ := h
  exact ⟨rules, maxPrograms, (sound_start id rules maxPrograms maxNameLength random).after steps⟩

end Diary

end CoreArena
