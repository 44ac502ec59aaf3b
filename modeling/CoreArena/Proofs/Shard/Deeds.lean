import CoreArena.Proofs.Battle.Change
import CoreArena.Proofs.Battle.Scoreboard
import CoreArena.Proofs.Shard.Books

/-! # What a shard does to its battle

Whatever happens to a shard is a list of steps of its battle, its `deeds`: programs are installed,
one plays, or some are taken out. Beside its battle the shard keeps the scoreboard of these steps:
`board_after`. -/

namespace CoreArena

namespace Battle

variable {b : Battle}

/-- An address and the cell that it leads to are equally good. -/
theorem install_locate (h : 0 < b.arena.size) (p : Program) (address : Nat) :
    b.install p (b.arena.locate address) = b.install p address := by
  rw [install, install, Arena.locate_of_lt (Arena.locate_lt h address)]

/-- A step that sets no cells lets nobody in. -/
theorem admits_of_setsCells (b : Battle) {s : Step} (h : s.setsCells = false) :
    b.admits s = [] := by
  cases s with
  | install | poke => cases h
  | advance | kill | killById => rfl

theorem history_singleton (b : Battle) (s : Step) : b.history [s] = b.reports s := by
  rw [history_cons, history_nil, List.append_nil]

end Battle

/-- The step that brings a program to where it is. -/
def Warrior.installation (w : Warrior) : Battle.Step :=
  .install w.program w.placement.start

/-- While nobody joins, the deaths are all that is entered. -/
theorem Scoreboard.after_of_setsCells (b : Scoreboard) {steps : List Battle.Step}
    (h : ∀ s ∈ steps, s.setsCells = false) :
    b.after steps =
      ⟨b.battle.after steps, (b.battle.history steps).foldl Score.enter b.scores⟩ := by
  induction steps generalizing b with
  | nil => rfl
  | cons s steps ih =>
      have hadmits := b.battle.admits_of_setsCells (h s List.mem_cons_self)
      rw [after_cons, ih _ fun s hs => h s (List.mem_cons_of_mem _ hs), Battle.after_cons,
        Battle.history_cons, List.foldl_append, next, hadmits, List.map_nil, List.append_nil]

theorem Scoreboard.battle_after (b : Scoreboard) (steps : List Battle.Step) :
    (b.after steps).battle = b.battle.after steps := by
  induction steps generalizing b with
  | nil => rfl
  | cons s steps ih => exact ih (b.next s)

namespace Shard

variable {rules : Rules} {maxPrograms : Nat} {s t u : Shard}

/-- The battle of a shard with the scores that the shard keeps. -/
def board (s : Shard) : Scoreboard :=
  ⟨s.battle, s.scores⟩

/-! ## Joining -/

/-- Nothing has happened to a shard but that programs joined. -/
structure Grows (s t : Shard) : Prop where
  id_eq : t.id = s.id
  summary_eq : t.summary = s.summary
  newcomers : ∃ ws, t.battle.warriors = s.battle.warriors ++ ws ∧
    t.board = s.board.after (ws.map Warrior.installation)

/-- The steps that bring in those who are in a later shard only. -/
def arrivals (s t : Shard) : List Battle.Step :=
  (t.battle.warriors.drop s.battle.warriors.length).map Warrior.installation

namespace Grows

theorem refl (s : Shard) : s.Grows s :=
  ⟨rfl, rfl, [], (List.append_nil _).symm, rfl⟩

theorem trans (h : s.Grows t) (h' : t.Grows u) : s.Grows u := by
  obtain ⟨ws, hwarriors, hboard⟩ := h.newcomers
  obtain ⟨more, hwarriors', hboard'⟩ := h'.newcomers
  refine ⟨h'.id_eq.trans h.id_eq, h'.summary_eq.trans h.summary_eq, ws ++ more, ?_, ?_⟩
  · rw [hwarriors', hwarriors, List.append_assoc]
  · rw [hboard', hboard, List.map_append, Scoreboard.after_append]

/-- Only what can be seen of a shard counts. -/
theorem congr (h : s.Grows t) (hid : u.id = t.id) (hsummary : u.summary = t.summary)
    (hboard : u.board = t.board) : s.Grows u := by
  obtain ⟨ws, hwarriors, hafter⟩ := h.newcomers
  refine ⟨hid.trans h.id_eq, hsummary.trans h.summary_eq, ws, ?_, hboard.trans hafter⟩
  exact (congrArg (fun b => b.battle.warriors) hboard).trans hwarriors

theorem board_eq (h : s.Grows t) : t.board = s.board.after (s.arrivals t) := by
  obtain ⟨ws, hwarriors, hboard⟩ := h.newcomers
  rw [arrivals, hwarriors, List.drop_left, hboard]

end Grows

theorem grows_place (s : Shard) (h : 0 < s.battle.arena.size) (name : String) (code : List Word) :
    s.Grows (s.place name code).shard := by
  have hplaced := s.placed_place name code
  generalize s.place name code = reply at hplaced ⊢
  cases hplaced with
  | full => exact .refl s
  | refused => exact (Grows.refl s).congr rfl rfl rfl
  | @placed id freeIds battle notices hfree hinstall =>
      have hagain := (Battle.install_locate h _ _).trans hinstall
      obtain ⟨-, -, -, -, hbattle⟩ := Battle.install_eq_ok_iff.mp hinstall
      refine ⟨rfl, rfl, _, congrArg Battle.warriors hbattle, ?_⟩
      rw [List.map_singleton, Scoreboard.after_cons, Scoreboard.after_nil]
      simp only [Warrior.installation, Scoreboard.next, board, Battle.next, Battle.reports,
        Battle.admits, hagain]
      rfl

theorem InOrder.grows_spawn (h : s.InOrder rules maxPrograms) : s.Grows s.spawn.shard := by
  have hplaced {drawn : Shard} {random : Xoshiro}
      (hdrawn : drawn = { s with random, spawned := s.spawned + 1 }) (name : String)
      (code : List Word) : s.Grows (drawn.place name code).shard := by
    have hgrows : s.Grows drawn := by
      subst hdrawn
      exact (Grows.refl s).congr rfl rfl rfl
    have hsize : 0 < drawn.battle.arena.size := by
      subst hdrawn
      exact h.battle.size_pos
    exact hgrows.trans (drawn.grows_place hsize name code)
  have hspawned := s.spawned_spawn
  generalize s.spawn = reply at hspawned ⊢
  cases hspawned with
  | misread => exact (Grows.refl s).congr rfl rfl rfl
  | refused _ hdrawn => exact hplaced hdrawn _ _
  | added _ hdrawn => exact (hplaced hdrawn _ _).congr rfl rfl rfl

theorem InOrder.grows_repopulate (h : s.InOrder rules maxPrograms) :
    s.Grows s.repopulate.shard :=
  (topUp_induction (P := fun t => t.InOrder rules maxPrograms ∧ s.Grows t)
    (fun _ hwants ⟨ht, hgrows⟩ => ⟨ht.spawn hwants, hgrows.trans ht.grows_spawn⟩)
    ⟨h, .refl s⟩ _).2

theorem InOrder.grows_repopulateIfDue (h : s.InOrder rules maxPrograms) :
    s.Grows s.repopulateIfDue.shard :=
  (repopulateIfDue_induction (P := fun t => t.InOrder rules maxPrograms ∧ s.Grows t)
    (fun _ hwants ⟨ht, hgrows⟩ => ⟨ht.spawn hwants, hgrows.trans ht.grows_spawn⟩)
    ⟨h, .refl s⟩).2

theorem InOrder.grows_install (h : s.InOrder rules maxPrograms) (name source : String)
    (filter : Option Admission.Filter) (address : Option String) :
    s.Grows (s.install name source filter address).shard := by
  have hsubmitted := s.submitted_install name source filter address
  generalize s.install name source filter address = reply at hsubmitted ⊢
  cases hsubmitted with
  | turnedAway => exact .refl s
  | admitted assembled => exact s.grows_place h.battle.size_pos _ _

/-! ## Leaving -/

theorem scores_settle (s : Shard) (events : List Event) :
    (s.settle events).1.scores = events.foldl Score.enter s.scores := by
  rw [settle_fst]
  refine (List.foldl_hom Shard.scores ?_).symm
  intro s e
  cases e <;> rfl

theorem summary_settle (s : Shard) (events : List Event) :
    (s.settle events).1.summary = s.summary := by
  rw [settle_fst]
  induction events generalizing s with
  | nil => rfl
  | cons e events ih =>
      rw [List.foldl_cons, ih]
      cases e <;> rfl

/-- Deaths are entered in the scores as they are reported. -/
theorem board_settle (s : Shard) (steps : List Battle.Step)
    (h : ∀ step ∈ steps, step.setsCells = false) :
    (settle { s with battle := s.battle.after steps } (s.battle.history steps)).1.board =
      s.board.after steps := by
  rw [Scoreboard.after_of_setsCells _ h, board, scores_settle, (settled_settle _ _).battle_eq]
  rfl

/-- Those who are expelled are taken out one after the other. -/
theorem expel_eq (s : Shard) (ids : List Nat) :
    (s.expel ids).1 = s.battle.after (ids.map .killById) ∧
      (s.expel ids).2.1 = s.battle.history (ids.map .killById) := by
  unfold expel
  generalize hbegin : (s.battle, ([] : List Event), ([] : List Notice)) = start
  have hbattle : s.battle = start.1 := by rw [← hbegin]
  have hevents : s.battle.history (ids.map .killById) =
      start.2.1 ++ start.1.history (ids.map .killById) := by rw [← hbegin, List.nil_append]
  rw [hevents, hbattle]
  clear hbegin hbattle hevents
  induction ids generalizing start with
  | nil => exact ⟨rfl, (List.append_nil _).symm⟩
  | cons id ids ih =>
      obtain ⟨hbattle, hevents⟩ := ih (_, start.2.1 ++ (start.1.killById id).events, _)
      refine ⟨hbattle, hevents.trans ?_⟩
      rw [List.map_cons, Battle.history_cons, List.append_assoc]
      rfl

/-! ## Deeds -/

/-- What a step does to the battle of a shard. -/
def deeds (s : Shard) : Step → List Battle.Step
  | .install name source filter address => s.arrivals (s.install name source filter address).shard
  | .pass =>
    (if s.isPlayTick then [.advance] else []) ++ s.playIfDue.shard.arrivals s.pass.shard
  | .kill id => [.killById id]
  | .checkNames names => (s.offenders names).map .killById
  | .repopulate => s.arrivals s.repopulate.shard

/-- What a list of steps does to the battle of a shard. -/
def history (s : Shard) : List Step → List Battle.Step
  | [] => []
  | step :: steps => s.deeds step ++ (s.next step).history steps

@[simp] theorem history_nil (s : Shard) : s.history [] = [] := rfl

@[simp] theorem history_cons (s : Shard) (step : Step) (steps : List Step) :
    s.history (step :: steps) = s.deeds step ++ (s.next step).history steps := rfl

theorem board_playIfDue (s : Shard) :
    s.playIfDue.shard.board = s.board.after (if s.isPlayTick then [.advance] else []) := by
  cases hdue : s.isPlayTick with
  | false =>
      rw [playIfDue_of_not_due hdue]
      rfl
  | true =>
      rw [playIfDue_of_due hdue, play_shard, if_pos rfl]
      have hsettled := s.board_settle [.advance] (by simp [Battle.Step.setsCells])
      rw [Battle.history_singleton] at hsettled
      exact hsettled

theorem InOrder.grows_pass (h : s.InOrder rules maxPrograms) :
    s.playIfDue.shard.Grows s.pass.shard :=
  h.playIfDue.grows_repopulateIfDue.congr rfl rfl rfl

theorem InOrder.ids_subset (h : s.InOrder rules maxPrograms) : s.battle.ids ⊆ numbers :=
  fun _ hid => h.ids_perm.subset (List.mem_append_right _ hid)

/-- Whoever is installed gets a number of the shard. -/
theorem InOrder.mem_numbers_of_deeds (h : s.InOrder rules maxPrograms) {step : Step} {p : Program}
    {address : Nat} (hdeed : .install p address ∈ s.deeds step) : p.id ∈ numbers := by
  have harrived {s t : Shard} (ht : t.InOrder rules maxPrograms)
      (harrival : .install p address ∈ s.arrivals t) : p.id ∈ numbers := by
    obtain ⟨w, hw, hinstall⟩ := List.mem_map.mp harrival
    refine ht.ids_subset ?_
    rw [← ht.battle.map_id_warriors, ← (Battle.Step.install.inj hinstall).1]
    exact List.mem_map_of_mem (List.mem_of_mem_drop hw)
  cases step with
  | install => exact harrived (h.install _ _ _ _) hdeed
  | pass =>
      rcases List.mem_append.mp hdeed with hplay | harrival
      · split at hplay
        · cases List.mem_singleton.mp hplay
        · cases hplay
      · exact harrived h.pass harrival
  | kill => cases List.mem_singleton.mp hdeed
  | checkNames =>
      obtain ⟨_, -, hkill⟩ := List.mem_map.mp hdeed
      cases hkill
  | repopulate => exact harrived (h.topUp _) hdeed

/-- A step changes battle and scores as its deeds do. -/
theorem InOrder.board_next (h : s.InOrder rules maxPrograms) (step : Step) :
    (s.next step).board = s.board.after (s.deeds step) := by
  cases step with
  | install name source filter address =>
      rw [Shard.next, deeds, (h.grows_install name source filter address).board_eq]
  | pass =>
      rw [Shard.next, deeds, Scoreboard.after_append, ← board_playIfDue, h.grows_pass.board_eq]
  | kill id =>
      have hsettled := s.board_settle [.killById id] (by simp [Battle.Step.setsCells])
      rw [Battle.history_singleton] at hsettled
      exact hsettled
  | checkNames names =>
      show (s.checkNames names).shard.board = s.board.after ((s.offenders names).map .killById)
      obtain ⟨hbattle, hevents⟩ := s.expel_eq (s.offenders names)
      rw [shard_checkNames, hbattle, hevents]
      exact s.board_settle _ (by simp [Battle.Step.setsCells])
  | repopulate => exact h.grows_repopulate.board_eq

theorem InOrder.battle_next (h : s.InOrder rules maxPrograms) (step : Step) :
    (s.next step).battle = s.battle.after (s.deeds step) :=
  (congrArg Scoreboard.battle (h.board_next step)).trans (s.board.battle_after _)

/-- Battle and scores of a shard are those that its deeds lead to. -/
theorem InOrder.board_after (h : s.InOrder rules maxPrograms) (steps : List Step) :
    (s.after steps).board = s.board.after (s.history steps) := by
  induction steps generalizing s with
  | nil => rfl
  | cons step steps ih =>
      rw [after_cons, ih (h.next step), h.board_next, history_cons, Scoreboard.after_append]

/-- A board that lists the programs of a shard goes on to do so. -/
theorem InOrder.lists_after (h : s.InOrder rules maxPrograms) (hboard : s.board.Lists)
    (steps : List Step) : (s.after steps).board.Lists := by
  rw [h.board_after]
  exact hboard.after h.battle h.runForever _

/-- The number of a shard stays the same. -/
theorem InOrder.id_next (h : s.InOrder rules maxPrograms) (step : Step) :
    (s.next step).id = s.id := by
  cases step with
  | install name source filter address =>
      rw [Shard.next, (h.grows_install name source filter address).id_eq]
  | pass =>
      have hplayed : s.playIfDue.shard.id = s.id := by
        cases hdue : s.isPlayTick with
        | false => rw [playIfDue_of_not_due hdue]
        | true =>
            rw [playIfDue_of_due hdue, play_shard]
            exact (settled_settle _ _).id_eq
      exact h.grows_pass.id_eq.trans hplayed
  | kill id => exact (settled_settle _ _).id_eq
  | checkNames names => exact (settled_settle _ _).id_eq
  | repopulate => exact h.grows_repopulate.id_eq

theorem InOrder.id_after (h : s.InOrder rules maxPrograms) (steps : List Step) :
    (s.after steps).id = s.id := by
  induction steps generalizing s with
  | nil => rfl
  | cons step steps ih => rw [after_cons, ih (h.next step), h.id_next]

end Shard

end CoreArena
