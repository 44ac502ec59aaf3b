import CoreArena.Audience
import CoreArena.Proofs.Shard.Deeds

/-! # What a shard tells of its scores

A score is the number of deaths that a program is to be credited with, and whoever listens to the
scores knows them as they are: `scores_exact`. -/

namespace CoreArena

namespace Notice

theorem filter_isScores_map_log {α : Type} (entry : α → Log.Entry) (l : List α) :
    (l.map fun x => log (entry x)).filter isScores = [] := by
  simp [isScores]

theorem filter_isScores_ofEvents (events : List Event) :
    (ofEvents events).filter isScores = [] := by
  rw [ofEvents, List.filter_eq_nil_iff]
  intro notice hnotice
  obtain ⟨e, -, hentry⟩ := List.mem_filterMap.mp hnotice
  obtain ⟨entry, -, rfl⟩ := Option.map_eq_some_iff.mp hentry
  exact Bool.false_ne_true

end Notice

namespace Shard

open Notice

variable {rules : Rules} {maxPrograms : Nat} {s t u : Shard} {notices more : List Notice}

/-! ## Notices -/

/-- What is told of the scores last is how they are, and if nothing is told they are as before. -/
def Announces (s t : Shard) (notices : List Notice) : Prop :=
  (notices.filter isScores).getLast? = some t.scoreNotice ∨
    notices.filter isScores = [] ∧ t.scoreNotice = s.scoreNotice

namespace Announces

theorem silent (hsilent : notices.filter isScores = []) (h : t.scoreNotice = s.scoreNotice) :
    s.Announces t notices :=
  .inr ⟨hsilent, h⟩

theorem trans (h : s.Announces t notices) (h' : t.Announces u more) :
    s.Announces u (notices ++ more) := by
  unfold Announces
  rw [List.filter_append, List.getLast?_append]
  rcases h' with hlast | ⟨hsilent, hsame⟩
  · left
    rw [hlast]
    rfl
  · rw [hsilent, hsame, List.getLast?_nil, Option.none_or, List.append_nil]
    exact h

end Announces

theorem filter_isScores_diagnosticNotices (name source : String) :
    (diagnosticNotices name source).filter isScores = [] :=
  filter_isScores_map_log _ _

theorem announces_place (s : Shard) (name : String) (code : List Word) :
    s.Announces (s.place name code).shard (s.place name code).notices := by
  unfold place
  split
  · exact .silent rfl rfl
  · dsimp only
    split
    · exact .silent rfl rfl
    · exact .inl rfl

theorem announces_spawn (s : Shard) : s.Announces s.spawn.shard s.spawn.notices := by
  unfold spawn
  generalize (Bystander.generate true).run s.random = drawn
  obtain ⟨source, random⟩ := drawn
  dsimp only
  split
  · refine .silent ?_ rfl
    rw [List.filter_append, filter_isScores_diagnosticNotices]
    rfl
  · rename_i assembled _
    -- What is drawn does not show in the scores.
    have hplaced (name : String) : s.Announces _ _ :=
      announces_place { s with random, spawned := s.spawned + 1 } name assembled.words
    split
    · refine (hplaced _).trans (.silent ?_ rfl)
      rfl
    · exact hplaced _

theorem announces_topUp (s : Shard) (missing : Nat) :
    s.Announces (s.topUp missing).shard (s.topUp missing).notices := by
  induction missing generalizing s with
  | zero => exact .silent rfl rfl
  | succ missing ih =>
      unfold topUp
      split
      · dsimp only
        split
        · exact s.announces_spawn
        · exact s.announces_spawn.trans (ih _)
      · exact .silent rfl rfl

theorem announces_repopulateIfDue (s : Shard) :
    s.Announces s.repopulateIfDue.shard s.repopulateIfDue.notices := by
  unfold repopulateIfDue
  split
  · exact s.announces_topUp _
  · exact .silent rfl rfl

theorem announces_install (s : Shard) (name source : String) (filter : Option Admission.Filter)
    (address : Option String) :
    s.Announces (s.install name source filter address).shard
      (s.install name source filter address).notices := by
  unfold install
  dsimp only
  split
  · exact .silent rfl rfl
  · split
    · exact .silent (filter_isScores_diagnosticNotices _ _) rfl
    · split
      · exact .silent rfl rfl
      · exact s.announces_place _ _

/-- If nobody died the books are as before, else the scores are told at the end. -/
theorem announces_settle (s : Shard) (events : List Event) :
    s.Announces (s.settle events).1 (s.settle events).2 := by
  unfold settle
  dsimp only
  generalize hbegin : (s, ([] : List Notice)) = start
  have hsilent : start.2.filter isScores = [] := by rw [← hbegin]; rfl
  have hsame : start.2 = [] → start.1.scoreNotice = s.scoreNotice := by
    rw [← hbegin]
    exact fun _ => rfl
  clear hbegin
  induction events generalizing start with
  | nil =>
      rw [List.foldl_nil]
      split
      · exact .silent rfl (hsame (List.isEmpty_iff.mp ‹_›))
      · left
        rw [List.filter_append, hsilent]
        rfl
  | cons e events ih =>
      rw [List.foldl_cons]
      cases e with
      | killed victim killer reason place =>
          refine ih _ ?_ ?_
          · rw [List.filter_append, hsilent]
            rfl
          · intro hnil
            exact absurd hnil (List.append_ne_nil_of_right_ne_nil _ (List.cons_ne_nil _ _))
      | read | written | cycle | foreign => exact ih start hsilent hsame

theorem announces_leaving (s : Shard) (battle : Battle) (events : List Event) :
    s.Announces (settle { s with battle } events).1
      (Notice.ofEvents events ++ (settle { s with battle } events).2) :=
  (Announces.silent (s := s) (t := { s with battle }) (filter_isScores_ofEvents events) rfl).trans
    (announces_settle { s with battle } events)

theorem announces_kill (s : Shard) (id : Nat) :
    s.Announces (s.kill id).shard (s.kill id).notices :=
  s.announces_leaving _ _

theorem filter_isScores_expel (s : Shard) (ids : List Nat) :
    (s.expel ids).2.2.filter isScores = [] := by
  unfold expel
  generalize hbegin : (s.battle, ([] : List Event), ([] : List Notice)) = start
  have hsilent : start.2.2.filter isScores = [] := by rw [← hbegin]; rfl
  clear hbegin
  induction ids generalizing start with
  | nil => exact hsilent
  | cons id ids ih =>
      refine ih _ ?_
      rw [List.filter_append, hsilent, List.nil_append, List.filter_cons]
      exact filter_isScores_ofEvents _

theorem announces_checkNames (s : Shard) (names : Admission.NameMatcher) :
    s.Announces (s.checkNames names).shard (s.checkNames names).notices :=
  (Announces.silent (s := s) (t := { s with battle := (s.expel (s.offenders names)).1 })
    (s.filter_isScores_expel _) rfl).trans (announces_settle _ _)

theorem announces_play (s : Shard) : s.Announces s.play.shard s.play.notices := by
  have hwarned : s.Announces s (s.battle.warning?.toList.map .log) :=
    .silent (filter_isScores_map_log (fun entry => entry) _) rfl
  have hleft := hwarned.trans (s.announces_leaving s.battle.advance.battle s.battle.advance.events)
  rw [← List.append_assoc] at hleft
  exact hleft.trans (.silent rfl rfl)

theorem announces_pass (s : Shard) : s.Announces s.pass.shard s.pass.notices := by
  have hplayed : s.Announces s.playIfDue.shard s.playIfDue.notices := by
    unfold playIfDue
    split
    · exact s.announces_play
    · exact .silent rfl rfl
  exact hplayed.trans s.playIfDue.shard.announces_repopulateIfDue

/-- What a step tells. -/
def told (s : Shard) : Step → List Notice
  | .install name source filter address => (s.install name source filter address).notices
  | .pass => s.pass.notices
  | .kill id => (s.kill id).notices
  | .checkNames names => (s.checkNames names).notices
  | .repopulate => s.repopulate.notices

/-- Every step tells the scores whenever they change. -/
theorem announces_next (s : Shard) (step : Step) : s.Announces (s.next step) (s.told step) := by
  cases step with
  | install name source filter address => exact s.announces_install name source filter address
  | pass => exact s.announces_pass
  | kill id => exact s.announces_kill id
  | checkNames names => exact s.announces_checkNames names
  | repopulate => exact s.announces_topUp _

end Shard

/-! ## Listeners -/

namespace Audience

variable {α : Type} {a : Audience α} {n : Nat} {accepts : α → Bool}

/-- No two listeners have the same number, and the next one gets a new number. -/
structure Numbered (a : Audience α) : Prop where
  nodup : (a.listeners.map Prod.fst).Nodup
  lt_next : ∀ n ∈ a.listeners.map Prod.fst, n < a.next

theorem Numbered.join (h : a.Numbered) (accepts : α → Bool) : (a.join accepts).2.Numbered where
  nodup := by
    show ((a.listeners ++ [_]).map Prod.fst).Nodup
    rw [List.map_append]
    refine h.nodup.append (List.nodup_singleton _) (List.disjoint_singleton.mpr fun hmem => ?_)
    exact Nat.lt_irrefl _ (h.lt_next _ hmem)
  lt_next n hn := by
    have hn : n ∈ (a.listeners ++ [_]).map Prod.fst := hn
    rw [List.map_append, List.mem_append] at hn
    rcases hn with hn | hn
    · exact Nat.lt_succ_of_lt (h.lt_next n hn)
    · rw [List.mem_singleton.mp hn]
      exact Nat.lt_succ_self _

theorem Numbered.leave (h : a.Numbered) (n : Nat) : (a.leave n).2.Numbered where
  nodup := h.nodup.sublist (List.filter_sublist.map _)
  lt_next m hm := h.lt_next m ((List.filter_sublist.map _).subset hm)

/-- What somebody is told among all that is told. -/
def heardBy (told : List (Nat × α)) (n : Nat) : List α :=
  told.filterMap fun (m, report) => if m = n then some report else none

theorem heardBy_append (told more : List (Nat × α)) (n : Nat) :
    heardBy (told ++ more) n = heardBy told n ++ heardBy more n :=
  List.filterMap_append

theorem heardBy_eq_nil {told : List (Nat × α)} (h : n ∉ told.map Prod.fst) :
    heardBy told n = [] := by
  rw [heardBy, List.filterMap_eq_nil_iff]
  rintro ⟨m, report⟩ hmem
  exact if_neg fun hsame => h (List.mem_map.mpr ⟨_, hmem, hsame⟩)

/-- Only listeners are told anything. -/
theorem mem_listeners_of_mem_tell {reports : List α} (hn : n ∈ (a.tell reports).map Prod.fst) :
    n ∈ a.listeners.map Prod.fst := by
  obtain ⟨⟨m, report⟩, htold, rfl⟩ := List.mem_map.mp hn
  obtain ⟨_, -, htold⟩ := List.mem_flatMap.mp htold
  obtain ⟨l, hl, heq⟩ := List.mem_map.mp htold
  exact List.mem_map.mpr ⟨l, List.mem_of_mem_filter hl, congrArg Prod.fst heq⟩

/-- A listener is told the reports that it accepts, each once and in order. -/
theorem Numbered.heardBy_tell (h : a.Numbered) (hn : (n, accepts) ∈ a.listeners)
    (reports : List α) : heardBy (a.tell reports) n = reports.filter accepts := by
  obtain ⟨front, back, hsplit⟩ := List.append_of_mem hn
  have hnodup := h.nodup
  rw [hsplit, List.map_append, List.map_cons, List.nodup_middle, List.nodup_cons,
    List.mem_append, not_or] at hnodup
  have hothers {others : List (Nat × (α → Bool))} (hother : n ∉ others.map Prod.fst) (report : α) :
      heardBy ((others.filter fun l => l.2 report).map fun l => (l.1, report)) n = [] := by
    refine heardBy_eq_nil fun hmem => hother ?_
    rw [List.map_map] at hmem
    exact (List.filter_sublist.map Prod.fst).subset hmem
  have hone (report : α) :
      heardBy ((a.listeners.filter fun l => l.2 report).map fun l => (l.1, report)) n =
        [report].filter accepts := by
    have hback := hothers hnodup.1.2 report
    rw [hsplit, List.filter_append, List.map_append, heardBy_append, hothers hnodup.1.1,
      List.nil_append, List.filter_cons, List.filter_singleton]
    dsimp only
    by_cases haccepts : accepts report = true
    · rw [if_pos haccepts, List.map_cons, ← List.singleton_append, heardBy_append, hback, haccepts]
      simp [heardBy]
    · rw [if_neg haccepts, hback, Bool.eq_false_of_not_eq_true haccepts]
      rfl
  induction reports with
  | nil => rfl
  | cons report reports ih =>
      rw [← List.singleton_append, List.filter_append, ← ih, ← hone report, ← heardBy_append]
      rfl

end Audience

namespace Shard

/-- A shard, those who listen to it, and what they were told so far. -/
structure Gallery where
  shard : Shard
  audience : Audience Notice
  told : List (Nat × Notice)

namespace Gallery

/-- Something that happens to a shard or among those who listen to it. -/
inductive Act where
  | step (step : Step)
  | join (accepts : Notice → Bool)
  | leave (listener : Nat)

/-- What happens to the shard. -/
def Act.step? : Act → Option Step
  | step s => some s
  | join _ | leave _ => none

def empty (s : Shard) : Gallery :=
  ⟨s, .empty, []⟩

def next (g : Gallery) : Act → Gallery
  | .step step =>
    { g with shard := g.shard.next step, told := g.told ++ g.audience.tell (g.shard.told step) }
  | .join accepts => { g with audience := (g.audience.join accepts).2 }
  | .leave listener => { g with audience := (g.audience.leave listener).2 }

def after (g : Gallery) : List Act → Gallery
  | [] => g
  | act :: acts => (g.next act).after acts

/-- What a listener was told so far. -/
def heard (g : Gallery) (listener : Nat) : List Notice :=
  Audience.heardBy g.told listener

theorem shard_after (g : Gallery) (acts : List Act) :
    (g.after acts).shard = g.shard.after (acts.filterMap Act.step?) := by
  induction acts generalizing g with
  | nil => rfl
  | cons act acts ih =>
      rw [after, ih]
      cases act <;> rfl

/-- Numbers are given once, and each listener to the scores that was told anything knows them. -/
structure Informed (g : Gallery) : Prop where
  numbered : g.audience.Numbered
  told_lt : ∀ n ∈ g.told.map Prod.fst, n < g.audience.next
  knows : ∀ n, (n, Notice.isScores) ∈ g.audience.listeners →
    g.heard n = [] ∨ (g.heard n).getLast? = some g.shard.scoreNotice

theorem informed_empty (s : Shard) : (empty s).Informed where
  numbered := ⟨List.nodup_nil, fun _ hn => absurd hn List.not_mem_nil⟩
  told_lt _ hn := absurd hn List.not_mem_nil
  knows _ hn := absurd hn List.not_mem_nil

variable {g : Gallery}

namespace Informed

theorem step (h : g.Informed) (step : Step) : (g.next (.step step)).Informed where
  numbered := h.numbered
  told_lt n hn := by
    have hn : n ∈ (g.told ++ g.audience.tell (g.shard.told step)).map Prod.fst := hn
    rw [List.map_append, List.mem_append] at hn
    rcases hn with hold | hnew
    · exact h.told_lt n hold
    · exact h.numbered.lt_next n (Audience.mem_listeners_of_mem_tell hnew)
  knows n hn := by
    have hheard : (g.next (.step step)).heard n =
        g.heard n ++ (g.shard.told step).filter Notice.isScores := by
      show Audience.heardBy (g.told ++ _) n = _
      rw [Audience.heardBy_append, h.numbered.heardBy_tell hn]
      rfl
    rw [hheard]
    rcases g.shard.announces_next step with hlast | ⟨hsilent, hsame⟩
    · right
      rw [List.getLast?_append, hlast]
      rfl
    · rw [hsilent, List.append_nil]
      exact (h.knows n hn).imp_right fun hlast => hlast.trans (congrArg some hsame.symm)

theorem join (h : g.Informed) (accepts : Notice → Bool) : (g.next (.join accepts)).Informed where
  numbered := h.numbered.join accepts
  told_lt n hn := Nat.lt_succ_of_lt (h.told_lt n hn)
  knows n hn := by
    rcases List.mem_append.mp hn with hold | hnew
    · exact h.knows n hold
    · left
      obtain ⟨rfl, -⟩ := Prod.mk.inj (List.mem_singleton.mp hnew)
      exact Audience.heardBy_eq_nil fun hmem => Nat.lt_irrefl _ (h.told_lt _ hmem)

theorem leave (h : g.Informed) (listener : Nat) : (g.next (.leave listener)).Informed where
  numbered := h.numbered.leave listener
  told_lt := h.told_lt
  knows n hn := h.knows n (List.mem_of_mem_filter hn)

theorem after (h : g.Informed) (acts : List Act) : (g.after acts).Informed := by
  induction acts generalizing g with
  | nil => exact h
  | cons act acts ih =>
      cases act with
      | step step => exact ih (h.step step)
      | join accepts => exact ih (h.join accepts)
      | leave listener => exact ih (h.leave listener)

end Informed

end Gallery

/-! ## Scores -/

section

variable {rules : Rules} {maxPrograms : Nat} {s : Shard} {kills : Nat → Nat}

theorem InOrder.map_id_scores (h : s.InOrder rules maxPrograms)
    (hscores : s.scores = Score.table s.battle.programs kills) :
    s.scores.map Score.id = s.battle.ids := by
  rw [hscores, Score.table, List.map_map]
  exact s.battle.map_id_programs.trans h.battle.map_id_warriors

/-- Nobody is in a persistent battle without a pointer, so the living are those with a score. -/
theorem InOrder.lives_iff (h : s.InOrder rules maxPrograms)
    (hscores : s.scores = Score.table s.battle.programs kills) {c : Chronicle}
    (hc : c.battle = s.battle) (x : Instance) :
    c.Lives x ↔ ∃ score ∈ s.scores, c.stay score.id = x := by
  have hmem (id : Nat) :
      (∃ score ∈ s.scores, score.id = id) ↔ ∃ g ∈ s.battle.groups, g.id = id := by
    rw [← List.mem_map, h.map_id_scores hscores, Battle.ids, List.mem_map]
  rw [Chronicle.Lives, hc]
  constructor
  · rintro ⟨g, hg, -, rfl⟩
    obtain ⟨score, hscore, hid⟩ := (hmem g.id).mpr ⟨g, hg, rfl⟩
    exact ⟨score, hscore, by rw [hid]⟩
  · rintro ⟨score, hscore, rfl⟩
    obtain ⟨g, hg, hid⟩ := (hmem score.id).mp ⟨score, hscore, rfl⟩
    exact ⟨g, hg, h.battle.alive h.runForever g hg, by rw [hid]⟩

theorem InOrder.id_ne_zero_of_mem_scores (h : s.InOrder rules maxPrograms)
    (hscores : s.scores = Score.table s.battle.programs kills) {score : Score}
    (hscore : score ∈ s.scores) : score.id ≠ 0 := by
  have hmem : score.id ∈ s.battle.ids := by
    rw [← h.map_id_scores hscores]
    exact List.mem_map_of_mem hscore
  obtain ⟨g, hg, hid⟩ := List.mem_map.mp hmem
  rw [← hid]
  exact h.battle.id_ne_zero g hg

/-- A shard keeps the scoreboard of its register. -/
theorem board_after_start {id maxNameLength : Nat} {random : Xoshiro}
    (hclear : rules.clearOwnership = true) (steps : List Step) :
    let s := start id rules maxPrograms maxNameLength random
    let register := Register.start { rules with runForever := true }
    (s.after steps).board =
      (register.after (s.history steps)).board (register.deaths (s.history steps)) := by
  intro s register
  have hs : s.InOrder rules maxPrograms := inOrder_start ..
  have hfaithful : register.Faithful := Register.faithful_start _ hclear
  rw [hs.board_after]
  exact Register.board_after hfaithful rfl register.credits_nil _

/-- Each listener that was told scores was told these last. -/
theorem InOrder.heard_scores (h : s.InOrder rules maxPrograms) (acts : List Gallery.Act)
    {listener : Nat} :
    let g := (Gallery.empty s).after acts
    (listener, Notice.isScores) ∈ g.audience.listeners →
      g.heard listener = [] ∨ (g.heard listener).getLast? = some (.scores s.id g.shard.scores) := by
  intro g hlistener
  have hid : g.shard.id = s.id := by
    rw [Gallery.shard_after]
    exact h.id_after _
  have hknows := ((Gallery.informed_empty s).after acts).knows listener hlistener
  rwa [scoreNotice, hid] at hknows

end

/-- The scores list the living programs in their order, with their names. Each kill of a program is
a death since it joined, that was blamed on its number: that of another program, on a cell that was
last attributed to this very instance. The kills are counted by 32 bits, which show their number
until there are too many. Each listener that was told scores was told these last. -/
theorem scores_exact (id : Nat) (rules : Rules) (hclear : rules.clearOwnership = true)
    (maxPrograms maxNameLength : Nat) (random : Xoshiro) (acts : List Gallery.Act) :
    let s := start id rules maxPrograms maxNameLength random
    let g := (Gallery.empty s).after acts
    let deeds := s.history (acts.filterMap Gallery.Act.step?)
    let register := Register.start { rules with runForever := true }
    let deaths := register.deaths deeds
    let c := (register.after deeds).chronicle
    let kills id := deaths.countP fun d => decide (c.birth id < d.time) && d.killer == id
    g.shard.battle = c.battle ∧
      g.shard.scores =
        c.battle.warriors.map (fun w => ⟨w.id, w.program.name, .ofNat (kills w.id)⟩) ∧
      (∀ score ∈ g.shard.scores, kills score.id < 2 ^ 32 →
        score.kills.toNat = kills score.id) ∧
      (∀ x, c.Lives x ↔ ∃ score ∈ g.shard.scores, c.stay score.id = x) ∧
      (∀ score ∈ g.shard.scores, ∀ d ∈ deaths, d.killer = score.id → c.birth score.id < d.time →
        d.victim.id ≠ score.id ∧ d.holder = some (c.stay score.id)) ∧
      ∀ listener, (listener, Notice.isScores) ∈ g.audience.listeners →
        g.heard listener = [] ∨
          (g.heard listener).getLast? = some (.scores id g.shard.scores) := by
  intro s g deeds register deaths c kills
  have hshard : g.shard = s.after (acts.filterMap Gallery.Act.step?) :=
    Gallery.shard_after (Gallery.empty s) acts
  have hboard : g.shard.board = (register.after deeds).board deaths := by
    rw [hshard]
    exact board_after_start hclear _
  have hbattle : g.shard.battle = c.battle := congrArg Scoreboard.battle hboard
  have hscores : g.shard.scores =
      Score.table c.battle.programs ((register.after deeds).kills deaths) :=
    congrArg Scoreboard.scores hboard
  have htable : g.shard.scores =
      Score.table g.shard.battle.programs ((register.after deeds).kills deaths) := by
    rw [hscores, hbattle]
  have horder : g.shard.InOrder rules maxPrograms := by
    rw [hshard]
    exact inOrder_after_start ..
  have hfaithful : register.Faithful := Register.faithful_start _ hclear
  have hcredits := register.credits_nil.after hfaithful deeds
  refine ⟨hbattle, ?_, ?_, horder.lives_iff htable hbattle.symm, ?_, ?_⟩
  · rw [hscores, Score.table, Battle.programs, List.map_map]
    rfl
  · intro score hscore
    rw [hscores] at hscore
    exact Score.toNat_kills_of_mem_table hscore
  · intro score hscore d hd hkiller hsince
    have hne := horder.id_ne_zero_of_mem_scores htable hscore
    rw [← hkiller] at hne hsince ⊢
    exact hcredits.earned d hd hne hsince
  · intro listener hlistener
    exact (inOrder_start ..).heard_scores acts hlistener

/-- The second program overwrites the first one, which dies at its next turn. -/
def bombing : List Gallery.Act :=
  [.join Notice.isScores, .step (.install "a" "jump 0" none none),
    .step (.install "b" "write 0 to 2" none none)] ++ List.replicate 32 (.step .pass)

def bombedGallery : Gallery :=
  (Gallery.empty (start 0 { columnSize := 1, columnCount := 8 } 31 8 ⟨1, 2, 3, 4⟩)).after bombing

theorem scores_exact_bombing :
    ({ columnSize := 1, columnCount := 8 } : Rules).clearOwnership = true ∧
      bombedGallery.shard.scores = [⟨2, "b", 1⟩] ∧
      (bombedGallery.heard 0).getLast? = some (.scores 0 [⟨2, "b", 1⟩]) := by
  have hscores : bombedGallery.shard.scores = [⟨2, "b", 1⟩] := by
    decide +kernel
  have hheard : bombedGallery.heard 0 ≠ [] := by
    decide +kernel
  obtain ⟨-, -, -, -, -, hlisteners⟩ :=
    scores_exact 0 { columnSize := 1, columnCount := 8 } rfl 31 8 ⟨1, 2, 3, 4⟩ bombing
  have hlast := (hlisteners 0 (List.mem_singleton.mpr rfl)).resolve_left hheard
  refine ⟨rfl, hscores, ?_⟩
  rw [← hscores]
  exact hlast

end Shard

end CoreArena
