import CoreArena.Proofs.Shard.Deeds

/-! # Names of programs

A player's program gets into a shard only under a name that no program there has. A bystander is
named by how many there have been, and nobody asks whether a player has taken that name before:
`names_after`. -/

namespace CoreArena

namespace Battle

variable {b : Battle}

/-- While nobody joins a persistent battle, its programs are those that are not reported dead. -/
theorem Invariant.programs_after (h : b.Invariant) (hforever : b.rules.runForever = true)
    {steps : List Step} (hsteps : ∀ s ∈ steps, s.setsCells = false) :
    (b.after steps).programs =
      b.programs.filter (·.id ∉ Event.victims (b.history steps)) := by
  induction steps generalizing b with
  | nil => simp
  | cons s steps ih =>
      have hadmits := b.admits_of_setsCells (hsteps s List.mem_cons_self)
      have hrules : (b.next s).rules.runForever = true := by rwa [h.rules_next s]
      rw [after_cons, ih (h.next s) hrules fun s hs => hsteps s (List.mem_cons_of_mem _ hs),
        h.programs_next hforever s, hadmits, List.append_nil, List.filter_filter, history_cons,
        Event.victims_append]
      refine List.filter_congr fun p _ => ?_
      simp [and_comm]

end Battle

namespace Shard

variable {rules : Rules} {maxPrograms : Nat} {taken : String → Prop} {s t : Shard}

/-- No two bystanders of a shard are ever named alike. -/
theorem bystanderName_injective : Function.Injective bystanderName := by
  intro m n h
  have hdigits : Nat.toDigits 10 m = Nat.toDigits 10 n := by
    simpa [bystanderName, Nat.toString_eq_ofList_toDigits] using congrArg String.toList h
  simpa using congrArg (Nat.ofDigitChars 10 · 0) hdigits

/-- A name occurs twice only if a player's program had it first and a bystander came by it later.
Bystanders are named by their count, and players call their programs as they may. -/
structure WellNamed (taken : String → Prop) (s : Shard) : Prop where
  apart : s.battle.programs.Pairwise fun p q =>
    p.name = q.name → p.id ∉ s.bystanders ∧ q.id ∈ s.bystanders
  numbered : ∀ p ∈ s.battle.programs, p.id ∈ s.bystanders →
    ∃ k, 1 ≤ k ∧ k ≤ s.spawned ∧ p.name = bystanderName k
  players : ∀ p ∈ s.battle.programs, p.id ∉ s.bystanders → taken p.name

namespace WellNamed

/-- Whoever leaves, the names of the others are as good as before. -/
theorem leave (h : s.WellNamed taken)
    (hprograms : t.battle.programs.Sublist s.battle.programs)
    (hsame : ∀ p ∈ t.battle.programs, p.id ∈ t.bystanders ↔ p.id ∈ s.bystanders)
    (hspawned : s.spawned ≤ t.spawned) : t.WellNamed taken where
  apart := by
    refine (h.apart.sublist hprograms).imp_of_mem fun hp hq happart hname => ?_
    rw [hsame _ hp, hsame _ hq]
    exact happart hname
  numbered p hp hbystander := by
    obtain ⟨k, hpos, hle, hname⟩ := h.numbered p (hprograms.subset hp) ((hsame p hp).mp hbystander)
    exact ⟨k, hpos, hle.trans hspawned, hname⟩
  players p hp hplayer := h.players p (hprograms.subset hp) (mt (hsame p hp).mpr hplayer)

theorem congr (h : s.WellNamed taken) (hbattle : t.battle = s.battle)
    (hbystanders : t.bystanders = s.bystanders) (hspawned : s.spawned ≤ t.spawned) :
    t.WellNamed taken := by
  refine h.leave ?_ (fun p _ => ?_) hspawned
  · rw [hbattle]
  · rw [hbystanders]

/-- A player may join under a name that nobody has. -/
theorem joinPlayer (h : s.WellNamed taken) {p : Program}
    (hprograms : t.battle.programs = s.battle.programs ++ [p])
    (hbystanders : t.bystanders = s.bystanders) (hspawned : t.spawned = s.spawned)
    (hid : p.id ∉ s.bystanders) (hname : p.name ∉ s.battle.programs.map Program.name)
    (htaken : taken p.name) : t.WellNamed taken where
  apart := by
    rw [hprograms, hbystanders, List.pairwise_append]
    refine ⟨h.apart, List.pairwise_singleton _ p, fun q hq r hr hsame => ?_⟩
    rw [List.mem_singleton.mp hr] at hsame
    exact absurd (List.mem_map.mpr ⟨q, hq, hsame⟩) hname
  numbered q hq hbystander := by
    rw [hprograms, List.mem_append, List.mem_singleton] at hq
    rw [hbystanders] at hbystander
    rw [hspawned]
    rcases hq with hold | rfl
    · exact h.numbered q hold hbystander
    · exact absurd hbystander hid
  players q hq hplayer := by
    rw [hprograms, List.mem_append, List.mem_singleton] at hq
    rw [hbystanders] at hplayer
    rcases hq with hold | rfl
    · exact h.players q hold hplayer
    · exact htaken

/-- The next bystander has the name of no bystander. -/
theorem joinBystander (h : s.WellNamed taken) {p : Program}
    (hprograms : t.battle.programs = s.battle.programs ++ [p])
    (hbystanders : t.bystanders = insertAscending p.id s.bystanders)
    (hspawned : t.spawned = s.spawned + 1) (hid : ∀ q ∈ s.battle.programs, q.id ≠ p.id)
    (hname : p.name = bystanderName (s.spawned + 1)) : t.WellNamed taken := by
  have hold : ∀ q ∈ s.battle.programs, q.id ∈ t.bystanders ↔ q.id ∈ s.bystanders := by
    intro q hq
    rw [hbystanders, mem_insertAscending]
    exact or_iff_right (hid q hq)
  have hnew : p.id ∈ t.bystanders := by
    rw [hbystanders]
    exact mem_insertAscending.mpr (.inl rfl)
  constructor
  case apart =>
    rw [hprograms, List.pairwise_append]
    refine ⟨?_, List.pairwise_singleton _ p, fun q hq r hr hsame => ?_⟩
    · refine h.apart.imp_of_mem fun hp hq happart hsame => ?_
      rw [hold _ hp, hold _ hq]
      exact happart hsame
    · obtain rfl := List.mem_singleton.mp hr
      refine ⟨fun hbystander => ?_, hnew⟩
      -- A bystander of an earlier count has another name.
      obtain ⟨k, -, hle, hcount⟩ := h.numbered q hq ((hold q hq).mp hbystander)
      have hk : k = s.spawned + 1 :=
        bystanderName_injective (hcount.symm.trans (hsame.trans hname))
      omega
  case numbered =>
    intro q hq hbystander
    rw [hprograms, List.mem_append, List.mem_singleton] at hq
    rw [hspawned]
    rcases hq with hq | rfl
    · obtain ⟨k, hpos, hle, hcount⟩ := h.numbered q hq ((hold q hq).mp hbystander)
      exact ⟨k, hpos, Nat.le_succ_of_le hle, hcount⟩
    · exact ⟨s.spawned + 1, Nat.succ_pos _, Nat.le_refl _, hname⟩
  case players =>
    intro q hq hplayer
    rw [hprograms, List.mem_append, List.mem_singleton] at hq
    rcases hq with hq | rfl
    · exact h.players q hq (mt (hold q hq).mpr hplayer)
    · exact absurd hnew hplayer

end WellNamed

/-! ## Steps -/

theorem not_mem_scores_of_refuses? {name : String} (h : s.refuses? name = none) :
    name ∉ s.scores.map Score.name := by
  unfold refuses? at h
  repeat' split at h
  all_goals first | cases h; done | simp_all

/-- Placing a program adds it as the last one, or changes nothing about the programs. -/
theorem programs_place {name : String} {code : List Word} {id position : Nat}
    (hplace : (s.place name code).result = .ok (id, position)) :
    (s.place name code).shard.battle.programs = s.battle.programs ++ [⟨id, name, code⟩] := by
  have hplaced := s.placed_place name code
  generalize s.place name code = reply at hplaced hplace ⊢
  cases hplaced with
  | full | refused => cases hplace
  | placed hfree hinstall =>
      cases hplace
      obtain ⟨-, -, -, -, rfl⟩ := Battle.install_eq_ok_iff.mp hinstall
      simp [Battle.programs]

theorem spawned_place (s : Shard) (name : String) (code : List Word) :
    (s.place name code).shard.spawned = s.spawned := by
  have hplaced := s.placed_place name code
  generalize s.place name code = reply at hplaced ⊢
  cases hplaced <;> rfl

namespace InOrder

theorem wellNamed_settle (hs : s.InOrder rules maxPrograms) (h : s.WellNamed taken)
    (steps : List Battle.Step) (hsteps : ∀ step ∈ steps, step.setsCells = false) :
    (Shard.settle { s with battle := s.battle.after steps }
      (s.battle.history steps)).1.WellNamed taken := by
  have hsettled := settled_settle { s with battle := s.battle.after steps } (s.battle.history steps)
  generalize Shard.settle { s with battle := s.battle.after steps } (s.battle.history steps) = reply
    at hsettled ⊢
  have hprograms : reply.1.battle.programs =
      s.battle.programs.filter (·.id ∉ Event.victims (s.battle.history steps)) := by
    rw [hsettled.battle_eq]
    exact hs.battle.programs_after hs.runForever hsteps
  refine h.leave ?_ (fun p hp => ?_) (Nat.le_of_eq hsettled.spawned_eq.symm)
  · rw [hprograms]
    exact List.filter_sublist
  · rw [hprograms, List.mem_filter] at hp
    rw [hsettled.bystanders_eq, List.mem_filter]
    exact and_iff_left hp.2

theorem wellNamed_spawn (hs : s.InOrder rules maxPrograms) (h : s.WellNamed taken) :
    s.spawn.shard.WellNamed taken := by
  have hspawned := s.spawned_spawn
  generalize s.spawn = reply at hspawned ⊢
  cases hspawned with
  | misread => exact h.congr rfl rfl (Nat.le_refl _)
  | @refused random name code cause drawn notices hdrawn hplace =>
      obtain ⟨hbattle, hbystanders⟩ := Shard.place_of_error hplace
      subst hdrawn
      refine h.congr hbattle hbystanders ?_
      rw [spawned_place]
      exact Nat.le_succ _
  | @added random name code id position drawn notices hdrawn hplace hname =>
      have hdrawnOrder : drawn.InOrder rules maxPrograms := by
        subst hdrawn
        exact hs.congr rfl rfl rfl rfl
      obtain ⟨-, hbystanders, hfree⟩ := place_of_ok hplace
      have hprograms := programs_place hplace
      subst hdrawn
      refine h.joinBystander hprograms ?_ ?_ ?_ hname
      · exact congrArg (insertAscending id) hbystanders
      · exact spawned_place _ name code
      · rintro q hq rfl
        exact hdrawnOrder.not_mem_ids hfree (hs.battle.mem_ids_of_mem_programs hq)

theorem wellNamed_topUp (hs : s.InOrder rules maxPrograms) (h : s.WellNamed taken)
    (missing : Nat) : (s.topUp missing).shard.WellNamed taken :=
  (topUp_induction (P := fun t => t.InOrder rules maxPrograms ∧ t.WellNamed taken)
    (fun _ hwants ⟨ht, hnamed⟩ => ⟨ht.spawn hwants, ht.wellNamed_spawn hnamed⟩) ⟨hs, h⟩ missing).2

theorem wellNamed_install (hs : s.InOrder rules maxPrograms) (h : s.WellNamed taken)
    (hboard : s.board.Lists) {name : String} (htaken : taken (Text.trimmed name)) (source : String)
    (filter : Option Admission.Filter) (address : Option String) :
    (s.install name source filter address).shard.WellNamed taken := by
  have hsubmitted := s.submitted_install name source filter address
  generalize s.install name source filter address = reply at hsubmitted ⊢
  cases hsubmitted with
  | turnedAway => exact h
  | admitted assembled hroom hfits =>
      show (s.place (Text.trimmed name) assembled.words).shard.WellNamed taken
      cases hplace : (s.place (Text.trimmed name) assembled.words).result with
      | error cause =>
          obtain ⟨hbattle, hbystanders⟩ := Shard.place_of_error hplace
          exact h.congr hbattle hbystanders (Nat.le_of_eq (spawned_place ..).symm)
      | ok placed =>
          obtain ⟨id, position⟩ := placed
          obtain ⟨-, hbystanders, hfree⟩ := place_of_ok hplace
          refine h.joinPlayer (programs_place hplace) hbystanders (spawned_place ..) ?_ ?_ htaken
          · exact fun hid => hs.not_mem_ids hfree (hs.bystanders_subset hid)
          · have hnames : s.scores.map Score.name = s.battle.programs.map Program.name :=
              hboard.map_name_scores
            rw [← hnames]
            exact not_mem_scores_of_refuses? hfits

theorem wellNamed_playIfDue (hs : s.InOrder rules maxPrograms) (h : s.WellNamed taken) :
    s.playIfDue.shard.WellNamed taken := by
  cases hdue : s.isPlayTick with
  | false => rwa [playIfDue_of_not_due hdue]
  | true =>
      rw [playIfDue_of_due hdue, play_shard]
      have hsettled := hs.wellNamed_settle h [.advance] (by simp [Battle.Step.setsCells])
      rw [Battle.history_singleton] at hsettled
      exact hsettled.congr rfl rfl (Nat.le_refl _)

theorem wellNamed_pass (hs : s.InOrder rules maxPrograms) (h : s.WellNamed taken) :
    s.pass.shard.WellNamed taken := by
  have hfilled := repopulateIfDue_induction
    (P := fun t => t.InOrder rules maxPrograms ∧ t.WellNamed taken)
    (fun _ hwants ⟨ht, hnamed⟩ => ⟨ht.spawn hwants, ht.wellNamed_spawn hnamed⟩)
    ⟨hs.playIfDue, hs.wellNamed_playIfDue h⟩
  exact hfilled.2.congr rfl rfl (Nat.le_refl _)

theorem wellNamed_kill (hs : s.InOrder rules maxPrograms) (h : s.WellNamed taken) (id : Nat) :
    (s.kill id).shard.WellNamed taken := by
  have hsettled := hs.wellNamed_settle h [.killById id] (by simp [Battle.Step.setsCells])
  rw [Battle.history_singleton] at hsettled
  exact hsettled

theorem wellNamed_checkNames (hs : s.InOrder rules maxPrograms) (h : s.WellNamed taken)
    (names : Admission.NameMatcher) : (s.checkNames names).shard.WellNamed taken := by
  obtain ⟨hbattle, hevents⟩ := s.expel_eq (s.offenders names)
  rw [shard_checkNames, hbattle, hevents]
  exact hs.wellNamed_settle h _ (by simp [Battle.Step.setsCells])

/-- A step keeps names apart, if the program it submits has a name that players may choose. -/
theorem wellNamed_next (hs : s.InOrder rules maxPrograms) (h : s.WellNamed taken)
    (hboard : s.board.Lists) {step : Step}
    (htaken : ∀ name source filter address, step = .install name source filter address →
      taken (Text.trimmed name)) : (s.next step).WellNamed taken := by
  cases step with
  | install name source filter address =>
      exact hs.wellNamed_install h hboard (htaken name source filter address rfl) ..
  | pass => exact hs.wellNamed_pass h
  | kill id => exact hs.wellNamed_kill h id
  | checkNames names => exact hs.wellNamed_checkNames h names
  | repopulate => exact hs.wellNamed_topUp h _

theorem wellNamed_after (hs : s.InOrder rules maxPrograms) (h : s.WellNamed taken)
    (hboard : s.board.Lists) {steps : List Step}
    (htaken : ∀ name source filter address, .install name source filter address ∈ steps →
      taken (Text.trimmed name)) : (s.after steps).WellNamed taken := by
  induction steps generalizing s with
  | nil => exact h
  | cons step steps ih =>
      have hnext : (s.next step).WellNamed taken :=
        hs.wellNamed_next h hboard fun name source filter address hstep =>
          htaken name source filter address (hstep ▸ List.mem_cons_self)
      exact ih (hs.next step) hnext (hs.lists_after hboard [step])
        fun name source filter address hlater =>
          htaken name source filter address (List.mem_cons_of_mem step hlater)

end InOrder

/-- Names are apart unless a player's program has that of a bystander. -/
theorem WellNamed.nodup_iff (h : s.WellNamed taken) :
    (s.battle.programs.map Program.name).Nodup ↔
      ∀ p ∈ s.battle.programs, p.id ∉ s.bystanders →
        ∀ q ∈ s.battle.programs, q.id ∈ s.bystanders → p.name ≠ q.name := by
  constructor
  · intro hnodup p hp hplayer q hq hbystander hname
    obtain rfl := List.inj_on_of_nodup_map hnodup hp hq hname
    exact hplayer hbystander
  · intro hplayers
    rw [List.Nodup, List.pairwise_map]
    refine h.apart.imp_of_mem fun hp hq happart hname => ?_
    obtain ⟨hplayer, hbystander⟩ := happart hname
    exact hplayers _ hp hplayer _ hq hbystander hname

/-- Of two programs with one name the first is a player's and the other a bystander, which has its
name by its count. So names are pairwise distinct while no player's program has the name of a
bystander, and always if nobody ever submits a program under such a name. -/
theorem names_after (id : Nat) (rules : Rules) (maxPrograms maxNameLength : Nat)
    (random : Xoshiro) (steps : List Step) :
    let s := (start id rules maxPrograms maxNameLength random).after steps
    (s.battle.programs.Pairwise fun p q => p.name = q.name → p.id ∉ s.bystanders ∧
        q.id ∈ s.bystanders ∧ ∃ k, 1 ≤ k ∧ k ≤ s.spawned ∧ q.name = bystanderName k) ∧
      ((s.battle.programs.map Program.name).Nodup ↔
        ∀ p ∈ s.battle.programs, p.id ∉ s.bystanders →
          ∀ q ∈ s.battle.programs, q.id ∈ s.bystanders → p.name ≠ q.name) ∧
      ((∀ name source filter address, .install name source filter address ∈ steps →
          ∀ k, Text.trimmed name ≠ bystanderName k) →
        (s.battle.programs.map Program.name).Nodup) := by
  intro s
  have hstart : (start id rules maxPrograms maxNameLength random).InOrder rules maxPrograms :=
    inOrder_start ..
  have hboard : (start id rules maxPrograms maxNameLength random).board.Lists := ⟨fun _ => 0, rfl⟩
  have hnamed (taken : String → Prop) (htaken : ∀ name source filter address,
      .install name source filter address ∈ steps → taken (Text.trimmed name)) :
      s.WellNamed taken := by
    refine hstart.wellNamed_after ⟨.nil, ?_, ?_⟩ hboard htaken
    · exact fun p hp => absurd hp List.not_mem_nil
    · exact fun p hp => absurd hp List.not_mem_nil
  have hany := hnamed (fun _ => True) fun _ _ _ _ _ => trivial
  refine ⟨hany.apart.imp_of_mem fun hp hq happart hname => ?_, hany.nodup_iff, fun hchosen => ?_⟩
  · obtain ⟨hplayer, hbystander⟩ := happart hname
    exact ⟨hplayer, hbystander, hany.numbered _ hq hbystander⟩
  · have hother := hnamed (fun name => ∀ k, name ≠ bystanderName k) hchosen
    refine hother.nodup_iff.mpr fun p hp hplayer q hq hbystander hname => ?_
    obtain ⟨k, -, -, hcount⟩ := hother.numbered q hq hbystander
    exact hother.players p hp hplayer k (hname.trans hcount)

/-- A player takes the name that the first bystander will have. -/
theorem bystander_namesake :
    let rules : Rules := { columnSize := 1, columnCount := 16, bystanderCount := 1 }
    let s := (start 1 rules 31 32 ⟨1, 2, 3, 4⟩).after
      [.install "BYSTANDER_1" "jump 0" none none, .repopulate]
    s.battle.programs.map Program.name = ["BYSTANDER_1", "BYSTANDER_1"] ∧ s.bystanders = [2] ∧
      ¬ (s.battle.programs.map Program.name).Nodup := by
  decide +kernel

end Shard

end CoreArena
