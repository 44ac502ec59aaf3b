import CoreArena.Proofs.Battle.Eviction
import CoreArena.Proofs.Shard.Deeds

/-! # What a name check does

An operator may have the names of a shard checked at any time. All whose names are rejected are
taken out at once, wherever they stand, and nothing else changes: `offenders_evicted`. -/

namespace CoreArena.Shard

variable {rules : Rules} {maxPrograms : Nat} {s : Shard}

/-- The deaths of programs that are taken out are blamed on nobody, so nobody scores. -/
theorem settle_forced (s : Shard) (ids : List Nat) (h : ∀ score ∈ s.scores, score.id ≠ 0) :
    (s.settle (ids.map fun id => .killed id 0 .forced none)).1 =
      { s with
        freeIds := s.freeIds ++ ids
        scores := s.scores.filter (·.id ∉ ids)
        bystanders := s.bystanders.filter (· ∉ ids) } := by
  rw [settle_fst]
  induction ids generalizing s with
  | nil => simp
  | cons id ids ih =>
      have huncredited : s.scores.map (fun score =>
          if score.id = 0 then { score with kills := score.kills + 1 } else score) = s.scores := by
        refine (List.map_congr_left fun score hscore => ?_).trans (List.map_id _)
        exact if_neg (h score hscore)
      have hfirst : s.settleEvent (.killed id 0 .forced none) =
          { s with
            freeIds := s.freeIds ++ [id]
            scores := s.scores.filter (·.id ∉ [id])
            bystanders := s.bystanders.filter (· ∉ [id]) } := by
        simp only [settleEvent, settleOne, huncredited, List.mem_singleton, ne_eq]
      rw [List.map_cons, List.foldl_cons, hfirst, ih]
      · simp only [Battle.Evicted.filter_not_mem_append, List.append_assoc, List.singleton_append]
      · intro score hscore
        exact h score (List.mem_of_mem_filter hscore)

theorem offenders_eq (s : Shard) (names : Admission.NameMatcher) :
    s.offenders names =
      (s.battle.programs.filter fun p => names.rejects p.name).map Program.id := by
  rw [Battle.programs, List.filter_map, List.map_map]
  rfl

/-- Where no name is rejected a check does nothing. -/
theorem checkNames_of_offenders_eq_nil {names : Admission.NameMatcher}
    (h : s.offenders names = []) : s.checkNames names = ⟨[], s, []⟩ := by
  rw [checkNames, h]
  rfl

/-- The others are checked already. -/
theorem offenders_of_warriors {t : Shard} {names : Admission.NameMatcher}
    (h : t.battle.warriors = s.battle.warriors.filter (·.id ∉ s.offenders names)) :
    t.offenders names = [] := by
  rw [offenders, List.map_eq_nil_iff, List.filter_eq_nil_iff]
  intro w hw hrejected
  rw [h, List.mem_filter, decide_eq_true_eq] at hw
  exact hw.2 (List.mem_map_of_mem (List.mem_filter.mpr ⟨hw.1, hrejected⟩))

namespace InOrder

variable {names : Admission.NameMatcher}

theorem nodup_offenders (h : s.InOrder rules maxPrograms) (names : Admission.NameMatcher) :
    (s.offenders names).Nodup := by
  have hnodup : s.battle.ids.Nodup := h.battle.ids_nodup
  rw [← h.battle.map_id_warriors] at hnodup
  exact hnodup.sublist (List.filter_sublist.map _)

theorem offenders_subset (h : s.InOrder rules maxPrograms) (names : Admission.NameMatcher) :
    s.offenders names ⊆ s.battle.ids := by
  rw [← h.battle.map_id_warriors]
  exact (List.filter_sublist.map _).subset

theorem id_score_ne_zero (h : s.InOrder rules maxPrograms) (hboard : s.board.Lists) {score : Score}
    (hscore : score ∈ s.scores) : score.id ≠ 0 := by
  obtain ⟨kills, hscores⟩ := hboard
  rw [show s.scores = _ from hscores] at hscore
  obtain ⟨p, hp, rfl⟩ := List.mem_map.mp hscore
  obtain ⟨g, hg, hid⟩ := List.mem_map.mp (h.battle.mem_ids_of_mem_programs hp)
  show p.id ≠ 0
  rw [← hid]
  exact h.battle.id_ne_zero g hg

/-- Nobody in a shard is dead, so all programs are among those that play. -/
theorem mem_order_iff (h : s.InOrder rules maxPrograms) {id : Nat} :
    id ∈ s.battle.order ↔ id ∈ s.battle.programs.map Program.id := by
  have halive := h.battle.alive h.runForever
  rw [Battle.map_id_programs, h.battle.map_id_warriors]
  refine ⟨Battle.mem_ids_of_mem_order, fun hid => ?_⟩
  obtain ⟨g, hg, rfl⟩ := List.mem_map.mp hid
  exact Battle.mem_order.mpr ⟨g, hg, halive g hg, rfl⟩

/-- A check takes the offenders out of the battle and strikes them from the books. -/
theorem shard_checkNames_eq (h : s.InOrder rules maxPrograms) (hboard : s.board.Lists)
    (names : Admission.NameMatcher) :
    s.battle.Evicted (s.offenders names) (s.checkNames names).shard.battle ∧
      (s.checkNames names).shard =
        { s with
          battle := (s.checkNames names).shard.battle
          freeIds := s.freeIds ++ s.offenders names
          scores := s.scores.filter (·.id ∉ s.offenders names)
          bystanders := s.bystanders.filter (· ∉ s.offenders names) } := by
  obtain ⟨hevicted, hreports⟩ :=
    h.battle.evicted_after (h.nodup_offenders names) (h.offenders_subset names)
  obtain ⟨hbattle, hevents⟩ := s.expel_eq (s.offenders names)
  rw [shard_checkNames, hevents, hreports, settle_forced]
  · rw [hbattle]
    exact ⟨hevicted, rfl⟩
  · exact fun score hscore => h.id_score_ne_zero hboard hscore

end InOrder

/-- A name check takes out exactly those living programs whose names are rejected, players' and
bystanders' alike, and tells their numbers, which are free again. The others keep their pointers,
their scores and their places in the order of play, and no cell changes but for its owner. To check
again finds nobody. -/
theorem offenders_evicted (id : Nat) (rules : Rules) (maxPrograms maxNameLength : Nat)
    (random : Xoshiro) (steps : List Step) (names : Admission.NameMatcher) :
    let s := (start id rules maxPrograms maxNameLength random).after steps
    let offenders := (s.checkNames names).result
    let t := (s.checkNames names).shard
    (∀ id, id ∈ s.battle.order ↔ id ∈ s.battle.programs.map Program.id) ∧
      offenders = (s.battle.programs.filter fun p => names.rejects p.name).map Program.id ∧
      (∀ id ∈ offenders, id ∉ t.battle.ids) ∧
      t.battle.warriors = s.battle.warriors.filter (·.id ∉ offenders) ∧
      t.battle.groups = s.battle.groups.filter (·.id ∉ offenders) ∧
      t = { s with
        battle := t.battle
        freeIds := s.freeIds ++ offenders
        scores := s.scores.filter (·.id ∉ offenders)
        bystanders := s.bystanders.filter (· ∉ offenders) } ∧
      t.battle.rules = s.battle.rules ∧ s.battle.arena.SameShape t.battle.arena ∧
      (∀ i, t.battle.arena.cell i =
        if s.battle.rules.clearOwnership ∧ (s.battle.arena.cell i).owner ∈ offenders then
          { s.battle.arena.cell i with owner := 0 }
        else s.battle.arena.cell i) ∧
      s.battle.executing?.map Prod.fst = s.battle.order.head? ∧
      t.battle.order = s.battle.order.filter (· ∉ offenders) ∧
      t.battle.executing?.map Prod.fst = s.battle.order.find? (· ∉ offenders) ∧
      t.checkNames names = ⟨[], t, []⟩ := by
  intro s offenders t
  have hs : s.InOrder rules maxPrograms := inOrder_after_start ..
  have hboard : s.board.Lists :=
    (inOrder_start id rules maxPrograms maxNameLength random).lists_after ⟨fun _ => 0, rfl⟩ steps
  have ht : t.InOrder rules maxPrograms := hs.checkNames names
  obtain ⟨hevicted, hbooks⟩ := hs.shard_checkNames_eq hboard names
  refine ⟨fun _ => hs.mem_order_iff, s.offenders_eq names, ?_, hevicted.warriors_eq,
    hevicted.groups_eq, hbooks, hevicted.rules_eq, hevicted.shape, hevicted.cell_eq,
    hs.battle.head?_order.symm, hevicted.order_eq, ?_, ?_⟩
  · intro id hid hlive
    rw [show t.battle.ids = _ from hevicted.ids_eq, List.mem_filter, decide_eq_true_eq] at hlive
    exact hlive.2 hid
  · rw [← ht.battle.head?_order, show t.battle.order = _ from hevicted.order_eq, List.head?_filter]
    rfl
  · exact checkNames_of_offenders_eq_nil (offenders_of_warriors hevicted.warriors_eq)

end CoreArena.Shard
