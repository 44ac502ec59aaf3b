import CoreArena.Proofs.Shard.Deeds

/-! # What a display shows

A display that starts empty and writes over what each report holds shows the summary of the shard.
After a play the summary tells operation, owner and pointer of every cell as the program has left
it, and the report holds what changed: `display_follows_reports`. -/

namespace CoreArena

/-- The entries of a picture that an older one does not have, with their places. -/
def changes (new old : List Nat) : Delta :=
  (new.zip old).zipIdx.filterMap fun ((entry, before), i) =>
    if entry = before then none else some (i, entry)

/-- A picture with the entries of a report written over. -/
def overwrite (picture : List Nat) (delta : Delta) : List Nat :=
  delta.foldl (fun picture (i, entry) => picture.set i entry) picture

section Pictures

variable {new old picture : List Nat} {delta : Delta} {i entry : Nat}

theorem mem_changes (hlength : new.length = old.length) :
    (i, entry) ∈ changes new old ↔ new[i]? = some entry ∧ old[i]? ≠ some entry := by
  simp only [changes, List.mem_filterMap, Prod.exists, List.mem_zipIdx_iff_getElem?,
    List.getElem?_zip_eq_some, Option.ite_none_left_eq_some, Option.some.injEq, Prod.mk.injEq]
  constructor
  · rintro ⟨entry, before, i, ⟨hnew, hold⟩, hne, rfl, rfl⟩
    refine ⟨hnew, fun hsame => hne ?_⟩
    exact Option.some.inj (hsame.symm.trans hold)
  · rintro ⟨hnew, hold⟩
    obtain ⟨hi, -⟩ := List.getElem?_eq_some_iff.mp hnew
    have hbefore : old[i]? = some old[i] := List.getElem?_eq_getElem (hlength ▸ hi)
    refine ⟨entry, old[i], i, ⟨hnew, hbefore⟩, fun hsame => hold ?_, rfl, rfl⟩
    rw [hbefore, hsame]

/-- The places of changes ascend. -/
theorem pairwise_changes (new old : List Nat) :
    ((changes new old).map Prod.fst).Pairwise (· < ·) := by
  have hplaces : (new.zip old).zipIdx.Pairwise fun x y => x.2 < y.2 := by
    rw [← List.pairwise_map (f := Prod.snd) (R := (· < ·)), List.zipIdx_map_snd]
    exact List.pairwise_lt_range'
  rw [List.pairwise_map, changes, List.pairwise_filterMap]
  refine hplaces.imp ?_
  rintro ⟨⟨entry, before⟩, i⟩ ⟨⟨entry', before'⟩, j⟩ hlt
  simp only [Option.ite_none_left_eq_some, Option.some.injEq]
  rintro _ ⟨-, rfl⟩ _ ⟨-, rfl⟩
  exact hlt

@[simp] theorem length_overwrite (picture : List Nat) (delta : Delta) :
    (overwrite picture delta).length = picture.length := by
  induction delta generalizing picture with
  | nil => rfl
  | cons change delta ih => rw [overwrite, List.foldl_cons, ← overwrite, ih, List.length_set]

theorem getElem?_overwrite_of_not_mem (h : i ∉ delta.map Prod.fst) :
    (overwrite picture delta)[i]? = picture[i]? := by
  induction delta generalizing picture with
  | nil => rfl
  | cons change delta ih =>
      rw [List.map_cons, List.mem_cons, not_or] at h
      rw [overwrite, List.foldl_cons, ← overwrite, ih h.2, List.getElem?_set_ne (Ne.symm h.1)]

theorem getElem?_overwrite_of_mem (hnodup : (delta.map Prod.fst).Nodup) (h : (i, entry) ∈ delta)
    (hi : i < picture.length) : (overwrite picture delta)[i]? = some entry := by
  induction delta generalizing picture with
  | nil => cases h
  | cons change delta ih =>
      rw [List.map_cons, List.nodup_cons] at hnodup
      rw [overwrite, List.foldl_cons, ← overwrite]
      rcases List.mem_cons.mp h with rfl | h
      · rw [getElem?_overwrite_of_not_mem hnodup.1, List.getElem?_set_self hi]
      · exact ih hnodup.2 h (by rwa [List.length_set])

/-- Writing the changes over the old picture gives the new one. -/
theorem overwrite_changes (hlength : new.length = old.length) :
    overwrite old (changes new old) = new := by
  refine List.ext_getElem? fun i => ?_
  by_cases hi : i < new.length
  · by_cases hsame : old[i]? = some new[i]
    · rw [getElem?_overwrite_of_not_mem, hsame, List.getElem?_eq_getElem hi]
      intro hmem
      obtain ⟨⟨_, entry⟩, hchange, rfl⟩ := List.mem_map.mp hmem
      obtain ⟨hnew, hold⟩ := (mem_changes hlength).mp hchange
      rw [List.getElem?_eq_getElem hi] at hnew
      exact hold (hsame.trans hnew)
    · rw [List.getElem?_eq_getElem hi]
      refine getElem?_overwrite_of_mem ((pairwise_changes new old).imp Nat.ne_of_lt)
        ((mem_changes hlength).mpr ⟨List.getElem?_eq_getElem hi, hsame⟩) (by omega)
  · rw [List.getElem?_eq_none (by rw [length_overwrite]; omega), List.getElem?_eq_none (by omega)]

end Pictures

namespace Shard

variable {rules : Rules} {maxPrograms : Nat} {s t : Shard}

/-! ## Summaries -/

/-- An entry tells operation, owner and pointer of a cell. -/
theorem summarize_fields (c : Cell) (hasPointer : Bool) (h : c.owner < 32) :
    summarize c hasPointer % 16 = (Instruction.decode c.value).operation.number ∧
      summarize c hasPointer / 16 % 32 = c.owner ∧
      summarize c hasPointer / 512 = if hasPointer then 1 else 0 := by
  have hnumber := (Instruction.decode c.value).operation.number_lt
  unfold summarize
  cases hasPointer <;> simp <;> omega

theorem length_currentSummary (s : Shard) : s.currentSummary.length = s.battle.arena.size := by
  simp [currentSummary, Arena.size]

theorem getElem?_currentSummary {i : Nat} (hi : i < s.battle.arena.size) :
    s.currentSummary[i]? =
      some (summarize (s.battle.arena.cell i) (s.battle.pointers.contains i)) := by
  have hcell : s.battle.arena.cells.toList[i]? = some (s.battle.arena.cell i) := by
    rw [Array.getElem?_toList, Arena.cell, Array.getElem?_eq_getElem hi,
      Array.getD_eq_getD_getElem?, Array.getElem?_eq_getElem hi, Option.getD_some]
  simp [currentSummary, List.getElem?_zipIdx, hcell]

/-! ## Reports -/

/-- What a step reports of the cells. -/
def report? (s : Shard) : Step → Option Delta
  | .pass => s.pass.result
  | .install .. | .kill _ | .checkNames _ | .repopulate => none

/-- What a list of steps reports of the cells, in order. -/
def reports (s : Shard) : List Step → List Delta
  | [] => []
  | step :: steps => (s.report? step).toList ++ (s.next step).reports steps

/-- When a program plays, the cells are looked at as it leaves them and compared with the summary.
-/
theorem result_pass_of_due (hdue : s.isPlayTick = true) :
    s.pass.result = some (changes s.playIfDue.shard.summary s.summary) ∧
      s.playIfDue.shard.battle = s.battle.advance.battle ∧
      s.playIfDue.shard.summary = s.playIfDue.shard.currentSummary := by
  let settled := (settle { s with battle := s.battle.advance.battle } s.battle.advance.events).1
  have hresult : s.pass.result = some (changes settled.currentSummary settled.summary) := by
    show s.playIfDue.result = _
    rw [playIfDue, if_pos hdue]
    rfl
  have hsummary : settled.summary = s.summary := summary_settle _ _
  rw [hresult, hsummary, playIfDue_of_due hdue, play_shard]
  exact ⟨rfl, (settled_settle _ _).battle_eq, rfl⟩

theorem result_pass_of_not_due (hdue : s.isPlayTick = false) :
    s.pass.result = none ∧ s.playIfDue.shard = s := by
  refine ⟨?_, playIfDue_of_not_due hdue⟩
  show s.playIfDue.result = none
  rw [playIfDue, hdue]
  rfl

theorem InOrder.summary_pass (h : s.InOrder rules maxPrograms) :
    s.pass.shard.summary = s.playIfDue.shard.summary :=
  h.grows_pass.summary_eq

theorem InOrder.summary_next_of_ne_pass (h : s.InOrder rules maxPrograms) {step : Step}
    (hstep : step ≠ .pass) : (s.next step).summary = s.summary := by
  cases step with
  | install name source filter address =>
      rw [Shard.next, (h.grows_install name source filter address).summary_eq]
  | pass => exact absurd rfl hstep
  | kill id => exact summary_settle _ _
  | checkNames names => exact summary_settle _ _
  | repopulate => exact h.grows_repopulate.summary_eq

/-- What a display relies on: the sizes of arena and summary, and that owners have numbers of the
shard. -/
structure Legible (size : Nat) (s : Shard) : Prop where
  size_eq : s.battle.arena.size = size
  length_eq : s.summary.length = size
  ownedBy : s.battle.arena.OwnedBy numbers

theorem legible_start (id : Nat) (rules : Rules) (maxPrograms maxNameLength : Nat)
    (random : Xoshiro) :
    (start id rules maxPrograms maxNameLength random).Legible (max 1 rules.size) where
  size_eq := Battle.size_start _
  length_eq := List.length_replicate.trans (Battle.size_start _)
  ownedBy i hi := by
    refine absurd ?_ hi
    show ((Battle.start _).arena.cell i).owner = 0
    rw [Battle.cell_start]
    rfl

namespace Legible

variable {size : Nat}

theorem length_summary_playIfDue (h : s.Legible size) (hs : s.InOrder rules maxPrograms) :
    s.playIfDue.shard.summary.length = size := by
  cases hdue : s.isPlayTick with
  | false =>
      rw [playIfDue_of_not_due hdue]
      exact h.length_eq
  | true =>
      obtain ⟨-, hbattle, hlook⟩ := result_pass_of_due hdue
      rw [hlook, length_currentSummary, hbattle, ← h.size_eq]
      exact (Battle.sameShape_after hs.battle [.advance]).size_eq

/-- A step changes the summary as its report says. -/
theorem summary_next (h : s.Legible size) (hs : s.InOrder rules maxPrograms) (step : Step) :
    (s.next step).summary = (s.report? step).toList.foldl overwrite s.summary := by
  cases step with
  | install | kill | checkNames | repopulate => exact hs.summary_next_of_ne_pass nofun
  | pass =>
      show s.pass.shard.summary = s.pass.result.toList.foldl overwrite s.summary
      rw [hs.summary_pass]
      cases hdue : s.isPlayTick with
      | false =>
          obtain ⟨hresult, hsame⟩ := result_pass_of_not_due hdue
          rw [hresult, hsame]
          rfl
      | true =>
          obtain ⟨hresult, -, -⟩ := result_pass_of_due hdue
          rw [hresult]
          exact (overwrite_changes ((h.length_summary_playIfDue hs).trans h.length_eq.symm)).symm

/-- Every step keeps a shard legible. -/
theorem next (h : s.Legible size) (hs : s.InOrder rules maxPrograms) (step : Step) :
    (s.next step).Legible size where
  size_eq := by
    rw [hs.battle_next, (Battle.sameShape_after hs.battle _).size_eq, h.size_eq]
  length_eq := by
    rw [h.summary_next hs]
    cases s.report? step with
    | none => exact h.length_eq
    | some delta => exact (length_overwrite _ _).trans h.length_eq
  ownedBy := by
    rw [hs.battle_next]
    exact hs.battle.ownedBy_after hs.runForever hs.ids_subset h.ownedBy
      fun _ _ hdeed => hs.mem_numbers_of_deeds hdeed

/-- Reports tell all changes of the summary. -/
theorem summary_after (h : s.Legible size) (hs : s.InOrder rules maxPrograms)
    (steps : List Step) :
    (s.after steps).Legible size ∧
      (s.after steps).summary = (s.reports steps).foldl overwrite s.summary := by
  induction steps generalizing s with
  | nil => exact ⟨h, rfl⟩
  | cons step steps ih =>
      obtain ⟨hlegible, hsummary⟩ := ih (h.next hs step) (hs.next step)
      refine ⟨hlegible, ?_⟩
      rw [after_cons, hsummary, h.summary_next hs, reports, List.foldl_append]

/-- After a play the summary tells how the program has left each cell. -/
theorem decodes (h : s.Legible size) (hs : s.InOrder rules maxPrograms)
    (hdue : s.isPlayTick = true) {i : Nat} (hi : i < size) :
    ∃ entry, s.pass.shard.summary[i]? = some entry ∧
      entry % 16 =
        (Instruction.decode (s.battle.advance.battle.arena.cell i).value).operation.number ∧
      entry / 16 % 32 = (s.battle.advance.battle.arena.cell i).owner ∧
      entry / 512 = if i ∈ s.battle.advance.battle.pointers then 1 else 0 := by
  obtain ⟨-, hbattle, hlook⟩ := result_pass_of_due hdue
  have hsize : s.battle.advance.battle.arena.size = size := by
    rw [← h.size_eq]
    exact (Battle.sameShape_after hs.battle [.advance]).size_eq
  have howned : s.battle.advance.battle.arena.OwnedBy numbers :=
    hs.battle.ownedBy_next h.ownedBy hs.ids_subset
      (hs.battle.ids_next_subset (s := .advance) hs.runForever hs.ids_subset nofun)
  have howner : (s.battle.advance.battle.arena.cell i).owner < 32 := by
    by_cases hnobody : (s.battle.advance.battle.arena.cell i).owner = 0
    · omega
    · obtain ⟨k, hk, hnumber⟩ := List.mem_map.mp (howned i hnobody)
      have hround : k < 31 := List.mem_range.mp hk
      omega
  refine ⟨summarize (s.battle.advance.battle.arena.cell i)
    (s.battle.advance.battle.pointers.contains i), ?_, ?_⟩
  · rw [hs.summary_pass, hlook, getElem?_currentSummary (by rwa [hbattle, hsize]), hbattle]
  · simpa using summarize_fields _ (s.battle.advance.battle.pointers.contains i) howner

end Legible

theorem isPlayTick_of_result_pass {delta : Delta} (h : s.pass.result = some delta) :
    s.isPlayTick = true := by
  by_contra hdue
  rw [(result_pass_of_not_due (Bool.eq_false_of_not_eq_true hdue)).1] at h
  cases h

/-- Writing all reports over an empty picture gives the summary. When a program plays, the entry of
each cell tells its operation, the whole number of its owner and whether a pointer is on it, as the
program has left it, which is how it stays unless programs join at the same tick. A report holds the
cells, in ascending order, whose entries have changed since the last one. -/
theorem display_follows_reports (id : Nat) (rules : Rules) (maxPrograms maxNameLength : Nat)
    (random : Xoshiro) (steps : List Step) :
    let s := (start id rules maxPrograms maxNameLength random).after steps
    let b := s.battle.advance.battle
    s.summary = ((start id rules maxPrograms maxNameLength random).reports steps).foldl overwrite
        (List.replicate (max 1 rules.size) 0) ∧
      ∀ delta, s.pass.result = some delta →
        (∀ i < max 1 rules.size, ∃ entry, s.pass.shard.summary[i]? = some entry ∧
          entry % 16 = (Instruction.decode (b.arena.cell i).value).operation.number ∧
          entry / 16 % 32 = (b.arena.cell i).owner ∧
          entry / 512 = if i ∈ b.pointers then 1 else 0) ∧
        (s.pass.shard.battle.warriors = b.warriors → s.pass.shard.battle = b) ∧
        (delta.map Prod.fst).Pairwise (· < ·) ∧
        ∀ i entry, (i, entry) ∈ delta ↔
          s.pass.shard.summary[i]? = some entry ∧ s.summary[i]? ≠ some entry := by
  intro s b
  have hs : s.InOrder rules maxPrograms := inOrder_after_start ..
  obtain ⟨hlegible, hsummary⟩ :=
    (legible_start id rules maxPrograms maxNameLength random).summary_after (inOrder_start ..) steps
  refine ⟨?_, ?_⟩
  · rw [hsummary]
    congr 1
    exact congrArg (List.replicate · 0) (Battle.size_start _)
  intro delta hdelta
  have hdue := isPlayTick_of_result_pass hdelta
  obtain ⟨hresult, hbattle, -⟩ := result_pass_of_due hdue
  obtain rfl := Option.some.inj (hdelta.symm.trans hresult)
  refine ⟨fun i hi => hlegible.decodes hs hdue hi, ?_, pairwise_changes _ _, fun i entry => ?_⟩
  · intro hnobody
    obtain ⟨ws, hwarriors, hboard⟩ := hs.grows_pass.newcomers
    rw [hbattle, show s.pass.shard.battle.warriors = _ from hnobody] at hwarriors
    obtain rfl := List.self_eq_append_right.mp hwarriors
    exact (congrArg Scoreboard.battle hboard).trans hbattle
  · rw [hs.summary_pass]
    exact mem_changes ((hlegible.length_summary_playIfDue hs).trans hlegible.length_eq.symm)

/-- One program that jumps on the spot, in a shard that may be topped up at each tick. -/
def lonely (bystanderCount : Nat) : Shard :=
  (start 0 { columnSize := 1, columnCount := 32, bystanderCount, bystanderInterval := 1 } 31 8
    ⟨1, 2, 3, 4⟩).after [.install "a" "jump 0" none none]

theorem display_follows_reports_lonely :
    (lonely 0).pass.result = some [(16, 529)] ∧
      (lonely 0).pass.shard.battle.warriors = (lonely 0).battle.advance.battle.warriors ∧
      (lonely 0).pass.shard.battle = (lonely 0).battle.advance.battle ∧
      (lonely 0).pass.shard.summary[16]? = some 529 ∧ (lonely 0).summary[16]? ≠ some 529 := by
  have hresult : (lonely 0).pass.result = some [(16, 529)] := by
    decide +kernel
  have hwarriors :
      (lonely 0).pass.shard.battle.warriors = (lonely 0).battle.advance.battle.warriors := by
    decide +kernel
  obtain ⟨-, hreport⟩ := display_follows_reports 0
    { columnSize := 1, columnCount := 32, bystanderInterval := 1 } 31 8 ⟨1, 2, 3, 4⟩
    [.install "a" "jump 0" none none]
  obtain ⟨-, hstays, -, hchanged⟩ := hreport _ hresult
  exact ⟨hresult, hwarriors, hstays hwarriors, (hchanged 16 529).mp List.mem_cons_self⟩

/-- A bystander that joins when somebody has played does not show yet. -/
theorem newcomer_not_shown :
    (lonely 1).pass.result = some [(16, 529)] ∧ (lonely 1).pass.shard.summary[8]? = some 0 ∧
      (Instruction.decode ((lonely 1).pass.shard.battle.arena.cell 8).value).operation = .write ∧
      ((lonely 1).pass.shard.battle.arena.cell 8).owner = 2 ∧
      8 ∈ (lonely 1).pass.shard.battle.pointers := by
  decide +kernel

end Shard

end CoreArena
