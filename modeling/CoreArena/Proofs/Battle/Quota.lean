import CoreArena.Proofs.Battle.Change

/-! # Quotas of cells

A cell counts what is reported of it, as far as a byte goes, and a limit on either count bounds the
reports themselves. A cell that has reached a limit is out of reach for programs from then on:
`quotas_after_start`. -/

namespace CoreArena

open Relation

namespace Event

def readsAt (i : Nat) : Event → Bool
  | read _ address => address == i
  | _ => false

def writesAt (i : Nat) : Event → Bool
  | written _ address => address == i
  | _ => false

end Event

variable {i j : Nat} {t u v : Track}

/-! ## What a cell notices -/

/-- Nobody accesses a cell between two tracks. -/
structure Unused (i : Nat) (t u : Track) : Prop where
  maxReads_eq : u.arena.maxReads = t.arena.maxReads
  maxWrites_eq : u.arena.maxWrites = t.arena.maxWrites
  reads_eq : (u.arena.cell i).reads = (t.arena.cell i).reads
  writes_eq : (u.arena.cell i).writes = (t.arena.cell i).writes
  events : ∃ new, u.events = t.events ++ new ∧
    ∀ e ∈ new, e.readsAt i = false ∧ e.writesAt i = false

/-- Nobody accesses a cell, and its value stays. -/
structure Spared (i : Nat) (t u : Track) : Prop extends Unused i t u where
  value_eq : (u.arena.cell i).value = (t.arena.cell i).value

namespace Unused

theorem refl (i : Nat) (t : Track) : Unused i t t :=
  ⟨rfl, rfl, rfl, rfl, [], (List.append_nil _).symm, by simp⟩

theorem trans (h : Unused i t u) (h' : Unused i u v) : Unused i t v := by
  obtain ⟨new, hnew, hnone⟩ := h.events
  obtain ⟨more, hmore, hnone'⟩ := h'.events
  refine ⟨h'.maxReads_eq.trans h.maxReads_eq, h'.maxWrites_eq.trans h.maxWrites_eq,
    h'.reads_eq.trans h.reads_eq, h'.writes_eq.trans h.writes_eq, new ++ more, ?_, ?_⟩
  · rw [hmore, hnew, List.append_assoc]
  · intro e he
    rcases List.mem_append.mp he with he | he
    · exact hnone e he
    · exact hnone' e he

theorem isDead_eq (h : Unused i t u) : u.arena.isDead i = t.arena.isDead i := by
  unfold Arena.isDead
  dsimp only
  rw [h.maxReads_eq, h.maxWrites_eq, h.reads_eq, h.writes_eq]

theorem countP_events (h : Unused i t u) :
    u.events.countP (Event.readsAt i) = t.events.countP (Event.readsAt i) ∧
      u.events.countP (Event.writesAt i) = t.events.countP (Event.writesAt i) := by
  obtain ⟨new, hnew, hnone⟩ := h.events
  have hreads : new.countP (Event.readsAt i) = 0 :=
    List.countP_eq_zero.mpr fun e he => by simp [hnone e he]
  have hwrites : new.countP (Event.writesAt i) = 0 :=
    List.countP_eq_zero.mpr fun e he => by simp [hnone e he]
  rw [hnew, List.countP_append, List.countP_append, hreads, hwrites]
  exact ⟨rfl, rfl⟩

end Unused

namespace Spared

theorem refl (i : Nat) (t : Track) : Spared i t t :=
  ⟨.refl i t, rfl⟩

theorem trans (h : Spared i t u) (h' : Spared i u v) : Spared i t v :=
  ⟨h.toUnused.trans h'.toUnused, h'.value_eq.trans h.value_eq⟩

theorem report (t : Track) {e : Event} (hreads : e.readsAt i = false)
    (hwrites : e.writesAt i = false) : Spared i t ⟨t.arena, t.events ++ [e]⟩ := by
  refine ⟨⟨rfl, rfl, rfl, rfl, [e], rfl, ?_⟩, rfl⟩
  intro e' he'
  rw [List.mem_singleton.mp he']
  exact ⟨hreads, hwrites⟩

theorem update (t : Track) (hne : j ≠ i) (f : Cell → Cell) :
    Spared i t ⟨t.arena.update j f, t.events⟩ := by
  have hcell := t.arena.cell_update_of_ne hne f
  exact ⟨⟨rfl, rfl, congrArg Cell.reads hcell, congrArg Cell.writes hcell, [],
    (List.append_nil _).symm, by simp⟩, congrArg Cell.value hcell⟩

end Spared

theorem Setting.unused (h : Setting t u) : Unused i t u := by
  cases h with
  | place j w owner =>
      refine ⟨rfl, rfl, ?_, ?_, [], (List.append_nil _).symm, by simp⟩
      all_goals
        rw [Arena.place, Arena.cell_update]
        split <;> rfl
  | poke j w =>
      refine ⟨rfl, rfl, ?_, ?_, [], (List.append_nil _).symm, by simp⟩
      all_goals
        rw [Arena.poke, Arena.cell_update]
        split <;> rfl

/-- A cell is left alone, or it lives and is read or written once. -/
theorem Touch.spared_or_used (h : Touch t u) (i : Nat) :
    Spared i t u ∨ t.arena.isDead i = false ∧
      ((∃ program, u = ⟨t.arena.update i Cell.countRead, t.events ++ [.read program i]⟩) ∨
        ∃ program writer w,
          u = ⟨t.arena.update i (Cell.overwrite w writer), t.events ++ [.written program i]⟩) := by
  cases h with
  | @access program writer _ _ h =>
      cases h with
      | read j hlive =>
          by_cases hj : j = i
          · subst hj
            exact .inr ⟨hlive, .inl ⟨program, rfl⟩⟩
          · exact .inl ((Spared.update t hj _).trans (.report _ (beq_eq_false_iff_ne.mpr hj) rfl))
      | write j w hlive =>
          by_cases hj : j = i
          · subst hj
            exact .inr ⟨hlive, .inr ⟨program, writer, w, rfl⟩⟩
          · exact .inl ((Spared.update t hj _).trans (.report _ rfl (beq_eq_false_iff_ne.mpr hj)))
      | cycle => exact .inl (.report t rfl rfl)
      | foreign => exact .inl (.report t rfl rfl)
  | clearOwner program =>
      left
      refine ⟨⟨rfl, rfl, ?_, ?_, [], (List.append_nil _).symm, by simp⟩, ?_⟩
      all_goals
        rw [Arena.cell_clearOwner]
        split <;> rfl
  | killed => exact .inl (.report t rfl rfl)

theorem Touch.spared_of_dead (h : Touch t u) (hdead : t.arena.isDead i = true) : Spared i t u := by
  rcases h.spared_or_used i with hspared | ⟨hlive, -⟩
  · exact hspared
  · rw [hdead] at hlive
    cases hlive

/-! ## Counting -/

/-- A counter with a limit is right about a number of reports. -/
structure Tally (limit : UInt8) (count n : Nat) : Prop where
  count_eq : count = min 255 n
  le_limit : limit ≠ 0 → n ≤ limit.toNat

theorem Tally.zero (limit : UInt8) : Tally limit 0 0 :=
  ⟨rfl, fun _ => Nat.zero_le _⟩

theorem Tally.countUp {limit : UInt8} {count n : Nat} (h : Tally limit count n)
    (hleft : isUsedUp limit count = false) : Tally limit (countUp count) (n + 1) := by
  have hcount := h.count_eq
  constructor
  · unfold CoreArena.countUp
    omega
  · intro hlimit
    have hlt : ¬ limit.toNat ≤ count := by
      simpa [isUsedUp, hlimit] using hleft
    have hbyte : limit.toNat < 256 := limit.toNat_lt
    omega

theorem Tally.count_le {limit : UInt8} {count n : Nat} (h : Tally limit count n)
    (hlimit : limit ≠ 0) : count ≤ limit.toNat := by
  have hcount := h.count_eq
  have hle := h.le_limit hlimit
  omega

/-- The counters of a cell are right about a track. -/
structure Tallied (i : Nat) (t : Track) : Prop where
  reads : Tally t.arena.maxReads (t.arena.cell i).reads (t.events.countP (Event.readsAt i))
  writes : Tally t.arena.maxWrites (t.arena.cell i).writes (t.events.countP (Event.writesAt i))

theorem Tallied.of_unused (htally : Tallied i t) (h : Unused i t u) : Tallied i u := by
  constructor
  · rw [h.maxReads_eq, h.reads_eq, h.countP_events.1]
    exact htally.reads
  · rw [h.maxWrites_eq, h.writes_eq, h.countP_events.2]
    exact htally.writes

theorem Tallied.touch (htally : Tallied i t) (h : Touch t u) (hi : i < t.arena.size) :
    Tallied i u := by
  rcases h.spared_or_used i with hspared | ⟨hlive, ⟨program, rfl⟩ | ⟨program, writer, w, rfl⟩⟩
  · exact htally.of_unused hspared.toUnused
  · have hleft := (Bool.or_eq_false_iff.mp hlive).2
    constructor
    · simp only [Arena.cell_update_self hi, List.countP_append, List.countP_singleton,
        Event.readsAt, beq_self_eq_true, if_true]
      exact htally.reads.countUp hleft
    · simp only [Arena.cell_update_self hi, List.countP_append, List.countP_singleton,
        Event.writesAt, Bool.false_eq_true, if_false, Nat.add_zero]
      exact htally.writes
  · have hleft := (Bool.or_eq_false_iff.mp hlive).1
    constructor
    · simp only [Arena.cell_update_self hi, List.countP_append, List.countP_singleton,
        Event.readsAt, Bool.false_eq_true, if_false, Nat.add_zero]
      exact htally.reads
    · simp only [Arena.cell_update_self hi, List.countP_append, List.countP_singleton,
        Event.writesAt, beq_self_eq_true, if_true]
      exact htally.writes.countUp hleft

theorem Tallied.change (htally : Tallied i t) (h : Change t u) (hi : i < t.arena.size) :
    Tallied i u := by
  cases h with
  | touch h => exact htally.touch h hi
  | setting h => exact htally.of_unused h.unused

/-! ## Runs of changes -/

theorem Tallied.changes (htally : Tallied i t) (h : ReflTransGen Change t u)
    (hi : i < t.arena.size) : Tallied i u := by
  induction h with
  | refl => exact htally
  | tail hrun hlast ih =>
      refine ih.change hlast ?_
      rw [(Changes.sameShape hrun).size_eq]
      exact hi

/-- A dead cell is never accessed again. -/
theorem Unused.of_dead (h : ReflTransGen Change t u) (hdead : t.arena.isDead i = true) :
    Unused i t u := by
  induction h with
  | refl => exact .refl i t
  | tail _ hlast ih =>
      refine ih.trans ?_
      cases hlast with
      | touch h =>
          rw [← ih.isDead_eq] at hdead
          exact (h.spared_of_dead hdead).toUnused
      | setting h => exact h.unused

theorem Spared.of_dead (h : ReflTransGen Touch t u) (hdead : t.arena.isDead i = true) :
    Spared i t u := by
  induction h with
  | refl => exact .refl i t
  | tail _ hlast ih =>
      rw [← ih.isDead_eq] at hdead
      exact ih.trans (hlast.spared_of_dead hdead)

namespace Battle

/-- A cell is out of reach for programs: it stays dead, no access of it is reported, and only the
host changes its value. -/
structure Exhausted (b : Battle) (i : Nat) : Prop where
  isDead : ∀ steps, (b.after steps).arena.isDead i = true
  unreported : ∀ steps, ∀ e ∈ b.history steps, e.readsAt i = false ∧ e.writesAt i = false
  value_eq : ∀ steps s, s.setsCells = false →
    (((b.after steps).next s).arena.cell i).value = ((b.after steps).arena.cell i).value

variable {b : Battle}

theorem Invariant.exhausted (h : b.Invariant) (hdead : b.arena.isDead i = true) :
    b.Exhausted i := by
  have hunused (steps : List Step) :
      Unused i ⟨b.arena, []⟩ ⟨(b.after steps).arena, b.history steps⟩ :=
    .of_dead (changes_history h [] steps) hdead
  have hstays (steps : List Step) : (b.after steps).arena.isDead i = true :=
    (hunused steps).isDead_eq.trans hdead
  refine ⟨hstays, ?_, ?_⟩
  · intro steps e he
    obtain ⟨new, hnew, hnone⟩ := (hunused steps).events
    rw [List.nil_append] at hnew
    exact hnone e (hnew ▸ he)
  · intro steps s hs
    have hafter : (b.after steps).Invariant := after_induction (fun _ s h => h.next s) h steps
    exact (Spared.of_dead (touches_next hafter [] hs) (hstays steps)).value_eq

theorem tallied_start (r : Rules) (i : Nat) : Tallied i ⟨(start r).arena, []⟩ := by
  constructor
  · rw [cell_start]
    exact .zero _
  · rw [cell_start]
    exact .zero _

/-- The counters of a cell tell how often it was read and written, as far as a byte goes. A limit
bounds the reads or the writes themselves, and a cell that has reached one is exhausted. -/
theorem quotas_after_start (r : Rules) (steps : List Step) (i : Nat) (hi : i < max 1 r.size) :
    (((start r).after steps).arena.cell i).reads =
        min 255 (((start r).history steps).countP (Event.readsAt i)) ∧
      (((start r).after steps).arena.cell i).writes =
        min 255 (((start r).history steps).countP (Event.writesAt i)) ∧
      (r.maxReads ≠ 0 →
        ((start r).history steps).countP (Event.readsAt i) ≤ r.maxReads.toNat) ∧
      (r.maxWrites ≠ 0 →
        ((start r).history steps).countP (Event.writesAt i) ≤ r.maxWrites.toNat) ∧
      (((start r).after steps).arena.isDead i = true → ((start r).after steps).Exhausted i) := by
  have hsize : i < (start r).arena.size := by
    rw [start, Arena.ofRules, Arena.size_make]
    exact hi
  have htally := (tallied_start r i).changes (changes_history (invariant_start r) [] steps) hsize
  rw [List.nil_append] at htally
  have hshape := sameShape_after (invariant_start r) steps
  refine ⟨htally.reads.count_eq, htally.writes.count_eq, ?_, ?_, ?_⟩
  · have hle := htally.reads.le_limit
    rw [hshape.maxReads_eq] at hle
    exact hle
  · have hle := htally.writes.le_limit
    rw [hshape.maxWrites_eq] at hle
    exact hle
  · exact (invariant_after_start r steps).exhausted

/-- Where one read is allowed, a cell that was executed is exhausted. -/
theorem quotas_after_fetch :
    (((start { columnSize := 1, columnCount := 2, maxReads := 1 }).after
        [.install (idler 1) 0, .advance]).arena.cell 0).reads = 1 ∧
      ((start { columnSize := 1, columnCount := 2, maxReads := 1 }).after
        [.install (idler 1) 0, .advance]).Exhausted 0 := by
  obtain ⟨hreads, -, -, -, hexhausted⟩ :=
    quotas_after_start { columnSize := 1, columnCount := 2, maxReads := 1 }
      [.install (idler 1) 0, .advance] 0 (by decide)
  exact ⟨hreads.trans (by decide), hexhausted rfl⟩

end Battle

end CoreArena
