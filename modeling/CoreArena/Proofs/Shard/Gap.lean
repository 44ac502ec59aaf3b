import CoreArena.Proofs.Battle.Installation
import CoreArena.Proofs.Shard.Books
import CoreArena.Proofs.Source.Reading

/-! # Gaps between pointers

A newcomer starts in the middle of the first of the longest gaps between the cells that are about
to be executed, so a program that fits into the second half of the gap is written over none of
them: `middle_of_first_longest_gap`. -/

namespace CoreArena

namespace Placement

/-! ## Gaps -/

/-- A cell of the arena to which none of the addresses leads. -/
def IsFree (occupied : List Nat) (size i : Nat) : Prop :=
  i < size ∧ ∀ o ∈ occupied, o % size ≠ i

/-- A run of free cells that is part of no longer one and does not go around the end of the arena.
It may be empty. -/
structure IsGap (occupied : List Nat) (size start length : Nat) : Prop where
  le_size : start + length ≤ size
  free : ∀ i, start ≤ i → i < start + length → IsFree occupied size i
  opens : ∀ i, i + 1 = start → ¬ IsFree occupied size i
  closes : ¬ IsFree occupied size (start + length)

/-- No gap is longer, and those before it are shorter. -/
structure IsFirstLongestGap (occupied : List Nat) (size start length : Nat) : Prop
    extends IsGap occupied size start length where
  longest : ∀ start' length', IsGap occupied size start' length' → length' ≤ length
  first : ∀ start', IsGap occupied size start' length → start ≤ start'

theorem IsFirstLongestGap.unique {occupied : List Nat} {size start length start' length' : Nat}
    (h : IsFirstLongestGap occupied size start length)
    (h' : IsFirstLongestGap occupied size start' length') : start = start' ∧ length = length' := by
  obtain rfl : length = length' :=
    Nat.le_antisymm (h'.longest _ _ h.toIsGap) (h.longest _ _ h'.toIsGap)
  exact ⟨Nat.le_antisymm (h.first _ h'.toIsGap) (h'.first _ h.toIsGap), rfl⟩

section Runs

variable {occupied : List Nat} {size first length : Nat}

/-- Whether an address leads to a cell. -/
def isTaken (occupied : List Nat) (size i : Nat) : Bool :=
  occupied.any fun o => o % size == i

theorem isFree_iff {i : Nat} :
    IsFree occupied size i ↔ i < size ∧ isTaken occupied size i = false := by
  simp [IsFree, isTaken]

/-- The runs that are found from a run on that is so long up to now, in so many cells behind it. -/
def runsFrom (occupied : List Nat) (size first length count : Nat) : List (Nat × Nat) :=
  freeRuns first length ((List.range' (first + length) count).map (isTaken occupied size))

theorem runsFrom_of_taken (h : isTaken occupied size (first + length) = true) (count : Nat) :
    runsFrom occupied size first length (count + 1) =
      (first, length) :: runsFrom occupied size (first + length + 1) 0 count := by
  rw [runsFrom, List.range'_succ, List.map_cons, h]
  rfl

theorem runsFrom_of_free (h : isTaken occupied size (first + length) = false) (count : Nat) :
    runsFrom occupied size first length (count + 1) =
      runsFrom occupied size first (length + 1) count := by
  rw [runsFrom, List.range'_succ, List.map_cons, h]
  rfl

/-- A run that has been opened, and what is known of it before it is closed. -/
structure IsOpenRun (occupied : List Nat) (size first length : Nat) : Prop where
  free : ∀ i, first ≤ i → i < first + length → IsFree occupied size i
  opens : ∀ i, i + 1 = first → ¬ IsFree occupied size i

theorem IsOpenRun.extend (h : IsOpenRun occupied size first length)
    (hfree : IsFree occupied size (first + length)) :
    IsOpenRun occupied size first (length + 1) where
  free := by
    intro i hlow hhigh
    rcases Nat.lt_or_eq_of_le (Nat.le_of_lt_succ hhigh) with hlt | rfl
    · exact h.free i hlow hlt
    · exact hfree
  opens := h.opens

theorem isOpenRun_behind {i : Nat} (h : ¬ IsFree occupied size i) :
    IsOpenRun occupied size (i + 1) 0 where
  free := fun j hlow hhigh => absurd hlow (Nat.not_le_of_lt hhigh)
  opens := fun j hj => by rwa [Nat.succ.inj hj]

/-- Of all gaps that start with an open run or behind it, only that of the run starts there. -/
theorem IsOpenRun.gap_cases (h : IsOpenRun occupied size first length)
    (hclosed : ¬ IsFree occupied size (first + length)) {start' length' : Nat}
    (hgap : IsGap occupied size start' length') (hle : first ≤ start') :
    (start', length') = (first, length) ∨ first + length < start' := by
  rcases Nat.lt_or_ge (first + length) start' with hlt | hge
  · exact .inr hlt
  left
  -- A gap opens behind a cell that is not free, which no cell of the run is.
  obtain rfl : start' = first := by
    by_contra hne
    exact hgap.opens (start' - 1) (by omega) (h.free _ (by omega) (by omega))
  have hle : length' ≤ length := by
    by_contra hlong
    exact hclosed (hgap.free _ (by omega) (by omega))
  have hge : length ≤ length' := by
    by_contra hshort
    exact hgap.closes (h.free _ (by omega) (by omega))
  rw [Nat.le_antisymm hle hge]

/-- The runs that are found are the gaps. -/
theorem mem_runsFrom_iff (h : IsOpenRun occupied size first length) {count : Nat}
    (hsize : first + length + count = size) {start' length' : Nat} :
    (start', length') ∈ runsFrom occupied size first length count ↔
      IsGap occupied size start' length' ∧ first ≤ start' := by
  induction count generalizing first length with
  | zero =>
      have hend : ¬ IsFree occupied size (first + length) := fun hfree => by
        have hlt := hfree.1
        omega
      have hrun : IsGap occupied size first length := ⟨by omega, h.free, h.opens, hend⟩
      have hruns : runsFrom occupied size first length 0 = [(first, length)] := rfl
      rw [hruns, List.mem_singleton]
      constructor
      · intro heq
        obtain ⟨rfl, rfl⟩ := Prod.mk.inj heq
        exact ⟨hrun, Nat.le_refl _⟩
      · rintro ⟨hgap, hle⟩
        refine (h.gap_cases hend hgap hle).resolve_right fun hlt => ?_
        have hfits := hgap.le_size
        omega
  | succ count ih =>
      cases htaken : isTaken occupied size (first + length) with
      | false =>
          have hfree : IsFree occupied size (first + length) := isFree_iff.mpr ⟨by omega, htaken⟩
          rw [runsFrom_of_free htaken]
          exact ih (h.extend hfree) (by omega)
      | true =>
          have hclosed : ¬ IsFree occupied size (first + length) := by
            rw [isFree_iff, htaken]
            exact fun hfree => Bool.noConfusion hfree.2
          have hrun : IsGap occupied size first length := ⟨by omega, h.free, h.opens, hclosed⟩
          rw [runsFrom_of_taken htaken, List.mem_cons,
            ih (isOpenRun_behind hclosed) (by omega)]
          constructor
          · rintro (heq | ⟨hgap, hle⟩)
            · obtain ⟨rfl, rfl⟩ := Prod.mk.inj heq
              exact ⟨hrun, Nat.le_refl _⟩
            · exact ⟨hgap, by omega⟩
          · rintro ⟨hgap, hle⟩
            exact (h.gap_cases hclosed hgap hle).imp_right fun hlt => ⟨hgap, hlt⟩

/-- Every free cell is in a run. -/
theorem exists_mem_runsFrom {count i : Nat} (hi : IsFree occupied size i) (hlow : first ≤ i)
    (hhigh : i < first + length + count) :
    ∃ run ∈ runsFrom occupied size first length count, run.1 ≤ i ∧ i < run.1 + run.2 := by
  induction count generalizing first length with
  | zero => exact ⟨(first, length), List.mem_singleton_self _, hlow, hhigh⟩
  | succ count ih =>
      cases htaken : isTaken occupied size (first + length) with
      | false =>
          rw [runsFrom_of_free htaken]
          exact ih hlow (by omega)
      | true =>
          rw [runsFrom_of_taken htaken]
          rcases Nat.lt_trichotomy i (first + length) with hlt | rfl | hgt
          · exact ⟨(first, length), List.mem_cons_self, hlow, hlt⟩
          · rw [(isFree_iff.mp hi).2] at htaken
            cases htaken
          · have hbehind : i < first + length + 1 + 0 + count := by omega
            obtain ⟨run, hrun, hmem⟩ := ih hgt hbehind
            exact ⟨run, List.mem_cons_of_mem _ hrun, hmem⟩

end Runs

/-! ## The longest run -/

/-- A run is in a list and no other there is longer or as long and further in front. -/
structure IsBestOf (runs : List (Nat × Nat)) (best : Nat × Nat) : Prop where
  mem : best ∈ runs
  longest : ∀ run ∈ runs, run.2 ≤ best.2
  first : ∀ run ∈ runs, run.2 = best.2 → best.1 ≤ run.1

/-- A run is replaced only by a longer one, so the first of the longest is kept. -/
theorem isBestOf_foldl {runs : List (Nat × Nat)} {best : Nat × Nat}
    (h : (best :: runs).Pairwise fun run run' => run.1 ≤ run'.1) :
    IsBestOf (best :: runs)
      (runs.foldl (fun best run => if best.2 < run.2 then run else best) best) := by
  induction runs generalizing best with
  | nil => exact ⟨List.mem_singleton_self _, by simp, by simp⟩
  | cons run runs ih =>
      obtain ⟨hbest, hruns⟩ := List.pairwise_cons.mp h
      rw [List.foldl_cons]
      split
      · rename_i hlt
        have hkept := ih hruns
        have hlong := hkept.longest run List.mem_cons_self
        refine ⟨List.mem_cons_of_mem _ hkept.mem, ?_, ?_⟩
        · exact List.forall_mem_cons.mpr ⟨by omega, hkept.longest⟩
        · exact List.forall_mem_cons.mpr ⟨by omega, hkept.first⟩
      · rename_i hle
        obtain ⟨hrun, hrest⟩ := List.forall_mem_cons.mp hbest
        have hkept := ih (List.pairwise_cons.mpr ⟨hrest, (List.pairwise_cons.mp hruns).2⟩)
        have hlong := hkept.longest best List.mem_cons_self
        have hfirst := hkept.first best List.mem_cons_self
        refine ⟨?_, ?_, ?_⟩
        · rcases List.mem_cons.mp hkept.mem with heq | hmem
          · rw [heq]
            exact List.mem_cons_self
          · exact List.mem_cons_of_mem _ (List.mem_cons_of_mem _ hmem)
        · refine List.forall_mem_cons.mpr ⟨hlong, List.forall_mem_cons.mpr ⟨by omega, ?_⟩⟩
          exact fun run hmem => hkept.longest run (List.mem_cons_of_mem _ hmem)
        · refine List.forall_mem_cons.mpr ⟨hfirst, List.forall_mem_cons.mpr ⟨fun heq => ?_, ?_⟩⟩
          · exact (hfirst (by omega)).trans hrun
          · exact fun run hmem => hkept.first run (List.mem_cons_of_mem _ hmem)

theorem le_of_mem_freeRuns {cells : List Bool} {first length : Nat} {run : Nat × Nat}
    (h : run ∈ freeRuns first length cells) : first ≤ run.1 := by
  induction cells generalizing first length with
  | nil =>
      rw [List.mem_singleton.mp h]
  | cons taken cells ih =>
      cases taken with
      | false => exact ih h
      | true =>
          rcases List.mem_cons.mp h with rfl | h
          · exact Nat.le_refl first
          · exact (Nat.le_add_right_of_le (Nat.le_add_right first length)).trans (ih h)

theorem pairwise_freeRuns (first length : Nat) (cells : List Bool) :
    (freeRuns first length cells).Pairwise fun run run' => run.1 ≤ run'.1 := by
  induction cells generalizing first length with
  | nil => exact List.pairwise_singleton _ _
  | cons taken cells ih =>
      cases taken with
      | false => exact ih first (length + 1)
      | true =>
          refine List.pairwise_cons.mpr ⟨fun run hrun => ?_, ih _ _⟩
          have hle := le_of_mem_freeRuns hrun
          omega

section Middle

variable {occupied : List Nat} {size : Nat}

/-- All runs of the arena. -/
def runs (occupied : List Nat) (size : Nat) : List (Nat × Nat) :=
  runsFrom occupied size 0 0 size

theorem mem_runs_iff {run : Nat × Nat} :
    run ∈ runs occupied size ↔ IsGap occupied size run.1 run.2 := by
  have hopen : IsOpenRun occupied size 0 0 :=
    ⟨fun i _ hhigh => absurd hhigh (Nat.not_lt_zero i), fun i hi => absurd hi (Nat.succ_ne_zero i)⟩
  exact (mem_runsFrom_iff hopen (Nat.zero_add size)).trans (and_iff_left (Nat.zero_le _))

theorem isBestOf_longestRun (occupied : List Nat) (size : Nat) :
    IsBestOf ((0, 0) :: runs occupied size) (longestRun (runs occupied size)) :=
  isBestOf_foldl (List.pairwise_cons.mpr ⟨fun _ _ => Nat.zero_le _, pairwise_freeRuns _ _ _⟩)

/-- Where a cell is free, the longest run is a gap that is not empty. -/
theorem isFirstLongestGap_longestRun (h : ∃ i, IsFree occupied size i) :
    0 < (longestRun (runs occupied size)).2 ∧
      IsFirstLongestGap occupied size (longestRun (runs occupied size)).1
        (longestRun (runs occupied size)).2 := by
  have hbest := isBestOf_longestRun occupied size
  generalize longestRun (runs occupied size) = best at hbest ⊢
  obtain ⟨i, hi⟩ := h
  have hinside : i < 0 + 0 + size := by
    simpa using hi.1
  obtain ⟨run, hrun, hlow, hhigh⟩ := exists_mem_runsFrom hi (Nat.zero_le i) hinside
  replace hrun : run ∈ runs occupied size := hrun
  have hlong := hbest.longest run (List.mem_cons_of_mem _ hrun)
  have hpos : 0 < best.2 := by omega
  have hmem : best ∈ runs occupied size := by
    refine (List.mem_cons.mp hbest.mem).resolve_left ?_
    rintro rfl
    exact Nat.lt_irrefl 0 hpos
  refine ⟨hpos, mem_runs_iff.mp hmem, ?_, ?_⟩
  · intro start' length' hgap
    exact hbest.longest (start', length') (List.mem_cons_of_mem _ (mem_runs_iff.mpr hgap))
  · intro start' hgap
    exact hbest.first (start', best.2) (List.mem_cons_of_mem _ (mem_runs_iff.mpr hgap)) rfl

theorem middleOfLongestGap_eq (hoccupied : occupied ≠ []) (hsize : 0 < size) :
    middleOfLongestGap occupied size =
      ((longestRun (runs occupied size)).1 + (longestRun (runs occupied size)).2 / 2) % size := by
  have hfull : ¬ (occupied = [] ∨ size = 0) := by
    rintro (hnil | hzero)
    · exact hoccupied hnil
    · exact Nat.ne_of_gt hsize hzero
  rw [middleOfLongestGap, if_neg hfull, List.range_eq_range']
  rfl

theorem middleOfLongestGap_lt (occupied : List Nat) (hsize : 0 < size) :
    middleOfLongestGap occupied size < size := by
  by_cases hoccupied : occupied = []
  · rw [middleOfLongestGap, if_pos (.inl hoccupied)]
    exact Nat.div_lt_self hsize Nat.one_lt_two
  · rw [middleOfLongestGap_eq hoccupied hsize]
    exact Nat.mod_lt _ hsize

/-- The middle is that of the first of the longest gaps, if one is not empty. -/
theorem IsFirstLongestGap.middle_eq {start length : Nat}
    (h : IsFirstLongestGap occupied size start length) (hpos : 0 < length)
    (hoccupied : occupied ≠ []) : middleOfLongestGap occupied size = start + length / 2 := by
  have hfits := h.le_size
  obtain ⟨-, hlongest⟩ := isFirstLongestGap_longestRun ⟨start, h.free start (by omega) (by omega)⟩
  obtain ⟨hstart, hlength⟩ := h.unique hlongest
  rw [middleOfLongestGap_eq hoccupied (by omega), ← hstart, ← hlength]
  exact Nat.mod_eq_of_lt (by omega)

/-- The cells from the middle of a gap to its end. -/
theorem IsGap.isFree_behind_middle {start length i : Nat} (h : IsGap occupied size start length)
    (hlow : start + length / 2 ≤ i) (hhigh : i < start + length / 2 + (length - length / 2)) :
    IsFree occupied size i :=
  h.free i (by omega) (by omega)

end Middle

end Placement

/-! ## Newcomers -/

namespace Shard

/-- Nothing has been written to a cell that was about to be executed. -/
def SparesPointers (s t : Shard) : Prop :=
  ∀ p ∈ s.battle.pointers, t.battle.arena.cell p = s.battle.arena.cell p

theorem sparesPointers_of_battle_eq {s t : Shard} (h : t.battle = s.battle) :
    s.SparesPointers t := by
  intro p _
  rw [h]

open Placement

/-- A program that fits between the middle of the longest gap and its end is written over no cell
that is about to be executed. -/
theorem sparesPointers_place {s : Shard} (hsize : 0 < s.battle.arena.size) {start length : Nat}
    (hgap : IsFirstLongestGap s.battle.pointers s.battle.arena.size start length) (name : String)
    {code : List Word} (hcode : code.length ≤ length - length / 2) :
    s.SparesPointers (s.place name code).shard := by
  have hplaced := s.placed_place name code
  generalize s.place name code = reply at hplaced ⊢
  cases hplaced with
  | full | refused => exact sparesPointers_of_battle_eq rfl
  | @placed id freeIds battle notices hfree hinstall =>
      intro p hp
      refine (Battle.installedAt_of_install hsize hinstall).others p fun k hk hcell => ?_
      replace hk : k < code.length := hk
      have hoccupied : s.battle.pointers ≠ [] := List.ne_nil_of_mem hp
      have hmiddle := hgap.middle_eq (by omega) hoccupied
      have hfree := hgap.isFree_behind_middle (i := start + length / 2 + k) (by omega) (by omega)
      rw [hmiddle, Battle.codeCell, Arena.locate_of_lt (by have := hfree.1; omega),
        Nat.mod_eq_of_lt hfree.1] at hcell
      refine hfree.2 p hp ?_
      rw [hcell]
      exact Nat.mod_eq_of_lt hfree.1

theorem sparesPointers_install {s : Shard} (hsize : 0 < s.battle.arena.size) {start length : Nat}
    (hgap : IsFirstLongestGap s.battle.pointers s.battle.arena.size start length)
    {name source : String} {filter : Option Admission.Filter} {address : Option String}
    (hcode : ∀ a, Source.assemble source = .ok a → a.words.length ≤ length - length / 2) :
    s.SparesPointers (s.install name source filter address).shard := by
  have hsubmitted := s.submitted_install name source filter address
  generalize s.install name source filter address = reply at hsubmitted ⊢
  cases hsubmitted with
  | turnedAway => exact sparesPointers_of_battle_eq rfl
  | admitted assembled _ _ hassemble =>
      exact sparesPointers_place hsize hgap _ (hcode assembled hassemble)

end Shard

open Placement Shard

/-- Between cells that are about to be executed, a newcomer starts in the middle of the first of the
longest gaps, and the gap is free from there to its end. So in every shard a program that is no
longer than this part of the gap is written over no cell that is about to be executed. -/
theorem Placement.middle_of_first_longest_gap {occupied : List Nat} {size : Nat}
    (hoccupied : occupied ≠ []) (hsize : 0 < size) :
    middleOfLongestGap occupied size < size ∧
      ((∃ i, IsFree occupied size i) → ∃ start length, 0 < length ∧
        IsFirstLongestGap occupied size start length ∧
        middleOfLongestGap occupied size = start + length / 2 ∧
        middleOfLongestGap occupied size + (length - length / 2) ≤ size ∧
        ∀ i, middleOfLongestGap occupied size ≤ i →
          i < middleOfLongestGap occupied size + (length - length / 2) →
          IsFree occupied size i) ∧
      ∀ (id : Nat) (rules : Rules) (maxPrograms maxNameLength : Nat) (random : Xoshiro)
        (steps : List Step),
        let s := (Shard.start id rules maxPrograms maxNameLength random).after steps
        ∀ start length, IsFirstLongestGap s.battle.pointers s.battle.arena.size start length →
          (∀ name code, code.length ≤ length - length / 2 →
            s.SparesPointers (s.place name code).shard) ∧
          ∀ name source filter address,
            (∀ a, Source.assemble source = .ok a → a.words.length ≤ length - length / 2) →
            s.SparesPointers (s.install name source filter address).shard := by
  refine ⟨middleOfLongestGap_lt occupied hsize, ?_, ?_⟩
  · intro hfree
    obtain ⟨hpos, hgap⟩ := isFirstLongestGap_longestRun hfree
    have hmiddle := hgap.middle_eq hpos hoccupied
    have hfits := hgap.le_size
    refine ⟨_, _, hpos, hgap, hmiddle, by omega, fun i hlow hhigh => ?_⟩
    exact hgap.isFree_behind_middle (by omega) (by omega)
  · intro id rules maxPrograms maxNameLength random steps s start length hgap
    have hpos : 0 < s.battle.arena.size :=
      (inOrder_after_start id rules maxPrograms maxNameLength random steps).battle.size_pos
    exact ⟨fun name code hcode => sparesPointers_place hpos hgap name hcode,
      fun name source filter address hcode => sparesPointers_install hpos hgap hcode⟩

theorem Placement.middle_of_first_longest_gap_newcomer :
    let s := (Shard.start 1 .persistent 16 32 (.ofSeed 0)).after [.install "a" "jump 0" none none]
    s.battle.pointers = [640] ∧ [640] ≠ [] ∧ s.battle.arena.size = 1280 ∧ 0 < 1280 ∧
      middleOfLongestGap [640] 1280 = 320 ∧
      (∃ start length, 0 < length ∧ IsFirstLongestGap [640] 1280 start length ∧
        320 = start + length / 2) ∧
      s.SparesPointers (s.install "b" "jump 0" none none).shard := by
  intro s
  have hpointers : s.battle.pointers = [640] := by decide +kernel
  have hsize : s.battle.arena.size = 1280 := by decide +kernel
  have hmiddle : middleOfLongestGap [640] 1280 = 320 := by decide +kernel
  obtain ⟨-, hgap, hspares⟩ :=
    Placement.middle_of_first_longest_gap (List.cons_ne_nil 640 []) (by decide : 0 < 1280)
  obtain ⟨start, length, hpos, hfirst, hstart, -⟩ := hgap ⟨0, by decide, by decide⟩
  rw [hmiddle] at hstart
  refine ⟨hpointers, by decide, hsize, by decide, hmiddle,
    ⟨start, length, hpos, hfirst, hstart⟩, ?_⟩
  refine (hspares 1 .persistent 16 32 (.ofSeed 0) [.install "a" "jump 0" none none] start length
    ?_).2 "b" "jump 0" none none fun a ha => ?_
  · rw [← hpointers, ← hsize] at hfirst
    exact hfirst
  · have hwords : Source.assemble "jump 0" = .ok ⟨[268435456], []⟩ := by decide +kernel
    rw [hwords] at ha
    cases ha
    show 1 ≤ length - length / 2
    omega

end CoreArena
