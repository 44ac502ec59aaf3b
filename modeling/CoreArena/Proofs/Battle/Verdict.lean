import CoreArena.Proofs.Battle.Attribution
import CoreArena.Proofs.Battle.Obituary

/-! # When a tournament is decided

What an advance tells the host of a tournament depends on who lives before it, on whether the
program that executes dies, and on who lives after it: `verdict_after_start`. -/

namespace CoreArena

namespace Battle

open PointerGroup

variable {b : Battle} {index id position : Nat}

/-- The program that executes in an advance has lost its last pointer after it. -/
def PlayerDies (b : Battle) : Prop :=
  ∃ id position, b.executing? = some (id, position) ∧ (id, true) ∈ b.advance.battle.roll

/-- Nobody lives but the program at the place of a survivor, which has its number and its name. -/
structure IsSurvivor (b : Battle) (s : Survivor) : Prop where
  alone : ∀ i, b.livesAt i = true ↔ i = s.index
  group : ∃ g, b.groups[s.index]? = some g ∧ g.id = s.id
  program : ∃ w, b.warriors[s.index]? = some w ∧ w.program.id = s.id ∧ w.program.name = s.name

/-! ## The places of the living -/

theorem lt_of_livesAt {i : Nat} (h : b.livesAt i = true) : i < b.groups.length := by
  by_contra hge
  rw [livesAt, List.getElem?_eq_none (Nat.le_of_not_lt hge)] at h
  cases h

theorem mem_living {i : Nat} : i ∈ b.living ↔ b.livesAt i = true := by
  simp only [living, List.mem_filter, List.mem_range]
  exact and_iff_right_of_imp lt_of_livesAt

theorem nodup_living (b : Battle) : b.living.Nodup :=
  List.nodup_range.filter _

theorem living_eq_nil_iff : b.living = [] ↔ ∀ i, b.livesAt i = false := by
  simp [List.eq_nil_iff_forall_not_mem, mem_living]

theorem living_eq_singleton_iff : b.living = [index] ↔ ∀ i, b.livesAt i = true ↔ i = index := by
  rw [← List.perm_singleton, List.perm_ext_iff_of_nodup b.nodup_living (List.nodup_singleton _)]
  simp [mem_living]

theorem countP_range_getElem? {α : Type} (l : List α) (p : α → Bool) :
    (List.range l.length).countP (fun i => l[i]?.any p) = l.countP p := by
  induction l with
  | nil => rfl
  | cons x l ih =>
      rw [List.length_cons, List.range_succ_eq_map, List.countP_cons, List.countP_map,
        List.countP_cons, ← ih]
      rfl

/-- The living have as many places as turns. -/
theorem length_living (b : Battle) : b.living.length = b.order.length := by
  rw [length_order, living, ← List.countP_eq_length_filter]
  exact countP_range_getElem? b.groups _

/-! ## The outcome after a death -/

theorem result_bury (htournament : b.rules.runForever = false) (reason : Reason) :
    (b.bury index id position reason).result =
      (b.bury index id position reason).battle.outcomeAmong?
        (b.bury index id position reason).battle.living := by
  unfold bury
  rw [htournament]
  dsimp only
  cases houtcome : b.outcomeAmong? b.living with
  | none => exact houtcome.symm
  | some outcome => exact houtcome.symm

theorem outcomeAmong?_ne_nothingToRun (indices : List Nat) :
    b.outcomeAmong? indices ≠ some .nothingToRun := by
  rcases indices with - | ⟨i, - | ⟨j, others⟩⟩ <;> simp [outcomeAmong?]

/-- A tournament is undecided while two programs live. -/
theorem outcomeAmong?_eq_none_iff :
    b.outcomeAmong? b.living = none ↔ ∃ i j, i ≠ j ∧ b.livesAt i = true ∧ b.livesAt j = true := by
  simp only [← mem_living]
  have hnodup := b.nodup_living
  cases hliving : b.living with
  | nil => simp [outcomeAmong?]
  | cons i others =>
      cases others with
      | nil =>
          simp only [outcomeAmong?, reduceCtorEq, List.mem_singleton, false_iff]
          rintro ⟨j, k, hne, rfl, rfl⟩
          exact hne rfl
      | cons j others =>
          have hne : i ≠ j := by
            rintro rfl
            rw [hliving, List.nodup_cons] at hnodup
            exact hnodup.1 List.mem_cons_self
          simp only [outcomeAmong?, true_iff]
          exact ⟨i, j, hne, by simp, by simp⟩

section Roster

variable (h : b.Roster)

include h

theorem exists_warrior_of_livesAt (hlives : b.livesAt index = true) :
    ∃ w g, b.warriors[index]? = some w ∧ b.groups[index]? = some g ∧ g.id = w.program.id := by
  have hget := List.getElem?_eq_getElem (lt_of_livesAt hlives)
  obtain ⟨w, hw, hid⟩ := h.exists_warrior hget
  exact ⟨w, _, hw, hget, hid.symm⟩

theorem outcomeAmong?_singleton (hliving : b.living = [index]) :
    ∃ s, b.outcomeAmong? b.living = some (.decided (some s)) ∧ b.IsSurvivor s := by
  have halone := living_eq_singleton_iff.mp hliving
  obtain ⟨w, g, hw, hg, hid⟩ := exists_warrior_of_livesAt h ((halone index).mpr rfl)
  refine ⟨⟨index, w.program.id, w.program.name⟩, ?_, halone, ⟨g, hg, hid⟩, w, hw, rfl, rfl⟩
  rw [hliving, outcomeAmong?, hw]
  rfl

theorem outcomeAmong?_eq_nobody_iff :
    b.outcomeAmong? b.living = some (.decided none) ↔ ∀ i, b.livesAt i = false := by
  rw [← living_eq_nil_iff]
  cases hliving : b.living with
  | nil => simp [outcomeAmong?]
  | cons i others =>
      cases others with
      | nil =>
          obtain ⟨s, houtcome, -⟩ := outcomeAmong?_singleton h hliving
          rw [hliving] at houtcome
          simp [houtcome]
      | cons j others => simp [outcomeAmong?]

theorem outcomeAmong?_eq_survivor_iff {s : Survivor} :
    b.outcomeAmong? b.living = some (.decided (some s)) ↔ b.IsSurvivor s := by
  constructor
  · intro houtcome
    cases hliving : b.living with
    | nil =>
        rw [hliving] at houtcome
        cases houtcome
    | cons i others =>
        cases others with
        | nil =>
            obtain ⟨t, houtcome', ht⟩ := outcomeAmong?_singleton h hliving
            rw [houtcome'] at houtcome
            cases houtcome
            exact ht
        | cons j others =>
            rw [hliving] at houtcome
            cases houtcome
  · rintro ⟨halone, -, w, hw, hid, hname⟩
    rw [living_eq_singleton_iff.mpr halone, outcomeAmong?, hw, Option.map_some, hid, hname]

end Roster

/-! ## Advances of a tournament -/

/-- What an advance of a tournament tells, and what it leaves behind. -/
inductive Verdict (b : Battle) : Option Outcome → Battle → Prop where
  | idle (hover : b.isOver = true) (hplayer : ¬ b.PlayerDies) : Verdict b (some .nothingToRun) b
  | unharmed {c : Battle} (hover : b.isOver = false) (hplayer : ¬ b.PlayerDies) : Verdict b none c
  | fallen {c : Battle} (hover : b.isOver = false) (hplayer : b.PlayerDies) (hroster : c.Roster)
      (hfewer : c.order.length + 1 = b.order.length) : Verdict b (c.outcomeAmong? c.living) c

theorem IsPlayer.playerDies_iff (h : b.IsPlayer index id position) :
    b.PlayerDies ↔ (id, true) ∈ b.advance.battle.roll := by
  simp [PlayerDies, h.executing]

theorem IsPlayer.isOver_eq_false (h : b.IsPlayer index id position) : b.isOver = false := by
  cases hover : b.isOver with
  | false => rfl
  | true =>
      have hexecuting := h.executing
      rw [executing?, if_pos hover] at hexecuting
      cases hexecuting

/-- Whoever executes is alive before. -/
theorem IsPlayer.not_mem_roll (h : b.IsPlayer index id position) (hroster : b.Roster) :
    (id, true) ∉ b.roll := by
  obtain ⟨front, back, hgroups, -, -⟩ := h.exists_split
  have hnodup := hroster.ids_nodup
  rw [← ids, ← map_fst_roll, roll_of_split hgroups] at hnodup
  have hother := RollCall.not_mem_of_nodup hnodup true
  rw [roll_of_split hgroups]
  simpa [PointerGroup.isDead] using hother

theorem Invariant.verdict (h : b.Invariant) (htournament : b.rules.runForever = false) :
    b.Verdict b.advance.result b.advance.battle := by
  have hroster : b.advance.battle.Roster := (h.next .advance).toRoster
  have hadvance := h.advance
  generalize ha : b.advance = a at hadvance hroster ⊢
  cases hadvance with
  | idle hover =>
      rw [htournament]
      refine .idle hover ?_
      rintro ⟨id, position, hexecuting, -⟩
      rw [executing?, if_pos hover] at hexecuting
      cases hexecuting
  | @moved index id position next track hplayer =>
      refine .unharmed hplayer.isOver_eq_false ?_
      rw [hplayer.playerDies_iff, ha]
      show (id, true) ∉ (b.groups.set index ⟨id, [next], 0⟩).map fun g => (g.id, g.isDead)
      rw [hplayer.roll_set]
      exact hplayer.not_mem_roll h.toRoster
  | @died index id position reason track hplayer =>
      have hfallen : (b.fallen index id track.arena).rules.runForever = false := htournament
      rw [result_bury hfallen]
      refine .fallen hplayer.isOver_eq_false ?_ hroster (length_order_died hplayer reason)
      rw [hplayer.playerDies_iff, ha, roll, groups_bury, hfallen, if_neg Bool.false_ne_true]
      exact List.mem_map_of_mem (List.mem_of_getElem? (hplayer.getElem?_fallen track.arena))

/-- Each thing that an advance can tell has its own occasion. -/
theorem Verdict.iffs {outcome : Option Outcome} {c : Battle} (h : b.Verdict outcome c) :
    (outcome = some .nothingToRun ↔ ∀ g ∈ b.groups, g.isDead = true) ∧
      (∀ s, outcome = some (.decided (some s)) ↔ b.PlayerDies ∧ c.IsSurvivor s) ∧
      (outcome = some (.decided none) ↔ b.PlayerDies ∧ ∀ i, c.livesAt i = false) ∧
      (outcome = none ↔ (∃ g ∈ b.groups, g.isDead = false) ∧
        (b.PlayerDies → ∃ i j, i ≠ j ∧ c.livesAt i = true ∧ c.livesAt j = true)) := by
  rw [← isOver_iff, ← isOver_eq_false_iff]
  cases h with
  | idle hover hplayer => simp [hover, hplayer]
  | unharmed hover hplayer => simp [hover, hplayer]
  | fallen hover hplayer hroster =>
      simp [hover, hplayer, outcomeAmong?_ne_nothingToRun,
        outcomeAmong?_eq_survivor_iff hroster, outcomeAmong?_eq_nobody_iff hroster,
        outcomeAmong?_eq_none_iff]

/-! ## Runs -/

/-- Whether a host is told of a last survivor. -/
def Reply.isWin (r : Reply) : Bool :=
  match r.answer with
  | .advanced (some (.decided (some _))) => true
  | _ => false

theorem exists_survivor_of_isWin {s : Step} {events : List Event}
    (hwin : Reply.isWin ⟨b.answer s, events⟩ = true) :
    s = .advance ∧ ∃ t, b.advance.result = some (.decided (some t)) := by
  unfold Reply.isWin at hwin
  dsimp only at hwin
  split at hwin
  · rename_i t hanswer
    cases s with
    | advance => exact ⟨rfl, t, Answer.advanced.inj hanswer⟩
    | install p address =>
        rw [answer] at hanswer
        split at hanswer <;> cases hanswer
    | kill | killById | poke => cases hanswer
  · cases hwin

/-- A last survivor has just been left alone by the other one that lived. -/
theorem Invariant.length_order_of_isWin (h : b.Invariant)
    (htournament : b.rules.runForever = false) {s : Step} {events : List Event}
    (hwin : Reply.isWin ⟨b.answer s, events⟩ = true) :
    b.order.length = 2 ∧ (b.next s).order.length = 1 := by
  obtain ⟨rfl, t, hresult⟩ := exists_survivor_of_isWin hwin
  show b.order.length = 2 ∧ b.advance.battle.order.length = 1
  have hverdict := h.verdict htournament
  rw [hresult] at hverdict
  generalize b.advance.battle = c, houtcome : some (Outcome.decided (some t)) = outcome
    at hverdict ⊢
  cases hverdict with
  | idle | unharmed => cases houtcome
  | fallen _ _ hroster hfewer =>
      have hsurvivor := (outcomeAmong?_eq_survivor_iff hroster).mp houtcome.symm
      have halone : c.order.length = 1 := by
        rw [← length_living, living_eq_singleton_iff.mpr hsurvivor.alone]
        rfl
      omega

/-- Once a single program is left at most, nobody is told of a last survivor any more. -/
theorem Invariant.countP_isWin_eq_zero (h : b.Invariant) (htournament : b.rules.runForever = false)
    {steps : List Step} (hsteps : ∀ s ∈ steps, s.isInstall = false) (hfew : b.order.length ≤ 1) :
    (b.replies steps).countP Reply.isWin = 0 := by
  induction steps generalizing b with
  | nil => rfl
  | cons s steps ih =>
      obtain ⟨hs, hsteps⟩ := List.forall_mem_cons.mp hsteps
      have hnone : ¬ Reply.isWin ⟨b.answer s, b.reports s⟩ = true := by
        intro hwin
        have htwo := (h.length_order_of_isWin htournament hwin).1
        omega
      rw [replies, List.countP_cons_of_neg hnone]
      refine ih (h.next s) ?_ hsteps ((h.length_order_next hs).trans hfew)
      rw [h.rules_next s, htournament]

theorem Invariant.countP_isWin_le_one (h : b.Invariant) (htournament : b.rules.runForever = false)
    {steps : List Step} (hsteps : ∀ s ∈ steps, s.isInstall = false) :
    (b.replies steps).countP Reply.isWin ≤ 1 := by
  induction steps generalizing b with
  | nil => exact Nat.zero_le 1
  | cons s steps ih =>
      obtain ⟨hs, hsteps⟩ := List.forall_mem_cons.mp hsteps
      have htournament' : (b.next s).rules.runForever = false := by
        rw [h.rules_next s, htournament]
      rw [replies]
      by_cases hwin : Reply.isWin ⟨b.answer s, b.reports s⟩ = true
      · have hone := (h.length_order_of_isWin htournament hwin).2
        rw [List.countP_cons_of_pos hwin, (h.next s).countP_isWin_eq_zero htournament' hsteps
          (Nat.le_of_eq hone)]
      · rw [List.countP_cons_of_neg hwin]
        exact ih (h.next s) htournament' hsteps

end Battle

namespace Chronicle

open Battle

variable {c : Chronicle} {x : Instance}

/-- Whoever has no turn left does not play. -/
theorem Sound.not_mem_plays_of_lies (h : c.Sound) (hlies : c.Lies x) (steps : List Step) :
    x ∉ c.plays steps := by
  have hbirth := h.birth_lt_of_lies hlies
  have hlives := h.not_lives_of_lies hlies
  clear hlies
  induction steps generalizing c with
  | nil => exact List.not_mem_nil
  | cons s steps ih =>
      rw [plays_cons, List.mem_append, Option.mem_toList]
      rintro (hplays | hplays)
      · have hpassage := h.passage_next s
        rw [show c.playing? s = some x from hplays] at hpassage
        obtain ⟨others, horder⟩ := hpassage.head
        exact hlives (mem_order.mp (by rw [horder]; exact List.mem_cons_self))
      · refine ih (h.next s) (Nat.lt_succ_of_lt hbirth) ?_ hplays
        exact fun hnext => hlives (h.lives_of_lives_after [s] hnext hbirth)

theorem battle_after (c : Chronicle) (steps : List Step) :
    (c.after steps).battle = c.battle.after steps := by
  induction steps generalizing c with
  | nil => rfl
  | cons s steps ih => exact ih (c.next s)

/-- In a tournament, an advance finds nothing to run just when everybody is dead. It tells a last
survivor, or that there is none, just when the program that executes dies and leaves one program or
nobody alive, and it tells nothing otherwise. The dead never execute again. Without installations a
last survivor is told of at most once. -/
theorem verdict_after_start (r : Rules) (htournament : r.runForever = false) (steps : List Step) :
    let c := (start r).after steps
    let b := c.battle
    (b.advance.result = some .nothingToRun ↔ ∀ g ∈ b.groups, g.isDead = true) ∧
      (∀ s, b.advance.result = some (.decided (some s)) ↔
        b.PlayerDies ∧ b.advance.battle.IsSurvivor s) ∧
      (b.advance.result = some (.decided none) ↔
        b.PlayerDies ∧ ∀ i, b.advance.battle.livesAt i = false) ∧
      (b.advance.result = none ↔ (∃ g ∈ b.groups, g.isDead = false) ∧
        (b.PlayerDies → ∃ i j, i ≠ j ∧ b.advance.battle.livesAt i = true ∧
          b.advance.battle.livesAt j = true)) ∧
      (∀ x, c.Lies x → ∀ more, x ∉ c.plays more) ∧
      ∀ more, (∀ s ∈ more, s.isInstall = false) → (b.replies more).countP Reply.isWin ≤ 1 := by
  intro c b
  have h : c.Sound := (sound_start r).after steps
  have hrules : b.rules.runForever = false := by
    rw [show b = (Battle.start r).after steps from battle_after _ steps,
      (invariant_start r).rules_after steps]
    exact htournament
  obtain ⟨hnothing, hsurvivor, hnobody, hundecided⟩ := (h.battle.verdict hrules).iffs
  exact ⟨hnothing, hsurvivor, hnobody, hundecided, fun x => h.not_mem_plays_of_lies,
    fun more hmore => h.battle.countP_isWin_le_one hrules hmore⟩

/-- The first of two programs is about to execute data. -/
def duel : List Step :=
  [.install ⟨1, "fodder", [0]⟩ 0, .install (trapper 2) 50]

theorem verdict_after_start_duel :
    Rules.tournament.runForever = false ∧
      ((start .tournament).after duel).battle.advance.result =
        some (.decided (some ⟨1, 2, "trapper"⟩)) ∧
      ((start .tournament).after duel).battle.advance.battle.IsSurvivor ⟨1, 2, "trapper"⟩ := by
  have hresult : ((start .tournament).after duel).battle.advance.result =
      some (.decided (some ⟨1, 2, "trapper"⟩)) := by
    decide +kernel
  obtain ⟨-, hsurvivor, -⟩ := verdict_after_start .tournament rfl duel
  exact ⟨rfl, hresult, ((hsurvivor _).mp hresult).2⟩

end Chronicle

end CoreArena
