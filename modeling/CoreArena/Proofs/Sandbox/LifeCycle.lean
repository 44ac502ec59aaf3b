import CoreArena.Proofs.Battle.Attribution
import CoreArena.Proofs.Battle.Change
import CoreArena.Proofs.Source.Reading
import CoreArena.Sandbox

/-! # The life of a sandbox

A program that gets into a sandbox is alone there, so that its battle goes on until the program dies
and never again: `Follows.advance`. The state of the sandbox says no more than how many programs are
left, and its dump tells the operation and the owner of each cell: `life_of_sandbox`. -/

namespace CoreArena

namespace Battle

/-! ## A program alone -/

/-- A battle with one program, whose only pointer is at a cell. -/
structure Alone (b : Battle) (w : Warrior) (position : Nat) : Prop where
  warriors_eq : b.warriors = [w]
  groups_eq : b.groups = [⟨w.id, [position], 0⟩]

/-- A battle without programs. -/
structure Deserted (b : Battle) : Prop where
  warriors_eq : b.warriors = []
  groups_eq : b.groups = []

variable {b : Battle} {w : Warrior} {position : Nat}

theorem Deserted.battle_advance (h : b.Deserted) : b.advance.battle = b := by
  have hover : b.isOver = true := b.isOver_iff.mpr (by simp [h.groups_eq])
  rw [Battle.advance, if_pos hover]

theorem Alone.eq_of_isPlayer (h : b.Alone w position) {index id position' : Nat}
    (hplayer : b.IsPlayer index id position') : index = 0 ∧ id = w.id := by
  have hget := hplayer.group
  rw [h.groups_eq] at hget
  obtain ⟨hindex, hgroup⟩ := List.getElem?_eq_some_iff.mp hget
  obtain rfl : index = 0 := Nat.lt_one_iff.mp hindex
  cases hgroup
  exact ⟨rfl, rfl⟩

/-- A program that is alone in a persistent battle goes on alone, or it dies and leaves nobody. -/
theorem Invariant.advance_of_alone (h : b.Invariant) (hforever : b.rules.runForever = true)
    (halone : b.Alone w position) :
    (∃ next, b.advance.battle.Alone w next) ∨ b.advance.battle.Deserted := by
  have hadvance := h.advance
  generalize b.advance = a at hadvance ⊢
  cases hadvance with
  | idle hover =>
      have hdead := b.isOver_iff.mp hover ⟨w.id, [position], 0⟩ (by simp [halone.groups_eq])
      cases hdead
  | @moved index id position' next track hplayer hrun =>
      obtain ⟨rfl, rfl⟩ := halone.eq_of_isPlayer hplayer
      refine .inl ⟨next, halone.warriors_eq, ?_⟩
      rw [groups_passTurn, halone.groups_eq, List.set_cons_zero]
  | @died index id position' reason track hplayer hrun =>
      obtain ⟨rfl, rfl⟩ := halone.eq_of_isPlayer hplayer
      refine .inr ?_
      rw [battle_bury, if_pos (show (b.fallen 0 w.id track.arena).rules.runForever = true from
        hforever)]
      constructor
      · rw [warriors_keepTurn, warriors_removeAt, fallen, halone.warriors_eq]
        rfl
      · rw [groups_keepTurn, groups_removeAt, fallen, halone.groups_eq]
        rfl

end Battle

namespace Sandbox

open Battle

variable {s : Sandbox} {name source : String} {words : List Word} {n : Nat}

/-! ## Getting in -/

/-- What keeps a program out of a sandbox. -/
def refusal? (source : String) : Option SandboxError :=
  match Source.assemble source with
  | .error cause => some (.assembly cause)
  | .ok p =>
    if p.words = [] then some (.install .emptyProgram)
    else if p.words.length > 96 then some (.install (.programTooLarge p.words.length 96))
    else none

/-- A new battle with a program in the middle of the arena, after so many advances. -/
def battleAfter (name : String) (words : List Word) (n : Nat) : Battle :=
  (Battle.start rules).after (.install ⟨1, name, words⟩ 48 :: List.replicate n .advance)

/-- The program of a sandbox in its place. -/
def resident (name : String) (words : List Word) : Warrior :=
  ⟨⟨1, name, words⟩, ⟨48, words.length⟩⟩

theorem size_start_rules : (Battle.start rules).arena.size = 96 :=
  size_start rules

theorem battleAfter_succ (name : String) (words : List Word) (n : Nat) :
    battleAfter name words (n + 1) = (battleAfter name words n).advance.battle := by
  rw [battleAfter, battleAfter, List.replicate_succ', ← List.cons_append, after_append]
  rfl

theorem refusal?_eq_none_iff :
    refusal? source = none ↔
      ∃ p, Source.assemble source = .ok p ∧ p.words ≠ [] ∧ p.words.length ≤ 96 := by
  unfold refusal?
  cases Source.assemble source with
  | error cause => simp
  | ok p =>
      by_cases hwords : p.words = []
      · simp [hwords]
      · simp [hwords]

/-- A program that is kept out leaves the arena as it was. -/
theorem start_of_refusal {cause : SandboxError} (h : refusal? source = some cause) (name : String) :
    start name source = ⟨Battle.start rules, .invalid cause, some cause⟩ := by
  unfold refusal? at h
  unfold start
  cases hsource : Source.assemble source with
  | error e =>
      rw [hsource] at h
      cases h
      rfl
  | ok p =>
      rw [hsource] at h
      dsimp only at h ⊢
      split at h
      · rename_i hwords
        cases h
        rw [install, if_pos hwords]
      · rename_i hwords
        split at h
        · rename_i hlength
          cases h
          rw [install, if_neg hwords, if_pos (by rwa [size_start_rules]), size_start_rules]
        · cases h

/-- A program of the right length gets in and is alone. -/
theorem alone_of_length (hwords : words ≠ []) (hlength : words.length ≤ 96) (name : String) :
    (Battle.start rules).install ⟨1, name, words⟩ 48 = .ok (battleAfter name words 0) ∧
      (battleAfter name words 0).Alone (resident name words) 48 := by
  have hlocate : (Battle.start rules).arena.locate 48 = 48 :=
    Arena.locate_of_lt (by rw [size_start_rules]; decide)
  have hinstall : (Battle.start rules).install ⟨1, name, words⟩ 48 = .ok _ :=
    install_eq_ok_iff.mpr ⟨hwords, by rwa [size_start_rules], Nat.one_ne_zero, rfl, rfl⟩
  rw [hlocate] at hinstall
  have hbattle : battleAfter name words 0 =
      (Battle.start rules).next (.install ⟨1, name, words⟩ 48) := rfl
  rw [hbattle, next, hinstall]
  exact ⟨rfl, rfl, rfl⟩

theorem start_of_length {p : Source.Assembled} (hsource : Source.assemble source = .ok p)
    (hwords : p.words ≠ []) (hlength : p.words.length ≤ 96) (name : String) :
    start name source = ⟨battleAfter name p.words 0, .running, none⟩ := by
  have hinstall : (Battle.start rules).install ⟨programId, name, p.words⟩ position =
      .ok (battleAfter name p.words 0) := (alone_of_length hwords hlength name).1
  unfold start
  rw [hsource]
  dsimp only
  rw [hinstall]

/-! ## Running -/

/-- A sandbox whose program got in and that has advanced so many times. -/
structure Follows (s : Sandbox) (name : String) (words : List Word) (n : Nat) : Prop where
  battle_eq : s.battle = battleAfter name words n
  error_eq : s.error? = none
  phase : s.state = .running ∧ (∃ position, s.battle.Alone (resident name words) position) ∨
    s.state = .halted ∧ s.battle.Deserted

theorem advance_of_state (h : s.state ≠ .running) : s.advance = s := by
  unfold advance
  split
  · exact absurd ‹_› h
  · rfl

theorem invariant_battleAfter (name : String) (words : List Word) (n : Nat) :
    (battleAfter name words n).Invariant :=
  invariant_after_start ..

theorem rules_battleAfter (name : String) (words : List Word) (n : Nat) :
    (battleAfter name words n).rules = rules :=
  rules_after_start ..

namespace Follows

/-- A sandbox advances with its battle, and halts when nobody is left in it. -/
theorem advance (h : s.Follows name words n) : s.advance.Follows name words (n + 1) := by
  have hbattle : s.battle.advance.battle = battleAfter name words (n + 1) := by
    rw [h.battle_eq, battleAfter_succ]
  rcases h.phase with ⟨hstate, position, halone⟩ | ⟨hstate, hdeserted⟩
  · have hnext := Invariant.advance_of_alone (h.battle_eq ▸ invariant_battleAfter name words n)
      (by rw [h.battle_eq, rules_battleAfter]; rfl) halone
    unfold Sandbox.advance
    rw [hstate]
    dsimp only
    refine ⟨hbattle, h.error_eq, ?_⟩
    rcases hnext with ⟨next, halone⟩ | hdeserted
    · rw [halone.warriors_eq]
      exact .inl ⟨rfl, next, halone⟩
    · rw [hdeserted.warriors_eq]
      exact .inr ⟨rfl, hdeserted⟩
  · have hhalted : s.state ≠ .running := by simp [hstate]
    rw [advance_of_state hhalted]
    refine ⟨?_, h.error_eq, h.phase⟩
    rw [← hbattle, hdeserted.battle_advance]

theorem state_eq_running_iff (h : s.Follows name words n) :
    s.state = .running ↔ s.battle.warriors.length = 1 := by
  rcases h.phase with ⟨hstate, position, halone⟩ | ⟨hstate, hdeserted⟩
  · simp [hstate, halone.warriors_eq]
  · simp [hstate, hdeserted.warriors_eq]

/-- The pointer of a program that is alone is on the ring. -/
theorem exists_alone (h : s.Follows name words n) (hstate : s.state = .running) :
    ∃ position < 96, s.battle.Alone (resident name words) position := by
  rcases h.phase with ⟨-, position, halone⟩ | ⟨hhalted, -⟩
  · have hsize : (battleAfter name words n).arena.size = 96 := size_after_start rules _
    have hpointer := (invariant_battleAfter name words n).pointer_lt ⟨1, [position], 0⟩
      (by rw [← h.battle_eq, halone.groups_eq]; exact List.mem_singleton_self _) position
      (List.mem_singleton_self position)
    exact ⟨position, hsize ▸ hpointer, halone⟩
  · rw [hstate] at hhalted
    cases hhalted

theorem state_eq_halted_iff (h : s.Follows name words n) :
    s.state = .halted ↔ s.battle.Deserted := by
  rcases h.phase with ⟨hstate, position, halone⟩ | ⟨hstate, hdeserted⟩
  · refine iff_of_false (by simp [hstate]) fun hdeserted => ?_
    cases hdeserted.warriors_eq.symm.trans halone.warriors_eq
  · exact iff_of_true hstate hdeserted

end Follows

theorem follows_iterate {p : Source.Assembled} (hsource : Source.assemble source = .ok p)
    (hwords : p.words ≠ []) (hlength : p.words.length ≤ 96) (name : String) (n : Nat) :
    (Sandbox.advance^[n] (start name source)).Follows name p.words n := by
  induction n with
  | zero =>
      rw [Function.iterate_zero, id, start_of_length hsource hwords hlength]
      exact ⟨rfl, rfl, .inl ⟨rfl, 48, (alone_of_length hwords hlength name).2⟩⟩
  | succ n ih =>
      rw [Function.iterate_succ_apply']
      exact ih.advance

theorem iterate_of_refusal {cause : SandboxError} (h : refusal? source = some cause) (name : String)
    (n : Nat) :
    Sandbox.advance^[n] (start name source) =
      ⟨Battle.start rules, .invalid cause, some cause⟩ := by
  have hstate : SandboxState.invalid cause ≠ .running := nofun
  rw [start_of_refusal h]
  exact Function.iterate_fixed (advance_of_state hstate) n

/-! ## Dumps -/

/-- The operation number of a cell, zero for an unassigned one. -/
def dumpNumber (c : Cell) : Nat :=
  let operation := (Instruction.decode c.value).operation
  if operation = .invalid then 0 else operation.number

theorem dumpNumber_lt (c : Cell) : dumpNumber c < 16 := by
  unfold dumpNumber
  dsimp only
  split
  · decide
  · exact Operation.number_lt _

/-- A dumped byte tells the operation in its low half and the owner in its high one. -/
theorem toNat_dumpCell {c : Cell} (h : c.owner < 16) :
    (dumpCell c).toNat % 16 = dumpNumber c ∧ (dumpCell c).toNat / 16 = c.owner := by
  have hnumber := dumpNumber_lt c
  have hbyte : dumpCell c = UInt8.ofNat (dumpNumber c + c.owner % 16 * 16) := rfl
  rw [hbyte, UInt8.toNat_ofNat']
  omega

theorem length_dump (s : Sandbox) : s.dump.length = s.battle.arena.size := by
  simp [dump, Arena.size]

theorem getElem?_dump (s : Sandbox) {i : Nat} (h : i < s.battle.arena.size) :
    s.dump[i]? = some (dumpCell (s.battle.arena.cell i)) := by
  have hi : i < s.battle.arena.cells.size := h
  simp [dump, Arena.cell, hi]

/-- The arena of a sandbox has 96 cells, each of which belongs to the program or to nobody. -/
structure Sound (s : Sandbox) : Prop where
  size_eq : s.battle.arena.size = 96
  owner_le : ∀ i, (s.battle.arena.cell i).owner ≤ 1
  owner_eq_zero : s.state ≠ .running → ∀ i, (s.battle.arena.cell i).owner = 0

/-- Cells belong to programs of the battle, so to nobody once there are none. -/
theorem Follows.sound (h : s.Follows name words n) : s.Sound := by
  have howner : s.battle.Attributed := by
    rw [h.battle_eq]
    exact attributed_after_start rules rfl _
  have hdeserted (hnobody : s.battle.Deserted) (i : Nat) : (s.battle.arena.cell i).owner = 0 := by
    by_contra hsome
    have hmem := howner i hsome
    rw [ids, hnobody.groups_eq] at hmem
    cases hmem
  refine ⟨?_, fun i => ?_, fun hstate => ?_⟩
  · rw [h.battle_eq]
    exact size_after_start rules _
  · rcases h.phase with ⟨-, position, halone⟩ | ⟨-, hnobody⟩
    · by_cases hsome : (s.battle.arena.cell i).owner = 0
      · rw [hsome]
        exact Nat.zero_le 1
      · have hmem := howner i hsome
        rw [ids, halone.groups_eq] at hmem
        exact Nat.le_of_eq (List.mem_singleton.mp hmem)
    · rw [hdeserted hnobody i]
      exact Nat.zero_le 1
  · rcases h.phase with ⟨hrunning, -⟩ | ⟨-, hnobody⟩
    · exact absurd hrunning hstate
    · exact hdeserted hnobody

theorem sound_of_refusal (cause : SandboxError) :
    Sound ⟨Battle.start rules, .invalid cause, some cause⟩ where
  size_eq := size_start_rules
  owner_le i := by
    rw [cell_start]
    exact Nat.zero_le 1
  owner_eq_zero _ i := by
    rw [cell_start]
    rfl

theorem sound_iterate (name source : String) (n : Nat) :
    (Sandbox.advance^[n] (start name source)).Sound := by
  cases h : refusal? source with
  | some cause =>
      rw [iterate_of_refusal h]
      exact sound_of_refusal cause
  | none =>
      obtain ⟨p, hsource, hwords, hlength⟩ := refusal?_eq_none_iff.mp h
      exact (follows_iterate hsource hwords hlength name n).sound

theorem Sound.exists_byte (h : s.Sound) {i : Nat} (hi : i < 96) :
    ∃ byte, s.dump[i]? = some byte ∧ byte.toNat % 16 = dumpNumber (s.battle.arena.cell i) ∧
      byte.toNat / 16 = (s.battle.arena.cell i).owner := by
  have howner : (s.battle.arena.cell i).owner < 16 :=
    Nat.lt_of_le_of_lt (h.owner_le i) (by decide)
  exact ⟨_, s.getElem?_dump (by rwa [h.size_eq]), toNat_dumpCell howner⟩

/-! ## Life cycles -/

/-- Whatever happens in a sandbox, it keeps the error that it started with. -/
theorem error?_iterate (name source : String) (n : Nat) :
    (Sandbox.advance^[n] (start name source)).error? = refusal? source := by
  cases h : refusal? source with
  | some cause => rw [iterate_of_refusal h]
  | none =>
      obtain ⟨p, hsource, hwords, hlength⟩ := refusal?_eq_none_iff.mp h
      exact (follows_iterate hsource hwords hlength name n).error_eq

/-- A program that got in does not make its sandbox invalid, and one that did not is all that ever
does. -/
theorem state_iterate_eq_invalid_iff (name source : String) (n : Nat) (cause : SandboxError) :
    (Sandbox.advance^[n] (start name source)).state = .invalid cause ↔
      refusal? source = some cause := by
  cases h : refusal? source with
  | some why =>
      rw [iterate_of_refusal h, SandboxState.invalid.injEq, Option.some.injEq]
  | none =>
      obtain ⟨p, hsource, hwords, hlength⟩ := refusal?_eq_none_iff.mp h
      have hfollows := follows_iterate hsource hwords hlength name n
      rcases hfollows.phase with ⟨hstate, -⟩ | ⟨hstate, -⟩ <;> simp [hstate]

theorem isSome_refusal?_iff :
    (refusal? source).isSome = true ↔
      (∃ cause, Source.assemble source = .error cause) ∨
        ∃ p, Source.assemble source = .ok p ∧ (p.words = [] ∨ 96 < p.words.length) := by
  rw [Option.isSome_iff_ne_none, ne_eq, refusal?_eq_none_iff]
  cases Source.assemble source with
  | error cause => simp
  | ok p =>
      have hlength : ¬ p.words.length ≤ 96 ↔ 96 < p.words.length := Nat.not_le
      simp [imp_iff_not_or]

theorem state_advance (s : Sandbox) :
    s.advance.state = s.state ∨ s.state = .running ∧ s.advance.state = .halted := by
  by_cases hstate : s.state = .running
  · rw [advance, hstate]
    dsimp only
    split
    · exact .inr ⟨rfl, rfl⟩
    · exact .inl rfl
  · rw [advance_of_state hstate]
    exact .inl rfl

/-- A sandbox is invalid for a cause if and only if it keeps that as its error. There is one if and
only if the text does not assemble, or to no words, or to too many for the arena. Otherwise the
battle is that of the program alone. The sandbox runs while there is one program, with one pointer,
and the only change of its state ever is that it halts when there is none. Nothing changes any more
while it does not run. A dump tells the operation and the owner of each cell, and nobody owns a cell
unless the sandbox runs. -/
theorem life_of_sandbox (name source : String) (n : Nat) :
    let s := Sandbox.advance^[n] (start name source)
    (∀ cause, s.state = .invalid cause ↔ s.error? = some cause) ∧
      ((∃ cause, s.state = .invalid cause) ↔ s.error?.isSome = true) ∧
      (s.error?.isSome = true ↔ (∃ cause, Source.assemble source = .error cause) ∨
        ∃ p, Source.assemble source = .ok p ∧ (p.words = [] ∨ 96 < p.words.length)) ∧
      (∀ p, Source.assemble source = .ok p → p.words ≠ [] → p.words.length ≤ 96 →
        s.battle = battleAfter name p.words n ∧
        (s.state = .running ↔ s.battle.warriors.length = 1) ∧
        (s.state = .running →
          ∃ position < 96, s.battle.Alone (resident name p.words) position) ∧
        (s.state = .halted ↔ s.battle.Deserted)) ∧
      (s.advance.state = s.state ∨ s.state = .running ∧ s.advance.state = .halted) ∧
      (s.state ≠ .running → s.advance = s) ∧
      s.dump.length = 96 ∧
      ∀ i < 96, ∃ byte, s.dump[i]? = some byte ∧
        byte.toNat % 16 = dumpNumber (s.battle.arena.cell i) ∧
        byte.toNat / 16 = (s.battle.arena.cell i).owner ∧ (s.battle.arena.cell i).owner ≤ 1 ∧
        (s.state ≠ .running → (s.battle.arena.cell i).owner = 0) := by
  intro s
  have hsound : s.Sound := sound_iterate name source n
  have herror : s.error? = refusal? source := error?_iterate name source n
  have hinvalid (cause : SandboxError) : s.state = .invalid cause ↔ s.error? = some cause := by
    rw [herror]
    exact state_iterate_eq_invalid_iff name source n cause
  refine ⟨hinvalid, ?_, ?_, ?_, state_advance s, advance_of_state, ?_, ?_⟩
  · rw [Option.isSome_iff_exists]
    exact exists_congr hinvalid
  · rw [herror]
    exact isSome_refusal?_iff
  · intro p hsource hwords hlength
    have hfollows : s.Follows name p.words n := follows_iterate hsource hwords hlength name n
    exact ⟨hfollows.battle_eq, hfollows.state_eq_running_iff, hfollows.exists_alone,
      hfollows.state_eq_halted_iff⟩
  · rw [length_dump, hsound.size_eq]
  · intro i hi
    obtain ⟨byte, hget, hlow, hhigh⟩ := hsound.exists_byte hi
    exact ⟨byte, hget, hlow, hhigh, hsound.owner_le i, fun hstate => hsound.owner_eq_zero hstate i⟩

/-- A program that executes its data in its second turn. -/
theorem life_of_sandbox_short :
    ∃ p, Source.assemble "write 5 to 1\ndata 0" = .ok p ∧ p.words ≠ [] ∧ p.words.length ≤ 96 ∧
      (Sandbox.advance^[1] (start "short" "write 5 to 1\ndata 0")).state = .running ∧
      (∃ position < 96, (Sandbox.advance^[1] (start "short" "write 5 to 1\ndata 0")).battle.Alone
        (resident "short" p.words) position) ∧
      (Sandbox.advance^[2] (start "short" "write 5 to 1\ndata 0")).state = .halted ∧
      (Sandbox.advance^[2] (start "short" "write 5 to 1\ndata 0")).battle.Deserted := by
  have hsource : Source.assemble "write 5 to 1\ndata 0" = .ok ⟨[536952833, 0], []⟩ := by
    decide +kernel
  have hrunning :
      (Sandbox.advance^[1] (start "short" "write 5 to 1\ndata 0")).state = .running := by
    decide +kernel
  have hhalted : (Sandbox.advance^[2] (start "short" "write 5 to 1\ndata 0")).state = .halted := by
    decide +kernel
  have hwords : [(536952833 : Word), 0] ≠ [] := by decide
  have hlength : [(536952833 : Word), 0].length ≤ 96 := by decide
  obtain ⟨-, -, -, hfirst, -⟩ := life_of_sandbox "short" "write 5 to 1\ndata 0" 1
  obtain ⟨-, -, -, hsecond, -⟩ := life_of_sandbox "short" "write 5 to 1\ndata 0" 2
  exact ⟨_, hsource, hwords, hlength, hrunning,
    (hfirst _ hsource hwords hlength).2.2.1 hrunning, hhalted,
    (hsecond _ hsource hwords hlength).2.2.2.mp hhalted⟩

end Sandbox

end CoreArena
