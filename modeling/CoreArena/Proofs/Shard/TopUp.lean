import CoreArena.Proofs.Battle.Installation
import CoreArena.Proofs.Shard.Books
import CoreArena.Proofs.World.Bystander

/-! # Top-ups

A shard with a free number and room for the longest bystander always gets the next one, so a top-up
goes on until there are enough or the numbers are used up: `bystanders_topped_up`. -/

namespace CoreArena

/-- A message about something to look into. -/
def Notice.isWarning : Notice → Bool
  | .log entry => entry.level == .warn
  | _ => false

namespace Shard

/-- How many words a bystander may have. -/
def bystanderRoom : Nat := 7

/-- The books are kept and the longest bystander fits in the arena. -/
structure Roomy (rules : Rules) (maxPrograms : Nat) (s : Shard) : Prop
    extends InOrder rules maxPrograms s where
  room : bystanderRoom ≤ s.battle.arena.size

/-- A reply that is good news and leaves the arena as large as it was. -/
structure Welcomes {α : Type} (s : Shard) (reply : ShardReply (Except ShardError α)) : Prop where
  isOk : reply.result.isOk = true
  quiet : ∀ notice ∈ reply.notices, notice.isWarning = false
  size_eq : reply.shard.battle.arena.size = s.battle.arena.size

variable {rules : Rules} {maxPrograms : Nat} {s : Shard}

/-- A program that fits gets in while a number is free. -/
theorem Books.welcomes_place (h : s.Books rules maxPrograms) (name : String) {code : List Word}
    (hfree : s.freeIds ≠ []) (hcode : code ≠ []) (hlength : code.length ≤ s.battle.arena.size) :
    s.Welcomes (s.place name code) := by
  obtain ⟨id, freeIds, heq⟩ := List.exists_cons_of_ne_nil hfree
  have hmem : id ∈ s.freeIds := heq ▸ List.mem_cons_self
  have hsucceeds : ∃ battle, s.battle.install ⟨id, name, code⟩
      (Placement.middleOfLongestGap s.battle.pointers s.battle.arena.size) = .ok battle :=
    Battle.install_succeeds_iff.mpr ⟨hcode, hlength, h.id_ne_zero hmem,
      Battle.indexOf?_isSome_eq_false_iff.mp (h.isSome_indexOf? hmem)⟩
  obtain ⟨battle, hinstall⟩ := hsucceeds
  unfold Shard.place
  rw [heq]
  simp only [hinstall]
  exact ⟨rfl, by simp [Notice.isWarning, Log.info, scoreNotice],
    (Battle.installedAt_of_install h.battle.size_pos hinstall).shape.size_eq⟩

/-- A bystander that gets in is one more. -/
theorem InOrder.length_bystanders_spawn (h : s.InOrder rules maxPrograms)
    (hspawn : s.spawn.result.isOk = true) :
    s.spawn.shard.bystanders.length = s.bystanders.length + 1 := by
  have hspawned := s.spawned_spawn
  generalize s.spawn = reply at hspawned hspawn ⊢
  cases hspawned with
  | misread | refused => cases hspawn
  | @added random name code id position drawn notices hdrawn hplace =>
      have hstart : drawn.Books rules maxPrograms := by
        rw [hdrawn]
        exact h.toBooks.congr rfl rfl rfl rfl
      obtain ⟨-, hbystanders, hfree⟩ := place_of_ok hplace
      have hnew : id ∉ drawn.bystanders :=
        fun hmem => hstart.not_mem_ids hfree (hstart.bystanders_subset hmem)
      rw [hbystanders, length_insertAscending hnew, hdrawn]

theorem wantsBystander_eq_false_iff (h : s.Books rules maxPrograms) :
    s.wantsBystander = false ↔ rules.bystanderCount ≤ s.bystanders.length ∨ s.freeIds = [] := by
  rw [wantsBystander, h.rules_eq]
  simp [Decidable.imp_iff_not_or, or_comm]

namespace Roomy

/-- While a number is free, the next bystander gets in. -/
theorem welcomes_spawn (h : s.Roomy rules maxPrograms) (hfree : s.freeIds ≠ []) :
    s.Welcomes s.spawn := by
  obtain ⟨a, ha, hadmissible⟩ := Bystander.always_generate true s.random
  replace ha : Source.assemble ((Bystander.generate true).run s.random).1 = .ok a := ha
  unfold spawn
  generalize (Bystander.generate true).run s.random = drawn at ha
  obtain ⟨source, random⟩ := drawn
  simp only [ha]
  have hwords : a.words ≠ [] := List.length_pos_iff.mp hadmissible.length_pos
  have hplaced := Books.welcomes_place (s := { s with random, spawned := s.spawned + 1 })
    (h.toBooks.congr rfl rfl rfl rfl) s!"BYSTANDER_{s.spawned + 1}" hfree hwords
    (hadmissible.length_le.trans h.room)
  generalize Shard.place _ _ a.words = reply at hplaced ⊢
  obtain ⟨result, t, notices⟩ := reply
  cases result with
  | error cause => cases hplaced.isOk
  | ok placed => exact ⟨rfl, hplaced.quiet, hplaced.size_eq⟩

theorem spawn (h : s.Roomy rules maxPrograms) (hwants : s.wantsBystander = true)
    (hsize : s.spawn.shard.battle.arena.size = s.battle.arena.size) :
    s.spawn.shard.Roomy rules maxPrograms where
  toInOrder := h.toInOrder.spawn hwants
  room := hsize ▸ h.room

/-- What a top-up that tries so often comes to. -/
theorem topUp (h : s.Roomy rules maxPrograms) (missing : Nat) :
    (∀ attempt ∈ s.spawns missing, attempt.isOk = true) ∧
      (∀ notice ∈ (s.topUp missing).notices, notice.isWarning = false) ∧
      (rules.bystanderCount ≤ s.bystanders.length + missing →
        rules.bystanderCount ≤ (s.topUp missing).shard.bystanders.length ∨
          (s.topUp missing).shard.freeIds = []) := by
  induction missing generalizing s with
  | zero => exact ⟨by simp [spawns], by simp [Shard.topUp], fun henough => .inl henough⟩
  | succ missing ih =>
      unfold spawns Shard.topUp
      cases hwants : s.wantsBystander with
      | false =>
          rw [if_neg Bool.false_ne_true, if_neg Bool.false_ne_true]
          exact ⟨by simp, by simp, fun _ => (wantsBystander_eq_false_iff h.toBooks).mp hwants⟩
      | true =>
          rw [if_pos rfl, if_pos rfl]
          have hfree : s.freeIds ≠ [] := by
            rintro hnone
            simp [wantsBystander, hnone] at hwants
          have hspawned := h.welcomes_spawn hfree
          obtain ⟨hattempts, hquiet, hcount⟩ := ih (h.spawn hwants hspawned.size_eq)
          have hlength := h.toInOrder.length_bystanders_spawn hspawned.isOk
          cases hresult : s.spawn.result with
          | error cause =>
              have hok := hspawned.isOk
              rw [hresult] at hok
              cases hok
          | ok id =>
              simp only [hresult]
              refine ⟨List.forall_mem_cons.mpr ⟨rfl, hattempts⟩,
                List.forall_mem_append.mpr ⟨hspawned.quiet, hquiet⟩, fun henough => hcount ?_⟩
              omega

end Roomy

/-- Whatever is drawn, the text of a bystander assembles to one to seven words, none of them data
unless the bystander may be suicidal, and passes the content filter: the loop of a bomber ends by
itself after four lines. So in every shard with room for seven words each attempt of a top-up
succeeds, nothing is warned of, and in the end there are enough bystanders or no number is left. -/
theorem bystanders_topped_up :
    (∀ (γ : Type) [RandomSource γ] (allowSuicidal : Bool) (g : γ),
      ∃ a, Source.assemble (Bystander.generate allowSuicidal g).1 = .ok a ∧
        1 ≤ a.words.length ∧ a.words.length ≤ 7 ∧
        (allowSuicidal = false → ∀ w ∈ a.words, (Instruction.decode w).operation ≠ .data) ∧
        Admission.verdict? a.bytecode = none) ∧
      (∀ (γ : Type) [RandomSource γ] (tries : Nat), 4 < tries →
        Bystander.scatterAbove 0 tries = Bystander.scatter (γ := γ) 4) ∧
      ∀ (id : Nat) (rules : Rules) (maxPrograms maxNameLength : Nat) (random : Xoshiro)
        (steps : List Step),
        let s := (start id rules maxPrograms maxNameLength random).after steps
        ∀ t, t = s ∨ t = s.playIfDue.shard → 7 ≤ t.battle.arena.size →
          (∀ attempt ∈ t.repopulations, attempt.isOk = true) ∧
            (∀ entry, .log entry ∈ t.repopulate.notices → entry.level ≠ .warn) ∧
            (rules.bystanderCount ≤ t.repopulate.shard.bystanders.length ∨
              t.repopulate.shard.freeIds = []) := by
  refine ⟨fun γ _ allowSuicidal g => ?_, fun γ _ tries htries => ?_, ?_⟩
  · obtain ⟨a, ha, h⟩ := Bystander.always_generate allowSuicidal g
    refine ⟨a, ha, h.length_pos, h.length_le, ?_, h.verdict⟩
    rintro rfl w hw hdata
    cases h.data w hw hdata
  · exact Bystander.scatterAbove_eq (Nat.le_refl 4) htries
  · intro id rules maxPrograms maxNameLength random steps s t ht hroom
    have hs : s.InOrder rules maxPrograms :=
      inOrder_after_start id rules maxPrograms maxNameLength random steps
    have h : t.Roomy rules maxPrograms := by
      rcases ht with rfl | rfl
      · exact ⟨hs, hroom⟩
      · exact ⟨hs.playIfDue, hroom⟩
    obtain ⟨hattempts, hquiet, hcount⟩ :=
      h.topUp (t.battle.rules.bystanderCount - t.bystanders.length)
    refine ⟨hattempts, fun entry hentry hwarn => ?_, hcount ?_⟩
    · have hnot := hquiet _ hentry
      simp [Notice.isWarning, hwarn] at hnot
    · rw [h.rules_eq]
      show rules.bystanderCount ≤ t.bystanders.length + (rules.bystanderCount - t.bystanders.length)
      omega

theorem bystanders_topped_up_two :
    let rules : Rules := { columnSize := 1, columnCount := 8, bystanderCount := 2 }
    let s := start 1 rules 4 32 (.ofSeed 0)
    7 ≤ s.battle.arena.size ∧ s.repopulations = [.ok 1, .ok 2] ∧
      (∀ attempt ∈ s.repopulations, attempt.isOk = true) ∧
      (∀ entry, .log entry ∈ s.repopulate.notices → entry.level ≠ .warn) ∧
      (2 ≤ s.repopulate.shard.bystanders.length ∨ s.repopulate.shard.freeIds = []) := by
  intro rules s
  have hroom : 7 ≤ s.battle.arena.size := by decide
  exact ⟨hroom, by decide +kernel,
    bystanders_topped_up.2.2 1 rules 4 32 (.ofSeed 0) [] s (.inl rfl) hroom⟩

end Shard

end CoreArena
