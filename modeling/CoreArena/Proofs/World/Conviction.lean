import CoreArena.Proofs.Admission.SelfCopy
import CoreArena.Proofs.World.Step

/-! # Whoever is banned has sent a copier

The filter looks at the fields of words, and nothing is executed. Yet a program that it calls a worm
has an instruction that really stores itself, just past the end of the program or in the next cell,
wherever the program is installed and whoever executes it: `convicted_reproduces`. -/

namespace CoreArena

/-! ## Executing a copier -/

namespace Battle

/-- A program that executes the instruction at a cell writes a word to another one and leaves it
there. -/
def StoresFrom (b : Battle) (program position : Nat) (w : Word) (i : Nat) : Prop :=
  let track := ((Act.execute b.rules program position).runIn b.arena).2
  i ∈ Event.writtenCells track.events ∧ (track.arena.cell i).value = w

/-- The word at a place of a program stores itself in the cell for another place, wherever the
program is installed in an arena without limits. It does so whoever executes it, as long as it is
still there. -/
def Reproduces (code : List Word) (k target : Nat) : Prop :=
  ∃ w, code[k]? = some w ∧
    ∀ (r : Rules) (before : List Step) (p : Program) (address : Nat) (c : Battle),
      r.maxWrites = 0 → r.maxReads = 0 → p.code = code →
      ((start r).after before).install p address = .ok c →
      c.values (c.codeCell address k) = w ∧
        ∀ more, (c.after more).values (c.codeCell address k) = w →
          (∀ program, (c.after more).StoresFrom program (c.codeCell address k) w
            (c.codeCell address target)) ∧
          ∀ id, (c.after more).executing? = some (id, c.codeCell address k) →
            (c.after more).Stores w (c.codeCell address target)

variable {b c : Battle} {p : Program} {address position program : Nat} {w : Word}

theorem storesFrom_iff (h : b.Invariant) (hholds : b.arena.Holds b.arena.size b.values)
    (hposition : position < b.arena.size) {distance : Int}
    (hself : (Instruction.decode (b.values position)).CopiesItself distance) {i : Nat} :
    b.StoresFrom program position (b.values position) i ↔
      i = (b.viewFrom position).address distance := by
  rw [StoresFrom, Act.runIn_eq_eval]
  cases hrun : (Act.execute b.rules program position).eval ⟨b.arena, []⟩ with
  | mk result track =>
      dsimp only
      rw [writtenCells_of_run h hholds hrun, (run_of_holds h hholds hrun).2]
      exact View.stores_iff (v := b.viewFrom position) hposition hself

theorem after_install {r : Rules} {before : List Step}
    (hinstall : ((start r).after before).install p address = .ok c) (more : List Step) :
    c.after more = (start r).after (before ++ .install p address :: more) := by
  rw [after_append, after_cons, next, hinstall]
  rfl

theorem holds_after_start {r : Rules} (hwrites : r.maxWrites = 0) (hreads : r.maxReads = 0)
    (steps : List Step) :
    ((start r).after steps).arena.Holds ((start r).after steps).arena.size
      ((start r).after steps).values := by
  have hshape := sameShape_after (invariant_start r) steps
  exact ⟨rfl, hshape.maxWrites_eq.trans hwrites, hshape.maxReads_eq.trans hreads, fun _ => rfl⟩

/-- An instruction that copies itself to the place of another word reaches the cell for that
word. -/
theorem reproduces_of_copiesItself {code : List Word} {k target : Nat} (hw : code[k]? = some w)
    (hself : (Instruction.decode w).CopiesItself ((target : Int) - k)) :
    Reproduces code k target := by
  refine ⟨w, hw, fun r before p address c hwrites hreads hcode hinstall => ?_⟩
  subst hcode
  refine ⟨values_install hinstall hw, fun more hvalue => ?_⟩
  have hnow := after_install hinstall more
  have hinvariant : (c.after more).Invariant := hnow ▸ invariant_after_start r _
  have hholds : (c.after more).arena.Holds (c.after more).arena.size (c.after more).values :=
    hnow ▸ holds_after_start hwrites hreads _
  have hsize : (c.after more).arena.size = c.arena.size :=
    (sameShape_after ((invariant_after_start r before).install hinstall) more).size_eq
  rw [← codeCell_congr hsize] at hvalue ⊢
  rw [← codeCell_congr hsize address target, ← address_viewFrom_codeCell _ address k target]
  rw [← hvalue] at hself ⊢
  refine ⟨fun program => ?_, fun id hturn => ?_⟩
  · exact (storesFrom_iff hinvariant hholds (Nat.mod_lt _ hinvariant.size_pos) hself).mpr rfl
  · exact (stores_iff hinvariant hholds hturn hself).mpr rfl

end Battle

/-! ## Verdicts -/

namespace Admission

open Battle

variable {bytes : List UInt8} {code : List Word}

theorem reproduces_of_isSimpleWorm (h : isSimpleWorm code = true) :
    ∃ k, Reproduces code k code.length := by
  obtain ⟨k, w, hw, hself⟩ := isSimpleWorm_iff.mp h
  exact ⟨k, reproduces_of_copiesItself hw hself⟩

theorem reproduces_of_isWormFragment (h : isWormFragment code = true) :
    ∃ k, Reproduces code k (k + 1) := by
  obtain ⟨w, hmem, hself⟩ := isWormFragment_iff.mp h
  obtain ⟨k, hw⟩ := List.mem_iff_getElem?.mp hmem
  refine ⟨k, reproduces_of_copiesItself hw ?_⟩
  rwa [Int.natCast_succ, add_sub_cancel_left]

/-- What a verdict says of the words. -/
inductive Convicted (bytes : List UInt8) : Verdict → Prop where
  | malformed (h : Bytecode.decode? bytes = none) : Convicted bytes .malformed
  | simpleWorm {code : List Word} (h : Bytecode.decode? bytes = some code)
      (worm : isSimpleWorm code = true) : Convicted bytes .simpleWorm
  | wormFragment {code : List Word} (h : Bytecode.decode? bytes = some code)
      (worm : isWormFragment code = true) : Convicted bytes .wormFragment

theorem convicted_of_verdict? {verdict : Verdict} (h : verdict? bytes = some verdict) :
    Convicted bytes verdict := by
  unfold verdict? at h
  split at h
  · cases h
    exact .malformed ‹_›
  · split at h
    · cases h
      exact .simpleWorm ‹_› ‹_›
    split at h
    · cases h
      exact .wormFragment ‹_› ‹_›
    · cases h

theorem Filter.verdict?_of_refuses? {f : Filter} {name : String} {address : Option String}
    {verdict : Verdict} (h : f.refuses? name bytes address = some (.badProgram verdict)) :
    verdict? bytes = some verdict := by
  unfold refuses? at h
  split at h
  · cases h
  split at h
  · cases h
  · simpa using h

theorem exists_verdict_of_shouldBan {cause : Rejection} (h : cause.shouldBan = true) :
    ∃ verdict, cause = .badProgram verdict := by
  cases cause with
  | badProgram verdict => exact ⟨verdict, rfl⟩
  | badName | banned => cases h

end Admission

/-! ## Submissions -/

namespace Shard

variable {s : Shard} {name source : String} {filter : Admission.Filter} {address : Option String}

/-- Whatever is rejected has been assembled, and the filter refused it. -/
theorem refused_of_install {cause : Admission.Rejection}
    (h : (s.install name source (some filter) address).result = .error (.rejected cause)) :
    ∃ assembled, Source.assemble source = .ok assembled ∧
      filter.refuses? (Text.trimmed name) assembled.bytecode address = some cause := by
  unfold install at h
  dsimp only at h
  split at h
  · rename_i hrefused
    cases h
    rcases cause_of_refuses? hrefused with hcause | hcause | hcause | hcause <;> cases hcause
  · split at h
    · cases h
    · split at h
      · rename_i hrejected
        cases h
        exact ⟨_, ‹_›, hrejected⟩
      · rename_i assembled _ _ _
        have hplaced := s.placed_place (Text.trimmed name) assembled.words
        generalize s.place (Text.trimmed name) assembled.words = reply at hplaced h
        cases hplaced <;> cases h

end Shard

namespace World

open Admission Battle

/-- A submission is rejected for its program, or somebody is banned on account of it. -/
def Convicts (w : World) (disk : Disk) (id : Nat) (sub : Submission) : Prop :=
  (∃ verdict, (w.submit disk id sub).1.result = .error (.shard (.rejected (.badProgram verdict)))) ∨
    (w.submit disk id sub).1.world.gate ≠ w.gate

variable {w : World} {disk : Disk} {id : Nat} {sub : Submission}

theorem afterRejection_of_not_shouldBan {g : Gate} {cause : Rejection}
    (h : cause.shouldBan = false) (disk : Disk) (address : Option String) :
    g.afterRejection disk address cause = g := by
  rw [Gate.afterRejection, h]
  cases address <;> rfl

/-- Bans are for programs only. -/
theorem Convicts.exists_verdict (h : w.Convicts disk id sub) :
    ∃ s verdict, (w.screen s sub).result = .error (.rejected (.badProgram verdict)) := by
  have hsubmitted := w.submitted_submit disk id sub
  unfold Convicts at h
  generalize (w.submit disk id sub).1.result = result at h hsubmitted
  generalize (w.submit disk id sub).1.world = world at h hsubmitted
  cases hsubmitted with
  | unknown | accepted =>
      rcases h with ⟨verdict, hsame⟩ | hgate
      · cases hsame
      · exact absurd rfl hgate
  | @rejected s cause hshard hresult =>
      rcases h with ⟨verdict, hcause⟩ | hgate
      · cases hcause
        exact ⟨s, verdict, hresult⟩
      · cases hban : cause.shouldBan with
        | true =>
            obtain ⟨verdict, rfl⟩ := exists_verdict_of_shouldBan hban
            exact ⟨s, verdict, hresult⟩
        | false => exact absurd (afterRejection_of_not_shouldBan hban disk sub.address) hgate
  | refused hshard hresult hcause =>
      rcases h with ⟨verdict, hsame⟩ | hgate
      · cases hsame
        exact absurd rfl (hcause _)
      · exact absurd rfl hgate

/-- A program whose verdict is that of a worm has an instruction that stores itself just past the
end of the program or in the next cell, wherever it is installed in an arena without limits. A
submission that is rejected for its program has such an instruction, and so has one that gets
anybody banned. -/
theorem convicted_reproduces :
    (∀ bytes, verdict? bytes = some .simpleWorm →
        ∃ code k, Bytecode.decode? bytes = some code ∧ Reproduces code k code.length) ∧
      (∀ bytes, verdict? bytes = some .wormFragment →
        ∃ code k, Bytecode.decode? bytes = some code ∧ Reproduces code k (k + 1)) ∧
      ∀ (w : World) (disk : Disk) (id : Nat) (sub : Submission), w.Convicts disk id sub →
        ∃ assembled k, Source.assemble sub.source = .ok assembled ∧
          (Reproduces assembled.words k assembled.words.length ∨
            Reproduces assembled.words k (k + 1)) := by
  refine ⟨fun bytes hverdict => ?_, fun bytes hverdict => ?_, fun w disk id sub hconvicts => ?_⟩
  · cases convicted_of_verdict? hverdict with
    | simpleWorm hcode hworm =>
        obtain ⟨k, hreproduces⟩ := reproduces_of_isSimpleWorm hworm
        exact ⟨_, k, hcode, hreproduces⟩
  · cases convicted_of_verdict? hverdict with
    | wormFragment hcode hworm =>
        obtain ⟨k, hreproduces⟩ := reproduces_of_isWormFragment hworm
        exact ⟨_, k, hcode, hreproduces⟩
  · obtain ⟨s, verdict, hscreen⟩ := hconvicts.exists_verdict
    obtain ⟨assembled, hassemble, hrefuses⟩ := Shard.refused_of_install hscreen
    have hwords : Bytecode.decode? assembled.bytecode = some assembled.words :=
      Bytecode.decode?_encode assembled.words
    cases convicted_of_verdict? (Filter.verdict?_of_refuses? hrefuses) with
    | malformed hcode =>
        rw [hwords] at hcode
        cases hcode
    | simpleWorm hcode hworm =>
        cases hwords.symm.trans hcode
        obtain ⟨k, hreproduces⟩ := reproduces_of_isSimpleWorm hworm
        exact ⟨assembled, k, hassemble, .inl hreproduces⟩
    | wormFragment hcode hworm =>
        cases hwords.symm.trans hcode
        obtain ⟨k, hreproduces⟩ := reproduces_of_isWormFragment hworm
        exact ⟨assembled, k, hassemble, .inr hreproduces⟩

/-- The shortest worm, installed at the cell 7, fills the next one at its first turn. -/
theorem convicted_reproduces_copier :
    ∃ c, ((Battle.start .persistent).after []).install (copier 1) 7 = .ok c ∧
      c.executing? = some (1, 7) ∧ c.Stores (copierWord 1) 8 := by
  obtain ⟨code, k, hcode, w, hw, hstored⟩ :=
    convicted_reproduces.1 (Bytecode.encode (copier 1).code) (by decide)
  cases (Bytecode.decode?_encode _).symm.trans hcode
  obtain rfl : k = 0 := by
    have hk := (List.getElem?_eq_some_iff.mp hw).1
    simpa [copier] using hk
  obtain rfl : copierWord 1 = w := Option.some.inj hw
  obtain ⟨c, hinstall, hturn, hcell⟩ := install_start_persistent (p := copier 1) (by decide)
    (by decide) (by decide) (by decide : 7 < 1280)
  obtain ⟨hvalue, hstores⟩ := hstored .persistent [] (copier 1) 7 c rfl rfl rfl hinstall
  have hnext := (hstores [] hvalue).2 1 hturn
  rw [hcell] at hturn hnext
  exact ⟨c, hinstall, hturn, hnext⟩

end World

end CoreArena
