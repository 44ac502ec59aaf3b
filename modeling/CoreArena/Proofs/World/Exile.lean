import CoreArena.Proofs.Admission.BanList
import CoreArena.Proofs.Admission.Disguise
import CoreArena.Proofs.World.Step

/-! # Worm authors stay out

Whoever submits a worm from an address is banned there, bans that are only remembered are never
lifted, and a submission from a banned address is refused, whatever it is and wherever it goes:
`worm_author_stays_out`. -/

namespace CoreArena

namespace Admission

/-! ## Bans -/

theorem Filter.refuses?_eq_none_iff {f : Filter} {name : String} {bytes : List UInt8}
    {address : Option String} :
    f.refuses? name bytes address = none ↔
      (∀ a, address = some a → f.bans.contains a = false) ∧ f.names.rejects name = false ∧
        verdict? bytes = none := by
  have hbanned : (∀ a, address = some a → f.bans.contains a = false) ↔
      address.filter f.bans.contains = none := by
    simp [Option.filter_eq_none_iff]
  rw [hbanned]
  unfold refuses?
  cases address.filter f.bans.contains with
  | some a => simp
  | none =>
      cases f.names.rejects name with
      | true => simp
      | false => simp

namespace Gate

variable {g g' g'' : Gate} {address : String}

/-- Bans are only remembered, and none was lifted. -/
structure Stricter (g g' : Gate) : Prop where
  bansPath_eq : g'.bansPath = none
  bans : ∀ address, g.filter.bans.contains address = true →
    g'.filter.bans.contains address = true

theorem afterBan_eq (h : g.bansPath = none) (disk : Disk) (address : String) :
    g.afterBan disk address =
      if g.filter.bans.admits address then
        { g with filter.bans := g.filter.bans.insert address }
      else g := by
  unfold afterBan ban
  cases g.filter.bans.admits address with
  | true => simp [h]
  | false => rfl

theorem contains_afterBan (h : g.bansPath = none) (disk : Disk)
    (haddress : Text.trimmed address ≠ "") :
    (g.afterBan disk address).filter.bans.contains address = true := by
  rw [afterBan_eq h]
  split
  · dsimp only
    exact BanList.contains_insert_iff.mpr (.inr ⟨haddress, rfl⟩)
  · rename_i hadmits
    simpa [BanList.admits, haddress] using hadmits

theorem afterRejection_of_shouldBan {cause : Rejection} (hban : cause.shouldBan = true)
    (disk : Disk) (address : String) :
    g.afterRejection disk (some address) cause = g.afterBan disk address := by
  rw [afterRejection, hban]
  rfl

namespace Stricter

theorem refl (h : g.bansPath = none) : g.Stricter g :=
  ⟨h, fun _ hbanned => hbanned⟩

theorem of_eq (h : g.bansPath = none) (hsame : g' = g) : g.Stricter g' := by
  rw [hsame]
  exact .refl h

theorem trans (h : g.Stricter g') (h' : g'.Stricter g'') : g.Stricter g'' :=
  ⟨h'.bansPath_eq, fun address hbanned => h'.bans address (h.bans address hbanned)⟩

theorem afterBan (h : g.bansPath = none) (disk : Disk) (address : String) :
    g.Stricter (g.afterBan disk address) := by
  rw [afterBan_eq h]
  split
  · refine ⟨h, fun other hbanned => ?_⟩
    dsimp only
    exact BanList.contains_insert_iff.mpr (.inl hbanned)
  · exact .refl h

theorem afterRejection (h : g.bansPath = none) (disk : Disk) (address : Option String)
    (cause : Rejection) : g.Stricter (g.afterRejection disk address cause) := by
  unfold Gate.afterRejection
  cases address.filter fun _ => cause.shouldBan with
  | none => exact .refl h
  | some address => exact .afterBan h disk address

/-- An alarm leaves bans alone that no file backs. -/
theorem ring (h : g.bansPath = none) (disk : Disk) (alarm : Alarm) :
    g.Stricter (g.ring disk alarm).gate := by
  cases alarm with
  | names =>
      rw [Gate.ring, Gate.read]
      cases Gate.contents? disk g.namesPath with
      | error e => exact .refl h
      | ok text => exact ⟨h, fun _ hbanned => hbanned⟩
  | bans =>
      rw [Gate.ring, Gate.read, h]
      exact .refl h

end Stricter

end Gate

end Admission

namespace Shard

variable {s : Shard}

/-- Whoever gets in has passed the filter. -/
theorem passed_of_install {name source : String} {filter : Admission.Filter}
    {address : Option String} {installed : Installed}
    (h : (s.install name source (some filter) address).result = .ok installed) :
    ∃ assembled, Source.assemble source = .ok assembled ∧
      installed.bytecode = assembled.bytecode ∧
      filter.refuses? (Text.trimmed name) assembled.bytecode address = none := by
  have hsubmitted := s.submitted_install name source (some filter) address
  generalize s.install name source (some filter) address = reply at hsubmitted h
  cases hsubmitted with
  | turnedAway => cases h
  | admitted assembled hroom hfits hassemble hpasses =>
      refine ⟨assembled, hassemble, ?_, hpasses⟩
      cases hplace : (s.place (Text.trimmed name) assembled.words).result with
      | error cause =>
          rw [hplace] at h
          cases h
      | ok placed =>
          rw [hplace] at h
          cases h
          rfl

end Shard

namespace World

open Admission

variable {w : World} {disk : Disk} {id : Nat} {sub : Submission} {address : String}

/-! ## Submissions -/

theorem exists_screen_of_submit {installed : Installed}
    (h : (w.submit disk id sub).1.result = .ok installed) :
    ∃ s, w.shard? id = some s ∧ (w.screen s sub).result = .ok installed := by
  have hsubmitted := w.submitted_submit disk id sub
  rw [h] at hsubmitted
  generalize (w.submit disk id sub).1.world = world at hsubmitted
  cases hsubmitted with
  | accepted hshard hresult => exact ⟨_, hshard, hresult⟩

theorem passed_of_submit {installed : Installed}
    (h : (w.submit disk id sub).1.result = .ok installed) :
    ∃ assembled, Source.assemble sub.source = .ok assembled ∧
      installed.bytecode = assembled.bytecode ∧
      w.gate.filter.refuses? (Text.trimmed sub.name) assembled.bytecode sub.address = none := by
  obtain ⟨s, -, hresult⟩ := exists_screen_of_submit h
  exact Shard.passed_of_install hresult

/-- Nothing is let in from a banned address. -/
theorem submit_ne_ok_of_banned (haddress : sub.address = some address)
    (hbanned : w.gate.filter.bans.contains address = true) (installed : Installed) :
    (w.submit disk id sub).1.result ≠ .ok installed := by
  intro h
  obtain ⟨assembled, -, -, hpassed⟩ := passed_of_submit h
  have hfree := (Filter.refuses?_eq_none_iff.mp hpassed).1 address haddress
  rw [hbanned] at hfree
  cases hfree

theorem gate_of_rejected {cause : Rejection}
    (h : (w.submit disk id sub).1.result = .error (.shard (.rejected cause))) :
    (w.submit disk id sub).1.world.gate = w.gate.afterRejection disk sub.address cause := by
  have hsubmitted := w.submitted_submit disk id sub
  rw [h] at hsubmitted
  generalize (w.submit disk id sub).1.world = world at hsubmitted ⊢
  cases hsubmitted with
  | rejected => rfl
  | refused hshard hresult hcause => exact absurd rfl (hcause cause)

/-! ## Histories -/

theorem stricter_submit (h : w.gate.bansPath = none) (disk : Disk) (id : Nat) (sub : Submission) :
    w.gate.Stricter (w.submit disk id sub).1.world.gate := by
  have hsubmitted := w.submitted_submit disk id sub
  generalize (w.submit disk id sub).1.result = result at hsubmitted
  generalize (w.submit disk id sub).1.world = world at hsubmitted ⊢
  cases hsubmitted with
  | unknown | accepted | refused => exact .refl h
  | rejected => exact .afterRejection h disk _ _

theorem gate_onShard (w : World) (id : Nat) (change : Shard → Shard) :
    (w.onShard id change).gate = w.gate := by
  cases hshard : w.shard? id with
  | none => rw [onShard_of_none hshard]
  | some s =>
      rw [onShard_of_some hshard]
      rfl

theorem gate_createShard (w : World) : w.createShard.world.gate = w.gate := by
  unfold createShard
  split <;> rfl

theorem gate_removeShard (w : World) (id : Nat) : (w.removeShard id).world.gate = w.gate := by
  unfold removeShard
  split <;> rfl

theorem gate_shardForNewcomer (w : World) : w.shardForNewcomer.world.gate = w.gate := by
  unfold shardForNewcomer
  split
  · rfl
  · dsimp only
    split
    · exact w.gate_createShard
    · split <;> rfl

/-- No step lifts a ban. -/
theorem stricter_next (h : w.gate.bansPath = none) (step : Step) :
    w.gate.Stricter (w.next step).gate := by
  cases step with
  | submit disk id sub => exact stricter_submit h disk id sub
  | ban disk address =>
      simp only [next]
      exact .afterBan h disk address
  | ring disk alarm => exact .ring h disk alarm
  | create => exact .of_eq h w.gate_createShard
  | remove id => exact .of_eq h (w.gate_removeShard id)
  | newcomer => exact .of_eq h w.gate_shardForNewcomer
  | checkNames => exact .of_eq h rfl
  | pass id ticks =>
      refine .of_eq h ?_
      show (w.pass id ticks).world.gate = w.gate
      rw [pass_world, gate_onShard]
  | visit id step => exact .of_eq h (w.gate_onShard id _)
  | reseed id random => exact .of_eq h (w.gate_onShard id _)

theorem stricter_after (h : w.gate.bansPath = none) (steps : List Step) :
    w.gate.Stricter (w.after steps).gate := by
  induction steps generalizing w with
  | nil => exact .refl h
  | cons step steps ih =>
      have hnext := stricter_next h step
      exact hnext.trans (ih hnext.bansPath_eq)

/-- Once a submission is rejected for a worm, nothing is ever let in again from its address, blanks
around it aside, into any shard. And whatever is let in has code without a worm, a name that is not
rejected, and no banned address, by the lists as they are then. -/
theorem worm_author_stays_out (settings : Settings) (steps : List Step) :
    let w := (start settings .inMemory).after steps
    (∀ disk id sub verdict address,
        (w.submit disk id sub).1.result = .error (.shard (.rejected (.badProgram verdict))) →
        verdict = .simpleWorm ∨ verdict = .wormFragment →
        sub.address = some address → Text.trimmed address ≠ "" →
        ∀ later disk' id' sub' address', sub'.address = some address' →
          Text.trimmed address' = Text.trimmed address → ∀ installed,
            (((w.submit disk id sub).1.world.after later).submit disk' id' sub').1.result ≠
              .ok installed) ∧
      ∀ disk id sub installed, (w.submit disk id sub).1.result = .ok installed →
        (∃ assembled, Source.assemble sub.source = .ok assembled ∧
          installed.bytecode = assembled.bytecode) ∧
        verdict? installed.bytecode = none ∧ w.gate.filter.names.rejects sub.name = false ∧
          ∀ address, sub.address = some address → w.gate.filter.bans.contains address = false := by
  intro w
  have hremembered : w.gate.bansPath = none :=
    (stricter_after (w := start settings .inMemory) rfl steps).bansPath_eq
  constructor
  · intro disk id sub verdict address hrejected hworm haddress hblank later disk' id' sub' address'
      haddress' hsame
    have hban : (Rejection.badProgram verdict).shouldBan = true := by
      rcases hworm with rfl | rfl <;> rfl
    have hbanned : (w.submit disk id sub).1.world.gate.filter.bans.contains address = true := by
      rw [gate_of_rejected hrejected, haddress, Gate.afterRejection_of_shouldBan hban]
      exact Gate.contains_afterBan hremembered disk hblank
    have hstricter := stricter_after (stricter_submit hremembered disk id sub).bansPath_eq later
    refine submit_ne_ok_of_banned haddress' ?_
    rw [BanList.contains_congr hsame]
    exact hstricter.bans address hbanned
  · intro disk id sub installed haccepted
    obtain ⟨assembled, hassemble, hbytes, hpassed⟩ := passed_of_submit haccepted
    obtain ⟨hfree, hname, hverdict⟩ := Filter.refuses?_eq_none_iff.mp hpassed
    rw [NameMatcher.rejects_trimmed] at hname
    rw [← hbytes] at hverdict
    exact ⟨⟨assembled, hassemble, hbytes⟩, hverdict, hname, hfree⟩

/-- A worm from an address with blanks around it. -/
def worm : Submission :=
  ⟨"a", "somebody", "copy 0 to 1", some " 10.0.0.1 "⟩

def exileSettings : Settings :=
  { bystanders := 0, archive := none }

/-- Another program is refused to the author of a worm, in another shard and long after. -/
theorem worm_author_stays_out_elsewhere :
    let w := (start exileSettings .inMemory).after [.create]
    let later := (w.submit .empty 1 worm).1.world.after [.create, .remove 1, .pass 2 31]
    (w.submit .empty 1 worm).1.result = .error (.shard (.rejected (.badProgram .simpleWorm))) ∧
      worm.address = some " 10.0.0.1 " ∧ Text.trimmed " 10.0.0.1 " ≠ "" ∧
      (∃ installed, (later.submit .empty 2 ⟨"b", "other", "jump 0", none⟩).1.result =
        .ok installed) ∧
      ∀ installed, (later.submit .empty 2 ⟨"b", "other", "jump 0", some "10.0.0.1"⟩).1.result ≠
        .ok installed := by
  intro w later
  have hrejected : (w.submit .empty 1 worm).1.result =
      .error (.shard (.rejected (.badProgram .simpleWorm))) := by
    decide +kernel
  have hothers : (later.submit .empty 2 ⟨"b", "other", "jump 0", none⟩).1.result =
      .ok ⟨1, 640, [0, 0, 0, 0x10]⟩ := by
    decide +kernel
  have hblank : Text.trimmed " 10.0.0.1 " ≠ "" := by
    decide +kernel
  have hsame : Text.trimmed "10.0.0.1" = Text.trimmed " 10.0.0.1 " := by
    decide +kernel
  obtain ⟨hexile, -⟩ := worm_author_stays_out exileSettings [.create]
  refine ⟨hrejected, rfl, hblank, ⟨_, hothers⟩, ?_⟩
  exact hexile .empty 1 worm .simpleWorm " 10.0.0.1 " hrejected (.inl rfl) rfl hblank
    [.create, .remove 1, .pass 2 31] .empty 2 ⟨"b", "other", "jump 0", some "10.0.0.1"⟩ "10.0.0.1"
    rfl hsame

end World

end CoreArena
