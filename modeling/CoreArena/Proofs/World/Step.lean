import CoreArena.Admission.Reload
import CoreArena.Ascending
import CoreArena.Proofs.Shard.Deeds
import CoreArena.World.Basic

/-! # Histories of a world

Shards are made and dropped, players are sent to them and submit programs, clocks tick, names are
checked, lists are read again, and whoever has a shard in hand does with it what can be done with a
shard. A history is a list of such steps, and every step keeps the shards `Orderly`. -/

namespace CoreArena

namespace Shard

theorem shard_passMany (s : Shard) (n : Nat) :
    (s.passMany n).shard = s.after (List.replicate n .pass) := by
  induction n generalizing s with
  | zero => rfl
  | succ n ih => exact ih s.pass.shard

end Shard

namespace Admission.Gate

/-- The gate after somebody asked for a ban, whether it could be saved or not. -/
def afterBan (g : Gate) (d : Disk) (address : String) : Gate :=
  match g.ban d address with
  | .ok (_, g', _) => g'
  | .error _ => g

/-- The gate after a rejection, which may be worth a ban. -/
def afterRejection (g : Gate) (d : Disk) (address : Option String) (cause : Rejection) : Gate :=
  match address.filter fun _ => cause.shouldBan with
  | none => g
  | some address => g.afterBan d address

end Admission.Gate

namespace World

/-- Something that happens to a world. What is on disk at a step may be anything. -/
inductive Step where
  | create
  | remove (id : Nat)
  | newcomer
  | submit (disk : Disk) (id : Nat) (sub : Submission)
  | checkNames (names : Admission.NameMatcher)
  | pass (id ticks : Nat)
  /-- Somebody who has a shard in hand makes a step of it. -/
  | visit (id : Nat) (step : Shard.Step)
  /-- Chance decides what a shard draws from. -/
  | reseed (id : Nat) (random : Xoshiro)
  | ban (disk : Disk) (address : String)
  /-- A list is taken over that was read from a disk now or before. -/
  | ring (disk : Disk) (alarm : Admission.Alarm)

/-- Changes the shard with a number, if there is one. -/
def onShard (w : World) (id : Nat) (change : Shard → Shard) : World :=
  match w.shard? id with
  | none => w
  | some s => w.putShard (change s)

/-- The world after a step, whether the step succeeds or not. -/
def next (w : World) : Step → World
  | .create => w.createShard.world
  | .remove id => (w.removeShard id).world
  | .newcomer => w.shardForNewcomer.world
  | .submit disk id sub => (w.submit disk id sub).1.world
  | .checkNames names => (w.checkNames names).world
  | .pass id ticks => (w.pass id ticks).world
  | .visit id step => w.onShard id (·.next step)
  | .reseed id random => w.onShard id ({ · with random })
  | .ban disk address => { w with gate := w.gate.afterBan disk address }
  | .ring disk alarm => { w with gate := (w.gate.ring disk alarm).gate }

def after (w : World) : List Step → World
  | [] => w
  | step :: steps => (w.next step).after steps

@[simp] theorem after_nil (w : World) : w.after [] = w := rfl

@[simp] theorem after_cons (w : World) (step : Step) (steps : List Step) :
    w.after (step :: steps) = (w.next step).after steps := rfl

/-- What every step keeps, every history keeps. -/
theorem after_induction {P : World → Prop} (hnext : ∀ w step, P w → P (w.next step)) {w : World}
    (hw : P w) (steps : List Step) : P (w.after steps) := by
  induction steps generalizing w with
  | nil => exact hw
  | cons step steps ih => exact ih (hnext w step hw)

variable {settings : Settings} {w : World}

/-! ## What operations do -/

theorem onShard_of_none {id : Nat} (h : w.shard? id = none) (change : Shard → Shard) :
    w.onShard id change = w := by
  rw [onShard, h]

theorem onShard_of_some {id : Nat} {s : Shard} (h : w.shard? id = some s)
    (change : Shard → Shard) : w.onShard id change = w.putShard (change s) := by
  rw [onShard, h]

theorem pass_world (w : World) (id ticks : Nat) :
    (w.pass id ticks).world = w.onShard id (·.after (List.replicate ticks .pass)) := by
  unfold pass
  cases hshard : w.shard? id with
  | none => rw [onShard_of_none hshard]
  | some s =>
      rw [onShard_of_some hshard, ← Shard.shard_passMany]

theorem checkNames_world (w : World) (names : Admission.NameMatcher) :
    (w.checkNames names).world =
      { w with shards := w.shards.map (·.next (.checkNames names)) } := by
  simp only [checkNames, List.map_map]
  rfl

/-- If a rejection is worth a ban, the address of the submitter is banned. -/
theorem banSubmitter_fst (w : World) (disk : Disk) (sub : Submission)
    (cause : Admission.Rejection) :
    (w.banSubmitter disk sub cause).1 =
      { w with gate := w.gate.afterRejection disk sub.address cause } := by
  unfold banSubmitter Admission.Gate.afterRejection
  cases sub.address.filter fun _ => cause.shouldBan with
  | none => rfl
  | some address =>
      dsimp only
      cases hban : w.gate.ban disk address with
      | error e => rw [Admission.Gate.afterBan, hban]
      | ok banned => rw [Admission.Gate.afterBan, hban]

theorem self_mem_enroll (s : Shard) (ts : List Shard) : s ∈ enroll s ts := by
  fun_induction enroll s ts with
  | case1 | case2 | case3 => exact List.mem_cons_self
  | case4 t ts hne hle ih => exact List.mem_cons_of_mem t ih

theorem mem_of_mem_enroll {s t : Shard} {ts : List Shard} (ht : t ∈ enroll s ts) :
    t = s ∨ t ∈ ts := by
  fun_induction enroll s ts with
  | case1 => exact .inl (List.mem_singleton.mp ht)
  | case2 => exact (List.mem_cons.mp ht).imp_right (List.mem_cons_of_mem _)
  | case3 => exact List.mem_cons.mp ht
  | case4 u ts hne hle ih =>
      rcases List.mem_cons.mp ht with rfl | ht
      · exact .inr List.mem_cons_self
      · exact (ih ht).imp_right (List.mem_cons_of_mem u)

theorem map_id_enroll (s : Shard) (ts : List Shard) :
    (enroll s ts).map Shard.id = insertAscending s.id (ts.map Shard.id) := by
  fun_induction enroll s ts with
  | case1 => rfl
  | case2 t ts hid => simp [insertAscending, hid]
  | case3 t ts hne hlt => simp [insertAscending, hne, hlt]
  | case4 t ts hne hle ih => simp [insertAscending, hne, hle, ih]

theorem length_enroll_le (s : Shard) (ts : List Shard) : (enroll s ts).length ≤ ts.length + 1 := by
  fun_induction enroll s ts with
  | case1 | case3 => exact Nat.le_refl _
  | case2 => exact Nat.le_succ _
  | case4 t ts hne hle ih => exact Nat.succ_le_succ ih

/-- What a shard makes of a submission. -/
def screen (w : World) (s : Shard) (sub : Submission) :
    ShardReply (Except ShardError Installed) :=
  s.install sub.name sub.source (some w.gate.filter) sub.address

/-- What can come of submitting a program to a world. -/
inductive Submitted (w : World) (disk : Disk) (id : Nat) (sub : Submission) :
    Except WorldError Installed → World → Prop where
  | unknown (hshard : w.shard? id = none) :
      Submitted w disk id sub (.error (.unknownShard id)) w
  | accepted {s : Shard} {installed : Installed} (hshard : w.shard? id = some s)
      (hresult : (w.screen s sub).result = .ok installed) :
      Submitted w disk id sub (.ok installed) (w.putShard (w.screen s sub).shard)
  | rejected {s : Shard} {cause : Admission.Rejection} (hshard : w.shard? id = some s)
      (hresult : (w.screen s sub).result = .error (.rejected cause)) :
      Submitted w disk id sub (.error (.shard (.rejected cause)))
        { w.putShard (w.screen s sub).shard with
          gate := w.gate.afterRejection disk sub.address cause }
  | refused {s : Shard} {cause : ShardError} (hshard : w.shard? id = some s)
      (hresult : (w.screen s sub).result = .error cause) (hcause : ∀ why, cause ≠ .rejected why) :
      Submitted w disk id sub (.error (.shard cause)) (w.putShard (w.screen s sub).shard)

theorem submitted_submit (w : World) (disk : Disk) (id : Nat) (sub : Submission) :
    Submitted w disk id sub (w.submit disk id sub).1.result (w.submit disk id sub).1.world := by
  cases hshard : w.shard? id with
  | none =>
      simp only [submit, hshard]
      exact .unknown hshard
  | some s =>
      have hscreen : s.install sub.name sub.source (some w.gate.filter) sub.address =
        w.screen s sub := rfl
      simp only [submit, hshard, hscreen]
      cases hresult : (w.screen s sub).result with
      | ok installed => exact .accepted hshard hresult
      | error cause =>
          cases cause with
          | rejected cause =>
              dsimp only
              rw [banSubmitter_fst]
              exact .rejected hshard hresult
          | assembly | emptyName | nameTooLong | duplicateName | full | noFreeId | install =>
              exact .refused hshard hresult (by simp)

/-! ## Order -/

/-- Shards are in the order of their numbers, there are not more of them than there may be, and each
is in order. -/
structure Orderly (settings : Settings) (w : World) : Prop where
  settings_eq : w.settings = settings
  sorted : (w.shards.map Shard.id).Pairwise (· < ·)
  length_le : w.shards.length ≤ settings.maxShards
  inOrder : ∀ s ∈ w.shards, s.InOrder settings.rules settings.maxPrograms

theorem mem_of_shard? {id : Nat} {s : Shard} (h : w.shard? id = some s) :
    s ∈ w.shards ∧ s.id = id :=
  ⟨List.mem_of_find?_eq_some h, by simpa using List.find?_some h⟩

namespace Orderly

theorem shard?_of_mem (h : w.Orderly settings) {s : Shard} (hs : s ∈ w.shards) :
    w.shard? s.id = some s := by
  cases hfound : w.shard? s.id with
  | none => simpa using List.find?_eq_none.mp hfound s hs
  | some t =>
      obtain ⟨ht, hid⟩ := mem_of_shard? hfound
      have hnodup : (w.shards.map Shard.id).Nodup := h.sorted.imp Nat.ne_of_lt
      rw [List.inj_on_of_nodup_map hnodup ht hs hid]

/-- Shards may change in any way that keeps their numbers and their order. -/
theorem change (h : w.Orderly settings) (f : Shard → Shard) (hid : ∀ s ∈ w.shards, (f s).id = s.id)
    (horder : ∀ s ∈ w.shards, (f s).InOrder settings.rules settings.maxPrograms) :
    Orderly settings { w with shards := w.shards.map f } where
  settings_eq := h.settings_eq
  sorted := by
    have hids : (w.shards.map f).map Shard.id = w.shards.map Shard.id := by
      rw [List.map_map]
      exact List.map_congr_left hid
    rw [hids]
    exact h.sorted
  length_le := by
    rw [List.length_map]
    exact h.length_le
  inOrder s hs := by
    obtain ⟨old, hold, rfl⟩ := List.mem_map.mp hs
    exact horder old hold

theorem withGate (h : w.Orderly settings) (gate : Admission.Gate) :
    Orderly settings { w with gate } :=
  ⟨h.settings_eq, h.sorted, h.length_le, h.inOrder⟩

theorem putShard (h : w.Orderly settings) {s : Shard}
    (hs : s.InOrder settings.rules settings.maxPrograms) : (w.putShard s).Orderly settings := by
  refine h.change _ (fun old _ => ?_) (fun old hold => ?_)
  · split
    · exact (‹old.id = s.id›).symm
    · rfl
  · split
    · exact hs
    · exact h.inOrder old hold

theorem onShard (h : w.Orderly settings) (id : Nat) {change : Shard → Shard}
    (hchange : ∀ s, s.InOrder settings.rules settings.maxPrograms →
      (change s).InOrder settings.rules settings.maxPrograms) :
    (w.onShard id change).Orderly settings := by
  cases hshard : w.shard? id with
  | none => rwa [onShard_of_none hshard]
  | some s =>
      rw [onShard_of_some hshard]
      exact h.putShard (hchange s (h.inOrder s (mem_of_shard? hshard).1))

theorem createShard (h : w.Orderly settings) : w.createShard.world.Orderly settings := by
  unfold World.createShard
  split
  · exact h
  · rename_i hroom
    rw [h.settings_eq] at hroom
    constructor
    case settings_eq => exact h.settings_eq
    case sorted =>
      rw [map_id_enroll]
      exact pairwise_insertAscending Nat.lt_trans (by omega) h.sorted
    case length_le =>
      exact (length_enroll_le _ _).trans (Nat.lt_of_not_le hroom)
    case inOrder =>
      intro s hs
      rcases mem_of_mem_enroll hs with rfl | hold
      · rw [h.settings_eq]
        exact Shard.inOrder_start ..
      · exact h.inOrder s hold

theorem removeShard (h : w.Orderly settings) (id : Nat) :
    (w.removeShard id).world.Orderly settings := by
  unfold World.removeShard
  split
  · have hfewer : (w.shards.filter (·.id ≠ id)).Sublist w.shards := List.filter_sublist
    exact ⟨h.settings_eq, h.sorted.sublist (hfewer.map _), hfewer.length_le.trans h.length_le,
      fun s hs => h.inOrder s (hfewer.subset hs)⟩
  · exact h

theorem newcomer (h : w.Orderly settings) : w.shardForNewcomer.world.Orderly settings := by
  unfold World.shardForNewcomer
  split
  · exact h
  · dsimp only
    split
    · exact h.createShard
    · split <;> exact h

theorem submit (h : w.Orderly settings) (disk : Disk) (id : Nat) (sub : Submission) :
    (w.submit disk id sub).1.world.Orderly settings := by
  have hsubmitted := w.submitted_submit disk id sub
  generalize (w.submit disk id sub).1.result = result at hsubmitted
  generalize (w.submit disk id sub).1.world = world at hsubmitted ⊢
  have hput {s : Shard} (hshard : w.shard? id = some s) :
      (w.putShard (w.screen s sub).shard).Orderly settings :=
    h.putShard ((h.inOrder s (mem_of_shard? hshard).1).install ..)
  cases hsubmitted with
  | unknown => exact h
  | accepted hshard | refused hshard => exact hput hshard
  | rejected hshard => exact (hput hshard).withGate _

/-- Every step keeps a world in order. -/
theorem next (h : w.Orderly settings) (step : Step) : (w.next step).Orderly settings := by
  cases step with
  | create => exact h.createShard
  | remove id => exact h.removeShard id
  | newcomer => exact h.newcomer
  | submit disk id sub => exact h.submit disk id sub
  | checkNames names =>
      show (w.checkNames names).world.Orderly settings
      rw [checkNames_world]
      exact h.change _ (fun s hs => (h.inOrder s hs).id_next _) fun s hs => (h.inOrder s hs).next _
  | pass id ticks =>
      show (w.pass id ticks).world.Orderly settings
      rw [pass_world]
      exact h.onShard id fun s hs => hs.after _
  | visit id step => exact h.onShard id fun s hs => hs.next step
  | reseed id random => exact h.onShard id fun s hs => hs.congr rfl rfl rfl rfl
  | ban disk address => exact h.withGate _
  | ring disk alarm => exact h.withGate _

theorem after (h : w.Orderly settings) (steps : List Step) : (w.after steps).Orderly settings :=
  after_induction (fun _ step h => h.next step) h steps

end Orderly

theorem orderly_start (settings : Settings) (gate : Admission.Gate) :
    (start settings gate).Orderly settings where
  settings_eq := rfl
  sorted := .nil
  length_le := Nat.zero_le _
  inOrder _ hs := absurd hs List.not_mem_nil

theorem orderly_after_start (settings : Settings) (gate : Admission.Gate) (steps : List Step) :
    ((start settings gate).after steps).Orderly settings :=
  (orderly_start settings gate).after steps

end World

end CoreArena
