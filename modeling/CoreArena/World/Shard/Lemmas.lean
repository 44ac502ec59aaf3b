import CoreArena.World.Shard

/-! What each operation on a shard does to its parts. -/

namespace CoreArena.Shard

variable {s t u : Shard}

/-! ### Installation -/

/-- What can come of trying to place a program. -/
inductive Placed (s : Shard) (name : String) (code : List Word) :
    ShardReply (Except ShardError (Nat × Nat)) → Prop where
  | full (hfree : s.freeIds = []) : Placed s name code ⟨.error .noFreeId, s, []⟩
  | refused {id : Nat} {freeIds : List Nat} {cause : InstallError}
      (hfree : s.freeIds = id :: freeIds)
      (hinstall : s.battle.install ⟨id, name, code⟩
        (Placement.middleOfLongestGap s.battle.pointers s.battle.arena.size) = .error cause) :
      Placed s name code
        ⟨.error (.install cause), { s with freeIds := freeIds ++ [id] }, []⟩
  | placed {id : Nat} {freeIds : List Nat} {battle : Battle} {notices : List Notice}
      (hfree : s.freeIds = id :: freeIds)
      (hinstall : s.battle.install ⟨id, name, code⟩
        (Placement.middleOfLongestGap s.battle.pointers s.battle.arena.size) = .ok battle) :
      Placed s name code
        ⟨.ok (id, Placement.middleOfLongestGap s.battle.pointers s.battle.arena.size),
          { s with freeIds, battle, scores := s.scores ++ [⟨id, name, 0⟩] }, notices⟩

theorem placed_place (s : Shard) (name : String) (code : List Word) :
    Placed s name code (s.place name code) := by
  unfold place
  split
  · exact .full ‹_›
  · dsimp only
    split
    · exact .refused ‹_› ‹_›
    · exact .placed ‹_› ‹_›

/-- What a shard refuses without looking at the program. -/
theorem cause_of_refuses? {name : String} {cause : ShardError} (h : s.refuses? name = some cause) :
    cause = .emptyName ∨ cause = .nameTooLong s.maxNameLength ∨ cause = .duplicateName name ∨
      cause = .full s.maxPrograms := by
  unfold refuses? at h
  repeat' split at h
  all_goals cases h
  all_goals simp

/-- Nothing is refused on account of the battle before the battle is asked. -/
theorem refuses?_ne_install {name : String} {cause : ShardError}
    (h : s.refuses? name = some cause) (why : InstallError) : cause ≠ .install why := by
  rcases cause_of_refuses? h with rfl | rfl | rfl | rfl <;> simp

theorem playerCount_lt_of_refuses? {name : String} (h : s.refuses? name = none) :
    s.playerCount < s.maxPrograms := by
  unfold refuses? at h
  repeat' split at h
  all_goals first | exact Nat.lt_of_not_le ‹_› | cases h

/-- What can come of submitting a program. -/
inductive Submitted (s : Shard) (name source : String) (filter : Option Admission.Filter)
    (address : Option String) : ShardReply (Except ShardError Installed) → Prop where
  | turnedAway (cause : ShardError) (notices : List Notice) (hcause : ∀ why, cause ≠ .install why) :
      Submitted s name source filter address ⟨.error cause, s, notices⟩
  | admitted (assembled : Source.Assembled) (hroom : s.playerCount < s.maxPrograms)
      (hfits : s.refuses? (Text.trimmed name) = none)
      (hassemble : Source.assemble source = .ok assembled)
      (hpasses : filter.bind (·.refuses? (Text.trimmed name) assembled.bytecode address) = none) :
      Submitted s name source filter address
        { s.place (Text.trimmed name) assembled.words with
          result := (s.place (Text.trimmed name) assembled.words).result.map
            fun (id, position) => ⟨id, position, assembled.bytecode⟩ }

theorem submitted_install (s : Shard) (name source : String) (filter : Option Admission.Filter)
    (address : Option String) :
    Submitted s name source filter address (s.install name source filter address) := by
  unfold install
  dsimp only
  split
  · exact .turnedAway _ _ (refuses?_ne_install ‹_›)
  · rename_i hfits
    split
    · exact .turnedAway _ _ (by simp)
    · split
      · exact .turnedAway _ _ (by simp)
      · exact .admitted _ (playerCount_lt_of_refuses? hfits) hfits ‹_› ‹_›

/-! ### Deaths -/

/-- The books after the deaths of some programs: their numbers are free again. -/
structure Settled (victims : List Nat) (s t : Shard) : Prop where
  id_eq : t.id = s.id
  battle_eq : t.battle = s.battle
  freeIds_eq : t.freeIds = s.freeIds ++ victims
  bystanders_eq : t.bystanders = s.bystanders.filter (· ∉ victims)
  spawned_eq : t.spawned = s.spawned
  tick_eq : t.tick = s.tick
  maxPrograms_eq : t.maxPrograms = s.maxPrograms

namespace Settled

theorem refl (s : Shard) : Settled [] s s :=
  ⟨rfl, rfl, by simp, (List.filter_eq_self.mpr (by simp)).symm, rfl, rfl, rfl⟩

theorem trans {victims more : List Nat} (h : Settled victims s t) (h' : Settled more t u) :
    Settled (victims ++ more) s u := by
  refine ⟨h'.id_eq.trans h.id_eq, h'.battle_eq.trans h.battle_eq, ?_, ?_,
    h'.spawned_eq.trans h.spawned_eq, h'.tick_eq.trans h.tick_eq,
    h'.maxPrograms_eq.trans h.maxPrograms_eq⟩
  · rw [h'.freeIds_eq, h.freeIds_eq, List.append_assoc]
  · rw [h'.bystanders_eq, h.bystanders_eq, List.filter_filter]
    apply List.filter_congr
    intro id _
    rw [Bool.and_comm]
    simp

theorem settleOne (s : Shard) (victim killer : Nat) :
    Settled [victim] s (s.settleOne victim killer) := by
  constructor <;> simp [Shard.settleOne]

end Settled

/-- Settling events keeps the books of all their victims. -/
theorem settled_settle (s : Shard) (events : List Event) :
    Settled (Event.victims events) s (s.settle events).1 := by
  unfold settle
  dsimp only
  generalize hstart : (s, ([] : List Notice)) = start
  have hs : s = start.1 := by rw [← hstart]
  rw [hs]
  clear hs hstart
  induction events generalizing start with
  | nil => exact .refl start.1
  | cons e events ih =>
      rw [List.foldl_cons]
      cases e with
      | killed victim killer reason place =>
          exact (Settled.settleOne start.1 victim killer).trans
            (ih (start.1.settleOne victim killer, _))
      | read | written | cycle | foreign => exact ih start

/-- Keeps the books of an event, which may be a death. -/
def settleEvent (s : Shard) : Event → Shard
  | .killed victim killer _ _ => s.settleOne victim killer
  | _ => s

/-- Events are settled one after the other. -/
theorem settle_fst (s : Shard) (events : List Event) :
    (s.settle events).1 = events.foldl settleEvent s := by
  refine (List.foldl_hom Prod.fst ?_).symm
  rintro ⟨s, notices⟩ e
  cases e <;> rfl

theorem shard_kill (s : Shard) (id : Nat) :
    (s.kill id).shard =
      (settle { s with battle := (s.battle.killById id).battle }
        (s.battle.killById id).events).1 := rfl

theorem shard_checkNames (s : Shard) (names : Admission.NameMatcher) :
    (s.checkNames names).shard =
      (settle { s with battle := (s.expel (s.offenders names)).1 }
        (s.expel (s.offenders names)).2.1).1 := rfl

/-- What every removal by number keeps, an expulsion keeps. -/
theorem expel_induction {P : Battle → List Event → Prop} (s : Shard) (hstart : P s.battle [])
    (hkill : ∀ b events id, P b events →
      P (b.killById id).battle (events ++ (b.killById id).events)) (ids : List Nat) :
    P (s.expel ids).1 (s.expel ids).2.1 := by
  unfold expel
  generalize hbegin : (s.battle, ([] : List Event), ([] : List Notice)) = start
  have hP : P start.1 start.2.1 := by rwa [← hbegin]
  clear hbegin hstart
  induction ids generalizing start with
  | nil => exact hP
  | cons id ids ih => exact ih _ (hkill start.1 start.2.1 id hP)

/-! ### Bystanders -/

/-- The name of a bystander, by how many there have been with it. -/
def bystanderName (n : Nat) : String :=
  s!"BYSTANDER_{n}"

/-- What can come of making up a bystander. -/
inductive Spawned (s : Shard) : ShardReply (Except ShardError Nat) → Prop where
  | misread (random : Xoshiro) (cause : Source.AssemblyError) (notices : List Notice) :
      Spawned s ⟨.error (.assembly cause), { s with random }, notices⟩
  | refused {random : Xoshiro} {name : String} {code : List Word} {cause : ShardError}
      {drawn : Shard} (notices : List Notice)
      (hdrawn : drawn = { s with random, spawned := s.spawned + 1 })
      (hplace : (drawn.place name code).result = .error cause) :
      Spawned s ⟨.error cause, (drawn.place name code).shard, notices⟩
  | added {random : Xoshiro} {name : String} {code : List Word} {id position : Nat}
      {drawn : Shard} (notices : List Notice)
      (hdrawn : drawn = { s with random, spawned := s.spawned + 1 })
      (hplace : (drawn.place name code).result = .ok (id, position))
      (hname : name = bystanderName drawn.spawned) :
      Spawned s ⟨.ok id,
        { (drawn.place name code).shard with
          bystanders := insertAscending id (drawn.place name code).shard.bystanders }, notices⟩

theorem spawned_spawn (s : Shard) : Spawned s s.spawn := by
  unfold spawn
  generalize (Bystander.generate true).run s.random = drawn
  obtain ⟨source, random⟩ := drawn
  dsimp only
  split
  · exact .misread _ _ _
  · split
    · exact .refused _ rfl ‹_›
    · exact .added _ rfl ‹_› rfl

/-- What every attempt to add a wanted bystander keeps, a top-up keeps. -/
theorem topUp_induction {P : Shard → Prop}
    (hspawn : ∀ s, s.wantsBystander = true → P s → P s.spawn.shard) {s : Shard} (hs : P s)
    (missing : Nat) : P (s.topUp missing).shard := by
  induction missing generalizing s with
  | zero => exact hs
  | succ missing ih =>
      unfold topUp
      cases hwants : s.wantsBystander with
      | false => exact hs
      | true =>
          rw [if_pos rfl]
          have hfirst := hspawn s hwants hs
          dsimp only
          split
          · exact hfirst
          · exact ih hfirst

/-! ### Ticks -/

theorem play_shard (s : Shard) :
    s.play.shard =
      { (settle { s with battle := s.battle.advance.battle } s.battle.advance.events).1 with
        summary := (settle { s with battle := s.battle.advance.battle }
          s.battle.advance.events).1.currentSummary } := rfl

theorem playIfDue_of_due (h : s.isPlayTick = true) : s.playIfDue.shard = s.play.shard := by
  unfold playIfDue
  rw [if_pos h]

theorem playIfDue_of_not_due (h : s.isPlayTick = false) : s.playIfDue.shard = s := by
  unfold playIfDue
  rw [h]
  rfl

/-- What a top-up keeps, one that comes when it is due keeps. -/
theorem repopulateIfDue_induction {P : Shard → Prop}
    (hspawn : ∀ s, s.wantsBystander = true → P s → P s.spawn.shard) {s : Shard} (hs : P s) :
    P s.repopulateIfDue.shard := by
  unfold repopulateIfDue
  split
  · exact topUp_induction hspawn hs _
  · exact hs

theorem pass_shard (s : Shard) :
    s.pass.shard =
      { s.playIfDue.shard.repopulateIfDue.shard with
        tick := s.playIfDue.shard.repopulateIfDue.shard.tick + 1 } := rfl

end CoreArena.Shard
