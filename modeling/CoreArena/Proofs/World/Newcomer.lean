import CoreArena.Proofs.World.Step

/-! # Where newcomers are sent

A newcomer is sent to the first quiet shard, else to a new one, else to the first that has room. A
shard counts as quiet by a number that knows nothing of the settings: if they allow fewer players
than that, every shard is quiet, and newcomers go to the first one even when it is full:
`newcomer_after_start`. -/

namespace CoreArena

namespace World

variable {settings : Settings} {w : World}

/-- What can come of sending a newcomer somewhere. -/
inductive Sent (w : World) : Except WorldError Nat → World → Prop where
  | quiet {front back : List Shard} {s : Shard} (hshards : w.shards = front ++ s :: back)
      (hbusy : ∀ t ∈ front, desirablePlayers ≤ t.playerCount)
      (hquiet : s.playerCount < desirablePlayers) : Sent w (.ok s.id) w
  | made (hbusy : ∀ t ∈ w.shards, desirablePlayers ≤ t.playerCount)
      (hroom : w.shards.length < w.settings.maxShards) :
      Sent w (.ok w.nextId.toNat) w.createShard.world
  | squeezed {s : Shard} (hbusy : ∀ t ∈ w.shards, desirablePlayers ≤ t.playerCount)
      (hlimit : w.settings.maxShards ≤ w.shards.length) (hs : s ∈ w.shards)
      (hroom : s.playerCount < w.settings.maxPrograms) : Sent w (.ok s.id) w
  | refused (hbusy : ∀ t ∈ w.shards, desirablePlayers ≤ t.playerCount)
      (hlimit : w.settings.maxShards ≤ w.shards.length)
      (hfull : ∀ t ∈ w.shards, w.settings.maxPrograms ≤ t.playerCount) :
      Sent w (.error (.shardLimit w.settings.maxShards)) w

theorem sent_shardForNewcomer (w : World) :
    Sent w w.shardForNewcomer.result w.shardForNewcomer.world := by
  unfold shardForNewcomer
  split
  · rename_i s hfound
    obtain ⟨hquiet, front, back, hshards, hbusy⟩ := List.find?_eq_some_iff_append.mp hfound
    refine .quiet hshards (fun t ht => ?_) (of_decide_eq_true hquiet)
    simpa using hbusy t ht
  · rename_i hnone
    have hbusy : ∀ t ∈ w.shards, desirablePlayers ≤ t.playerCount := by
      simpa using hnone
    unfold createShard
    by_cases hlimit : w.shards.length ≥ w.settings.maxShards
    · simp only [if_pos hlimit]
      split
      · rename_i s hfound
        exact .squeezed hbusy hlimit (List.mem_of_find?_eq_some hfound)
          (by simpa using List.find?_some hfound)
      · rename_i hfull
        exact .refused hbusy hlimit (by simpa using hfull)
    · have hmade := Sent.made hbusy (Nat.lt_of_not_le hlimit)
      simp only [if_neg hlimit]
      simpa only [createShard, if_neg hlimit] using hmade

theorem Orderly.playerCount_le (h : w.Orderly settings) {s : Shard} (hs : s ∈ w.shards) :
    s.playerCount ≤ settings.maxPrograms :=
  (h.inOrder s hs).players_le

/-- A new shard is there, and nobody plays in it. -/
theorem Orderly.shard?_createShard (h : w.Orderly settings)
    (hroom : w.shards.length < w.settings.maxShards) :
    ∃ s, w.createShard.world.shard? w.nextId.toNat = some s ∧ s.playerCount = 0 := by
  have hcreated := h.createShard
  have hmem : Shard.start w.nextId.toNat w.settings.rules w.settings.maxPrograms
      w.settings.maxNameLength (.ofSeed (.ofNat w.nextId.toNat)) ∈ w.createShard.world.shards := by
    unfold World.createShard
    rw [if_neg (Nat.not_le_of_lt hroom)]
    exact self_mem_enroll _ _
  exact ⟨_, hcreated.shard?_of_mem hmem, rfl⟩

/-- Whether a newcomer is sent to a full shard: the first is full, where fewer players are allowed
than make a shard busy. -/
def FirstFull (w : World) : Prop :=
  w.settings.maxPrograms < desirablePlayers ∧
    ∃ first ∈ w.shards.head?, first.playerCount = w.settings.maxPrograms

theorem not_firstFull (hbusy : ∀ t ∈ w.shards, desirablePlayers ≤ t.playerCount) :
    ¬ w.FirstFull := by
  rintro ⟨hfew, first, hfirst, hfull⟩
  have hmany := hbusy first (List.mem_of_mem_head? hfirst)
  omega

namespace Orderly

/-- Where few players are allowed no shard is busy, so that the first one is found quiet. -/
theorem head?_of_quiet (h : w.Orderly settings) {front back : List Shard} {s : Shard}
    (hshards : w.shards = front ++ s :: back)
    (hbusy : ∀ t ∈ front, desirablePlayers ≤ t.playerCount)
    (hfew : settings.maxPrograms < desirablePlayers) : w.shards.head? = some s := by
  cases front with
  | nil => simp [hshards]
  | cons t front =>
      have hle : t.playerCount ≤ settings.maxPrograms := h.playerCount_le (by simp [hshards])
      have hmany := hbusy t List.mem_cons_self
      omega

theorem shard?_of_sent (h : w.Orderly settings) (hprograms : 1 ≤ settings.maxPrograms)
    {id : Nat} {world : World} (hsent : Sent w (.ok id) world) :
    ∃ s, world.shard? id = some s ∧ s.playerCount ≤ settings.maxPrograms ∧
      (s.playerCount = settings.maxPrograms ↔ w.FirstFull) := by
  obtain rfl := h.settings_eq
  cases hsent with
  | @quiet front back s hshards hbusy hquiet =>
      have hs : s ∈ w.shards := by simp [hshards]
      have hfirst := h.head?_of_quiet hshards hbusy
      refine ⟨s, h.shard?_of_mem hs, h.playerCount_le hs, ?_⟩
      constructor
      · intro hfull
        rw [hfull] at hquiet
        exact ⟨hquiet, s, hfirst hquiet, hfull⟩
      · rintro ⟨hfew, first, hhead, hfull⟩
        rw [Option.mem_def, hfirst hfew] at hhead
        rwa [Option.some.inj hhead]
  | made hbusy hroom =>
      obtain ⟨s, hshard, hempty⟩ := h.shard?_createShard hroom
      exact ⟨s, hshard, by omega, iff_of_false (by omega) (not_firstFull hbusy)⟩
  | @squeezed s hbusy hlimit hs hroom =>
      exact ⟨s, h.shard?_of_mem hs, h.playerCount_le hs,
        iff_of_false (Nat.ne_of_lt hroom) (not_firstFull hbusy)⟩

theorem sent_error_iff (h : w.Orderly settings) (hshards : 1 ≤ settings.maxShards)
    {result : Except WorldError Nat} {world : World} (hsent : Sent w result world) :
    (∃ cause, result = .error cause) ↔ desirablePlayers ≤ settings.maxPrograms ∧
      w.shards.length = settings.maxShards ∧
      ∀ s ∈ w.shards, s.playerCount = settings.maxPrograms := by
  obtain rfl := h.settings_eq
  cases hsent with
  | @quiet front back s hsplit hbusy hquiet =>
      refine iff_of_false (by simp) ?_
      rintro ⟨hmany, -, hfull⟩
      have hs := hfull s (by simp [hsplit])
      omega
  | made hbusy hroom =>
      refine iff_of_false (by simp) ?_
      rintro ⟨-, hlength, -⟩
      omega
  | @squeezed s hbusy hlimit hs hroom =>
      refine iff_of_false (by simp) ?_
      rintro ⟨-, -, hfull⟩
      exact Nat.ne_of_lt hroom (hfull s hs)
  | refused hbusy hlimit hfull =>
      refine iff_of_true ⟨_, rfl⟩ ⟨?_, Nat.le_antisymm h.length_le hlimit, fun s hs => ?_⟩
      · obtain ⟨s, hs⟩ := List.exists_mem_of_length_pos (Nat.lt_of_lt_of_le hshards hlimit)
        exact (hbusy s hs).trans (h.playerCount_le hs)
      · exact Nat.le_antisymm (h.playerCount_le hs) (hfull s hs)

end Orderly

/-- A newcomer is sent to a shard that is there, and that is full only if the first shard is, where
fewer players are allowed than make a shard busy. It is turned away only if there are as many shards
as there may be and all of them are full, and never where fewer players are allowed than make a
shard busy. -/
theorem newcomer_after_start (settings : Settings) (gate : Admission.Gate)
    (hprograms : 1 ≤ settings.maxPrograms) (hshards : 1 ≤ settings.maxShards)
    (steps : List Step) :
    let w := (start settings gate).after steps
    let sent := w.shardForNewcomer
    (∀ id, sent.result = .ok id →
      ∃ s, sent.world.shard? id = some s ∧ s.playerCount ≤ settings.maxPrograms ∧
        (s.playerCount = settings.maxPrograms ↔ settings.maxPrograms < desirablePlayers ∧
          ∃ first ∈ w.shards.head?, first.playerCount = settings.maxPrograms)) ∧
      (∀ cause, sent.result = .error cause → cause = .shardLimit settings.maxShards) ∧
      ((∃ cause, sent.result = .error cause) ↔ desirablePlayers ≤ settings.maxPrograms ∧
        w.shards.length = settings.maxShards ∧
        ∀ s ∈ w.shards, s.playerCount = settings.maxPrograms) := by
  intro w sent
  have h : w.Orderly settings := orderly_after_start ..
  have hsent : Sent w sent.result sent.world := w.sent_shardForNewcomer
  refine ⟨fun id hresult => ?_, fun cause hresult => ?_, h.sent_error_iff hshards hsent⟩
  · rw [hresult] at hsent
    obtain ⟨s, hshard, hle, hfull⟩ := h.shard?_of_sent hprograms hsent
    rw [FirstFull, h.settings_eq] at hfull
    exact ⟨s, hshard, hle, hfull⟩
  · rw [hresult] at hsent
    generalize sent.world = world at hsent
    cases hsent
    rw [h.settings_eq]

/-- Two shards for one player each may be made, and the first has its player. -/
def crowdSettings : Settings :=
  { maxPrograms := 1, maxShards := 2, bystanders := 0, archive := none }

def crowd : List Step :=
  [.create, .submit .empty 1 ⟨"a", "somebody", "jump 0", none⟩]

theorem newcomer_after_start_crowd :
    1 ≤ crowdSettings.maxPrograms ∧ 1 ≤ crowdSettings.maxShards ∧
      ∃ s, ((start crowdSettings .inMemory).after crowd).shardForNewcomer.world.shard? 1 = some s ∧
        s.playerCount = crowdSettings.maxPrograms := by
  have hresult : ((start crowdSettings .inMemory).after crowd).shardForNewcomer.result = .ok 1 := by
    decide +kernel
  obtain ⟨hsent, -, -⟩ :=
    newcomer_after_start crowdSettings .inMemory (by decide) (by decide) crowd
  obtain ⟨s, hshard, -, hfull⟩ := hsent 1 hresult
  have hfirst : ((start crowdSettings .inMemory).after crowd).shards.head?.map Shard.playerCount =
      some 1 := by
    decide +kernel
  obtain ⟨first, hhead, hcount⟩ := Option.map_eq_some_iff.mp hfirst
  exact ⟨by decide, by decide, s, hshard, hfull.mpr ⟨by decide, first, hhead, hcount⟩⟩

/-- The newcomer is sent to the full shard, though another one may be made. -/
theorem newcomer_sent_to_full_shard :
    let w := (start crowdSettings .inMemory).after crowd
    w.shardForNewcomer.result = .ok 1 ∧
      (w.shardForNewcomer.world.shard? 1).map Shard.playerCount = some w.settings.maxPrograms ∧
      w.shards.length < w.settings.maxShards := by
  decide +kernel

end World

end CoreArena
