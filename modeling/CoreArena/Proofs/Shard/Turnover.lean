import CoreArena.Proofs.Shard.Books

/-! # The rota of a shard

The seats of a shard change in few ways. Programs join at the end, some leave, or a tick comes at
which the seat with the turn is due. -/

namespace CoreArena

namespace Rota

variable {α β : Type} {r t : Rota α} {x : α} {tick : Nat}

/-- The tick of a round at which the seat with the turn plays. -/
def slot (r : Rota α) : Nat :=
  r.turn * ((roundLength - 1) / r.seats.length)

/-- The seat with the turn plays at a tick. -/
def IsDue (r : Rota α) (tick : Nat) : Prop :=
  r.seats ≠ [] ∧ r.slot = tick % roundLength

/-- Some leave, one after the other. -/
inductive Leaves (r : Rota α) : Rota α → Prop where
  | refl : Leaves r r
  | tail {t : Rota α} {index : Nat} (h : Leaves r t) (hindex : index < t.seats.length) :
      Leaves r (t.leave index)

/-- What can happen at a tick, and who plays at it. -/
inductive Ticked (tick : Nat) (r : Rota α) : Option α → Rota α → Prop where
  | waited (hdue : ¬ r.IsDue tick) : Ticked tick r none r
  | passed {x : α} (hdue : r.IsDue tick) (hplayer : r.player? = some x) :
      Ticked tick r (some x) r.pass
  | died {x : α} (hdue : r.IsDue tick) (hplayer : r.player? = some x) :
      Ticked tick r (some x) (r.leave r.turn)

theorem Leaves.sublist (h : r.Leaves t) : t.seats.Sublist r.seats := by
  induction h with
  | refl => exact List.Sublist.refl _
  | tail _ _ ih => exact (List.eraseIdx_sublist _ _).trans ih

/-- If anybody leaves, there are fewer seats. -/
theorem Leaves.eq_or_length_lt (h : r.Leaves t) :
    t = r ∨ t.seats.length < r.seats.length := by
  cases h with
  | refl => exact .inl rfl
  | @tail t index h hindex =>
      right
      rw [seats_leave, List.length_eraseIdx_of_lt hindex]
      have hle := h.sublist.length_le
      omega

theorem Leaves.inRange (h : r.Leaves t) (hr : r.InRange) : t.InRange := by
  cases h with
  | refl => exact hr
  | tail => exact inRange_wrap _

theorem Ticked.inRange {played : Option α} (h : Ticked tick r played t) (hr : r.InRange) :
    t.InRange := by
  cases h with
  | waited => exact hr
  | passed | died => exact inRange_wrap _

theorem Ticked.sublist {played : Option α} (h : Ticked tick r played t) :
    t.seats.Sublist r.seats := by
  cases h with
  | waited | passed => exact List.Sublist.refl _
  | died => exact List.eraseIdx_sublist _ _

theorem turn_ne_zero_of_isDue (hdue : r.IsDue tick) (hmid : tick % roundLength ≠ 0) :
    r.turn ≠ 0 := by
  intro hzero
  apply hmid
  rw [← hdue.2, slot, hzero, Nat.zero_mul]

theorem Ticked.isDue (h : Ticked tick r (some x) t) : r.IsDue tick := by
  cases h <;> assumption

theorem Ticked.player? (h : Ticked tick r (some x) t) : r.player? = some x := by
  cases h <;> assumption

theorem Ticked.turn_eq_zero (h : Ticked tick r (some x) t) (hlast : r.seats.length ≤ r.turn + 1) :
    t.turn = 0 := by
  cases h with
  | passed => exact turn_pass_of_ge hlast
  | died => exact turn_leave_turn_of_ge hlast

/-- Unless the last seat plays, the others go on waiting. -/
theorem Ticked.waiting_eq (h : Ticked tick r (some x) t) (hlast : r.turn + 1 < r.seats.length) :
    r.waiting = x :: t.waiting := by
  cases h with
  | passed hdue hplayer => exact waiting_pass_of_lt hplayer hlast
  | died hdue hplayer => exact waiting_leave_turn_of_lt hplayer hlast

theorem Ticked.eq_of_not_isDue {played : Option α} (h : Ticked tick r played t)
    (hdue : ¬ r.IsDue tick) : played = none ∧ t = r := by
  cases h with
  | waited => exact ⟨rfl, rfl⟩
  | passed hnow | died hnow => exact absurd hnow hdue

theorem Ticked.eq_of_none (h : Ticked tick r none t) : t = r ∧ ¬ r.IsDue tick := by
  cases h with
  | waited hdue => exact ⟨rfl, hdue⟩

/-! ## Other names for the same seats -/

def map (f : α → β) (r : Rota α) : Rota β :=
  ⟨r.seats.map f, r.turn⟩

variable (f : α → β)

theorem map_congr {g : α → β} (h : ∀ x ∈ r.seats, f x = g x) : r.map f = r.map g := by
  rw [map, map, List.map_congr_left h]

theorem map_wrap (r : Rota α) : r.wrap.map f = (r.map f).wrap := by
  simp [map, wrap]

theorem map_pass (r : Rota α) : r.pass.map f = (r.map f).pass :=
  map_wrap f _

theorem map_leave (r : Rota α) (index : Nat) : (r.leave index).map f = (r.map f).leave index := by
  rw [leave, map_wrap]
  show wrap ⟨(r.seats.eraseIdx index).map f, _⟩ = _
  rw [← List.eraseIdx_map]
  rfl

theorem map_join (r : Rota α) (newcomers : List α) :
    (r.join newcomers).map f = (r.map f).join (newcomers.map f) := by
  simp [map, join]

theorem player?_map (r : Rota α) : (r.map f).player? = r.player?.map f :=
  List.getElem?_map

theorem isDue_map : (r.map f).IsDue tick ↔ r.IsDue tick := by
  simp [IsDue, slot, map]

theorem Leaves.map (h : r.Leaves t) : (r.map f).Leaves (t.map f) := by
  induction h with
  | refl => exact .refl
  | @tail t index _ hindex ih =>
      rw [map_leave]
      refine ih.tail ?_
      rwa [Rota.map, List.length_map]

theorem Ticked.map {played : Option α} (h : Ticked tick r played t) :
    Ticked tick (r.map f) (played.map f) (t.map f) := by
  cases h with
  | waited hdue => exact .waited (mt (isDue_map f).mp hdue)
  | passed hdue hplayer =>
      rw [map_pass]
      refine .passed ((isDue_map f).mpr hdue) ?_
      rw [player?_map, hplayer]
      rfl
  | died hdue hplayer =>
      rw [map_leave]
      refine .died ((isDue_map f).mpr hdue) ?_
      rw [player?_map, hplayer]
      rfl

end Rota

namespace Shard

variable {rules : Rules} {maxPrograms : Nat} {s t u : Shard}

/-! ## Joining -/

/-- Nothing has happened to the rota but that programs joined, and no time has passed. -/
structure Joins (s t : Shard) : Prop where
  rota_eq : ∃ ids, t.battle.rota = s.battle.rota.join ids
  tick_eq : t.tick = s.tick

theorem Joins.refl (s : Shard) : s.Joins s :=
  ⟨⟨[], (Rota.join_nil _).symm⟩, rfl⟩

theorem Joins.trans (h : s.Joins t) (h' : t.Joins u) : s.Joins u := by
  obtain ⟨⟨ids, hids⟩, htick⟩ := h
  obtain ⟨⟨more, hmore⟩, htick'⟩ := h'
  refine ⟨⟨ids ++ more, ?_⟩, htick'.trans htick⟩
  rw [hmore, hids, Rota.join_join]

theorem joins_place (s : Shard) (name : String) (code : List Word) :
    s.Joins (s.place name code).shard := by
  have hplaced := s.placed_place name code
  generalize s.place name code = reply at hplaced ⊢
  cases hplaced with
  | full | refused => exact ⟨⟨[], (Rota.join_nil _).symm⟩, rfl⟩
  | placed hfree hinstall => exact ⟨⟨_, Battle.rota_install hinstall⟩, rfl⟩

theorem joins_spawn (s : Shard) : s.Joins s.spawn.shard := by
  have hspawned := s.spawned_spawn
  generalize s.spawn = reply at hspawned ⊢
  cases hspawned with
  | misread => exact ⟨⟨[], (Rota.join_nil _).symm⟩, rfl⟩
  | @refused random name code cause drawn notices hdrawn hplace =>
      have hjoins := drawn.joins_place name code
      subst hdrawn
      exact ⟨hjoins.rota_eq, hjoins.tick_eq⟩
  | @added random name code id position drawn notices hdrawn hplace =>
      have hjoins := drawn.joins_place name code
      subst hdrawn
      exact ⟨hjoins.rota_eq, hjoins.tick_eq⟩

theorem joins_repopulate (s : Shard) : s.Joins s.repopulate.shard :=
  topUp_induction (fun t _ h => h.trans t.joins_spawn) (.refl s) _

theorem joins_repopulateIfDue (s : Shard) : s.Joins s.repopulateIfDue.shard :=
  repopulateIfDue_induction (fun t _ h => h.trans t.joins_spawn) (.refl s)

theorem joins_install (s : Shard) (name source : String) (filter : Option Admission.Filter)
    (address : Option String) : s.Joins (s.install name source filter address).shard := by
  have hsubmitted := s.submitted_install name source filter address
  generalize s.install name source filter address = reply at hsubmitted ⊢
  cases hsubmitted with
  | turnedAway => exact .refl s
  | admitted assembled => exact joins_place s _ _

/-! ## Leaving -/

theorem leaves_killById {b : Battle} {r : Rota Nat} (h : b.Invariant) (hleaves : r.Leaves b.rota)
    (id : Nat) : r.Leaves (b.killById id).battle.rota := by
  rcases h.rota_killById id with ⟨-, hbattle, -⟩ | ⟨index, hget, hrota, -⟩
  · rwa [hbattle]
  · rw [hrota]
    exact hleaves.tail (List.getElem?_eq_some_iff.mp hget).1

theorem rota_settle (s : Shard) (events : List Event) :
    (s.settle events).1.battle.rota = s.battle.rota :=
  congrArg Battle.rota (settled_settle s events).battle_eq

theorem InOrder.leaves_kill (h : s.InOrder rules maxPrograms) (id : Nat) :
    s.battle.rota.Leaves (s.kill id).shard.battle.rota := by
  rw [shard_kill, rota_settle]
  exact leaves_killById h.battle .refl id

theorem InOrder.leaves_checkNames (h : s.InOrder rules maxPrograms)
    (names : Admission.NameMatcher) :
    s.battle.rota.Leaves (s.checkNames names).shard.battle.rota := by
  rw [shard_checkNames, rota_settle]
  refine (s.expel_induction (P := fun b _ => b.Invariant ∧ s.battle.rota.Leaves b.rota)
    ⟨h.battle, .refl⟩ ?_ (s.offenders names)).2
  rintro b events id ⟨hb, hleaves⟩
  exact ⟨hb.next (.killById id), leaves_killById hb hleaves id⟩

/-! ## Ticking -/

/-- The number of the program that plays at the next tick. -/
def playing? (s : Shard) : Option Nat :=
  if s.isPlayTick then s.battle.executing?.map Prod.fst else none

theorem Books.isPlayTick_iff (h : s.Books rules maxPrograms) :
    s.isPlayTick = true ↔ s.battle.rota.IsDue s.tick := by
  have hlength : s.battle.rota.seats.length = s.battle.warriors.length := h.length_warriors.symm
  rw [Rota.IsDue, Rota.slot, ← List.length_pos_iff, hlength]
  simp [isPlayTick, Battle.rota, Nat.pos_iff_ne_zero]

/-- At a tick nobody plays, or the program that is due plays and passes the turn on or dies. -/
theorem InOrder.ticked_playIfDue (h : s.InOrder rules maxPrograms) :
    Rota.Ticked s.tick s.battle.rota s.playing? s.playIfDue.shard.battle.rota := by
  unfold playing?
  cases hdue : s.isPlayTick with
  | false =>
      rw [playIfDue_of_not_due hdue]
      refine .waited fun htick => ?_
      rw [h.isPlayTick_iff.mpr htick] at hdue
      cases hdue
  | true =>
      have htick := h.isPlayTick_iff.mp hdue
      have hids := h.ids_ne_nil_of_isPlayTick hdue
      obtain ⟨id, position, hexecuting, hplayer, ⟨hrota, -⟩ | ⟨hrota, -⟩⟩ :=
        h.battle.rota_advance h.runForever hids
      all_goals
        rw [playIfDue_of_due hdue, play_shard, if_pos rfl, hexecuting]
        show Rota.Ticked _ _ _ (Shard.settle _ _).1.battle.rota
        rw [rota_settle, hrota]
      · exact .passed htick hplayer
      · exact .died htick hplayer

theorem tick_playIfDue (s : Shard) : s.playIfDue.shard.tick = s.tick := by
  cases hdue : s.isPlayTick with
  | false => rw [playIfDue_of_not_due hdue]
  | true =>
      rw [playIfDue_of_due hdue, play_shard]
      show (Shard.settle _ _).1.tick = s.tick
      rw [(settled_settle _ _).tick_eq]

theorem tick_pass (s : Shard) : s.pass.shard.tick = s.tick + 1 := by
  rw [pass_shard]
  show s.playIfDue.shard.repopulateIfDue.shard.tick + 1 = s.tick + 1
  rw [s.playIfDue.shard.joins_repopulateIfDue.tick_eq, tick_playIfDue]

theorem tick_next_of_ne_pass {step : Step} (hstep : step ≠ .pass) :
    (s.next step).tick = s.tick := by
  unfold next
  cases step with
  | install name source filter address =>
      exact (s.joins_install name source filter address).tick_eq
  | pass => exact absurd rfl hstep
  | kill id =>
      dsimp only
      rw [shard_kill, (settled_settle _ _).tick_eq]
  | checkNames names =>
      dsimp only
      rw [shard_checkNames, (settled_settle _ _).tick_eq]
  | repopulate => exact s.joins_repopulate.tick_eq

end Shard

end CoreArena
