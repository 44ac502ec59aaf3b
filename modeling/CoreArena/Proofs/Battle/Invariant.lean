import CoreArena.Proofs.Battle.Advance
import CoreArena.Proofs.Battle.Step

/-! # What every history of a battle keeps

Each step keeps `Invariant`, so every battle that a host can bring about has it:
`invariant_after_start`. In particular no advance ever finds the turn lost. -/

namespace CoreArena.Battle

variable {b c : Battle}

/-! ## Single steps -/

theorem Roster.invariant (h : c.Roster) (hsize : 0 < c.arena.size)
    (hturn : c.turn < c.groups.length ∨ c.turn = 0 ∧ c.groups.length = 0) : c.Invariant :=
  ⟨h, hsize, by rwa [h.length_eq]⟩

theorem Roster.keepTurn (h : c.Roster) (hsize : 0 < c.arena.size) : c.keepTurn.Invariant := by
  refine Roster.invariant (h.congr rfl rfl rfl rfl) hsize ?_
  rw [groups_keepTurn, Battle.keepTurn]
  dsimp only
  split <;> omega

theorem invariant_start (r : Rules) : (start r).Invariant :=
  (Roster.start r).invariant (Arena.size_ofRules_pos r) (.inr ⟨rfl, rfl⟩)

namespace Invariant

theorem install (h : b.Invariant) {p : Program} {address : Nat}
    (hinstall : b.install p address = .ok c) : c.Invariant := by
  have hroster := h.toRoster.install h.size_pos hinstall
  obtain ⟨-, -, -, -, rfl⟩ := install_eq_ok_iff.mp hinstall
  refine hroster.invariant ?_ (.inl ?_)
  · rw [size_placeCode]
    exact h.size_pos
  · have hlength := h.length_eq
    simp only [List.length_append, List.length_singleton]
    rcases h.turn_lt with hturn | ⟨hturn, -⟩ <;> omega

theorem size_of_run {b : Battle} {id position : Nat} {result : Except Reason Nat} {track : Track}
    (hrun : (Act.execute b.rules id position).eval ⟨b.arena, []⟩ = (result, track)) :
    track.arena.size = b.arena.size := by
  have hshape := (Act.execute_accesses b.rules id position ⟨b.arena, []⟩).sameShape
  rw [hrun] at hshape
  exact hshape.size_eq

theorem moved (h : b.Invariant) {index id position next : Nat} {track : Track}
    (hplayer : b.IsPlayer index id position)
    (hrun : (Act.execute b.rules id position).eval ⟨b.arena, []⟩ = (.ok next, track)) :
    (Battle.passTurn { b with
      arena := track.arena
      groups := b.groups.set index ⟨id, [next], 0⟩ } index).Invariant := by
  have hsize := size_of_run hrun
  have hnext : next < b.arena.size := by
    have hinside := Act.execute_leadsInside b.rules id position ⟨b.arena, []⟩ next
    rw [hrun] at hinside
    rw [← hsize]
    exact hinside rfl (hsize ▸ h.size_pos)
  have hroster : Roster { b with groups := b.groups.set index ⟨id, [next], 0⟩ } :=
    h.setGroup hplayer.group rfl ⟨Nat.le_refl 1, rfl⟩ (by simpa using hnext) fun _ => rfl
  refine Roster.invariant (hroster.congr rfl hsize rfl rfl) (hsize ▸ h.size_pos) (.inl ?_)
  refine nextLiving_lt ?_ index
  exact List.ne_nil_of_mem (List.mem_of_getElem? (List.getElem?_set_self
    (List.getElem?_eq_some_iff.mp hplayer.group).1))

theorem died (h : b.Invariant) {index id position : Nat} {reason : Reason} {track : Track}
    (hplayer : b.IsPlayer index id position)
    (hrun : (Act.execute b.rules id position).eval ⟨b.arena, []⟩ = (.error reason, track)) :
    ((b.fallen index id track.arena).bury index id position reason).battle.Invariant := by
  have hsize := size_of_run hrun
  have hpos : 0 < track.arena.size := hsize ▸ h.size_pos
  have hindex : index < (b.fallen index id track.arena).groups.length := by
    rw [fallen, List.length_set]
    exact (List.getElem?_eq_some_iff.mp hplayer.group).1
  rw [battle_bury]
  split
  · -- The body is taken out together with its number, so the rest is a roster as before.
    refine Roster.keepTurn ((h.removeAt index id).congr rfl ?_ rfl ?_) ?_
    · rw [size_arena_removeAt, size_arena_removeAt]
      exact hsize
    · rw [groups_removeAt, groups_removeAt, fallen, List.eraseIdx_set_eq]
    · rw [size_arena_removeAt]
      exact hpos
  · rename_i hforever
    have hroster : (b.fallen index id track.arena).Roster := by
      have hset : Roster { b with groups := b.groups.set index ⟨id, [], 0⟩ } :=
        h.setGroup hplayer.group rfl ⟨Nat.zero_le 1, rfl⟩ (by simp) fun hf => absurd hf hforever
      exact hset.congr rfl hsize rfl rfl
    split
    · exact hroster.invariant hpos (.inl hindex)
    · refine Roster.invariant (hroster.congr rfl rfl rfl rfl) hpos (.inl (nextLiving_lt ?_ index))
      exact List.ne_nil_of_length_pos (Nat.zero_lt_of_lt hindex)

theorem kill (h : b.Invariant) (index : Nat) : (b.kill index).battle.Invariant := by
  cases hget : b.groups[index]? with
  | none =>
      rw [kill_of_length_le (List.getElem?_eq_none_iff.mp hget)]
      exact h
  | some g =>
      rw [kill_of_getElem? hget]
      refine Roster.keepTurn ((h.removeAt index g.id).congr rfl rfl rfl rfl) ?_
      rw [size_arena_removeAt]
      exact h.size_pos

theorem poke (h : b.Invariant) (address : Nat) (w : Word) : (b.poke address w).Invariant := by
  have hsize : (b.poke address w).arena.size = b.arena.size := b.arena.size_poke _ w
  exact ⟨h.congr rfl hsize rfl rfl, hsize ▸ h.size_pos, h.turn_lt⟩

/-- Every step keeps the invariant. -/
theorem next (h : b.Invariant) (s : Step) : (b.next s).Invariant := by
  cases s with
  | install p address =>
      rcases b.next_install p address with hrefused | hinstall
      · rw [hrefused]
        exact h
      · exact h.install hinstall
  | advance =>
      show b.advance.battle.Invariant
      have hadvance := h.advance
      generalize b.advance = a at hadvance ⊢
      cases hadvance with
      | idle => exact h
      | moved hplayer hrun => exact h.moved hplayer hrun
      | died hplayer hrun => exact h.died hplayer hrun
  | kill index => exact h.kill index
  | killById id =>
      show (b.killById id).battle.Invariant
      rw [killById_eq_kill]
      exact h.kill _
  | poke address w => exact h.poke address w

/-- No step changes the rules. -/
theorem rules_next (h : b.Invariant) (s : Step) : (b.next s).rules = b.rules := by
  cases s with
  | install p address =>
      rcases b.next_install p address with hrefused | hinstall
      · rw [hrefused]
      · obtain ⟨-, -, -, -, hnext⟩ := install_eq_ok_iff.mp hinstall
        rw [hnext]
  | advance =>
      show b.advance.battle.rules = b.rules
      have hadvance := h.advance
      generalize b.advance = a at hadvance ⊢
      cases hadvance with
      | idle | moved => rfl
      | died => rw [rules_bury]; rfl
  | kill index => exact rules_kill b index
  | killById id =>
      show (b.killById id).battle.rules = b.rules
      rw [killById_eq_kill]
      exact rules_kill b _
  | poke address w => rfl

end Invariant

/-! ## Histories -/

theorem invariant_after_start (r : Rules) (steps : List Step) :
    ((start r).after steps).Invariant :=
  after_induction (fun _ s h => h.next s) (invariant_start r) steps

theorem Invariant.rules_after (h : b.Invariant) (steps : List Step) :
    (b.after steps).rules = b.rules := by
  induction steps generalizing b with
  | nil => rfl
  | cons s steps ih => exact (ih (h.next s)).trans (h.rules_next s)

end CoreArena.Battle
