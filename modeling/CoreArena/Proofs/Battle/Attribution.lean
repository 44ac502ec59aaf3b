import CoreArena.Proofs.Battle.Order

/-! # Whoever is named is there

Where the dead forget what they own, a cell belongs to nobody or to a program of the battle, and so
only programs of the battle are blamed for what happens to others: `attribution_after_start`. -/

namespace CoreArena

open Relation

/-- An event blames a program for what happened to another one. -/
inductive Event.Blames (other subject : Nat) : Event → Prop where
  | foreign : Blames other subject (.foreign subject other)
  | killed (reason : Reason) (place : Option Nat) (h : other ≠ 0) :
      Blames other subject (.killed subject other reason place)

theorem Accesses.owner {program writer : Nat} {t u : Track} (h : Accesses program writer t u)
    (i : Nat) :
    (u.arena.cell i).owner = (t.arena.cell i).owner ∨ (u.arena.cell i).owner = writer := by
  induction h with
  | refl => exact .inl rfl
  | tail _ hlast ih =>
      cases hlast with
      | read j =>
          rw [Arena.cell_update]
          split <;> exact ih
      | write j w =>
          rw [Arena.cell_update]
          split
          · exact .inr rfl
          · exact ih
      | cycle | foreign => exact ih

/-- Whoever owns a cell has one of some numbers. -/
def Arena.OwnedBy (names : List Nat) (a : Arena) : Prop :=
  ∀ i, (a.cell i).owner ≠ 0 → (a.cell i).owner ∈ names

/-- What an execution writes belongs to its program, or to the author of the instruction. -/
theorem Arena.OwnedBy.run {names : List Nat} {a : Arena} (h : a.OwnedBy names) {rules : Rules}
    {id position : Nat} (hid : id ∈ names) {result : Except Reason Nat} {track : Track}
    (hrun : (Act.execute rules id position).eval ⟨a, []⟩ = (result, track)) :
    track.arena.OwnedBy names := by
  intro i hi
  have haccesses := Act.execute_accesses rules id position ⟨a, []⟩
  rw [hrun] at haccesses
  rcases haccesses.owner i with hkept | hwritten
  · rw [hkept] at hi ⊢
    exact h i hi
  · rw [hwritten]
    unfold Act.credited
    split
    · rename_i hauthor
      rw [Bool.and_eq_true, bne_iff_ne] at hauthor
      exact h position hauthor.2
    · exact hid

namespace Battle

variable {b c : Battle} {index id position : Nat}

theorem owner_placeCode (a : Arena) (program start : Nat) (code : List Word) (i : Nat) :
    ((placeCode a program start code).cell i).owner = (a.cell i).owner ∨
      ((placeCode a program start code).cell i).owner = 0 ∨
      ((placeCode a program start code).cell i).owner = program := by
  unfold placeCode
  generalize (addressRange start code.length a.size).zip code = cells
  induction cells generalizing a with
  | nil => exact .inl rfl
  | cons c cells ih =>
      rcases ih (a.place c.1 c.2 (installedOwner program c.2)) with hkept | hnew
      · rw [List.foldl_cons, hkept, Arena.place, Arena.cell_update]
        split
        · refine .inr ?_
          show installedOwner program c.2 = 0 ∨ installedOwner program c.2 = program
          unfold installedOwner
          split
          · exact .inl rfl
          · exact .inr rfl
        · exact .inl rfl
      · exact .inr hnew

/-! ## Owners -/

/-- A cell that belongs to somebody belongs to a program of the battle. -/
def Attributed (b : Battle) : Prop :=
  ∀ i, (b.arena.cell i).owner ≠ 0 → (b.arena.cell i).owner ∈ b.ids

theorem attributed_start (r : Rules) : (start r).Attributed := by
  intro i hi
  rw [cell_start] at hi
  exact absurd rfl hi

theorem IsPlayer.mem_ids (h : b.IsPlayer index id position) : id ∈ b.ids :=
  List.mem_map.mpr ⟨_, List.mem_of_getElem? h.group, rfl⟩

theorem IsPlayer.ids_set (h : b.IsPlayer index id position) (pointers : List Nat) :
    (b.groups.set index ⟨id, pointers, 0⟩).map PointerGroup.id = b.ids := by
  obtain ⟨front, back, hgroups, rfl, -⟩ := h.exists_split
  rw [ids, hgroups, set_length_append]
  simp

namespace Attributed

theorem congr (h : b.Attributed) (howner : ∀ i, (c.arena.cell i).owner = (b.arena.cell i).owner)
    (hids : c.ids = b.ids) : c.Attributed := by
  intro i
  rw [howner i, hids]
  exact h i

/-- What an execution writes belongs to its program, or to the author of the instruction. -/
theorem run (h : b.Attributed) (hid : id ∈ b.ids) {result : Except Reason Nat} {track : Track}
    (hrun : (Act.execute b.rules id position).eval ⟨b.arena, []⟩ = (result, track)) (i : Nat)
    (hi : (track.arena.cell i).owner ≠ 0) : (track.arena.cell i).owner ∈ b.ids :=
  Arena.OwnedBy.run h hid hrun i hi

theorem removeAt (h : b.Attributed) (hclear : b.rules.clearOwnership = true) {g : PointerGroup}
    (hget : b.groups[index]? = some g) : (b.removeAt index g.id).Attributed := by
  obtain ⟨front, back, hgroups, rfl⟩ := exists_append_of_getElem? hget
  intro i hi
  rw [arena_removeAt, if_pos hclear, Arena.cell_clearOwner] at hi ⊢
  split at hi
  · exact absurd rfl hi
  · rename_i hother
    rw [if_neg hother]
    have hmem := h i hi
    rw [ids, groups_removeAt, hgroups, eraseIdx_length_append, List.map_append, List.mem_append]
    rw [ids, hgroups, List.map_append, List.map_cons, List.mem_append, List.mem_cons] at hmem
    exact hmem.imp id fun hmem => hmem.resolve_left hother

theorem install (h : b.Attributed) {p : Program} {address : Nat}
    (hinstall : b.install p address = .ok c) : c.Attributed := by
  obtain ⟨-, -, -, -, rfl⟩ := install_eq_ok_iff.mp hinstall
  intro i hi
  dsimp only at hi ⊢
  rw [ids, List.map_append, List.mem_append]
  rcases owner_placeCode b.arena p.id (b.arena.locate address) p.code i with hkept | hnobody | hnew
  · rw [hkept] at hi ⊢
    exact .inl (h i hi)
  · exact absurd hnobody hi
  · rw [hnew]
    exact .inr List.mem_cons_self

theorem moved (h : b.Attributed) (hplayer : b.IsPlayer index id position) {next : Nat}
    {track : Track}
    (hrun : (Act.execute b.rules id position).eval ⟨b.arena, []⟩ = (.ok next, track)) :
    (Battle.passTurn { b with
      arena := track.arena
      groups := b.groups.set index ⟨id, [next], 0⟩ } index).Attributed := by
  intro i hi
  rw [ids, groups_passTurn, hplayer.ids_set]
  exact h.run hplayer.mem_ids hrun i hi

theorem fallen (h : b.Attributed) (hplayer : b.IsPlayer index id position) {reason : Reason}
    {track : Track}
    (hrun : (Act.execute b.rules id position).eval ⟨b.arena, []⟩ = (.error reason, track)) :
    (b.fallen index id track.arena).Attributed := by
  intro i hi
  rw [ids, Battle.fallen, hplayer.ids_set]
  exact h.run hplayer.mem_ids hrun i hi

theorem bury (h : b.Attributed) (hclear : b.rules.clearOwnership = true)
    (hget : b.groups[index]? = some ⟨id, [], 0⟩) (position : Nat) (reason : Reason) :
    (b.bury index id position reason).battle.Attributed := by
  rw [battle_bury]
  split
  · exact (h.removeAt hclear hget).congr (fun _ => rfl) rfl
  · split
    · exact h
    · exact h.congr (fun _ => rfl) rfl

theorem kill (h : b.Attributed) (hclear : b.rules.clearOwnership = true) (index : Nat) :
    (b.kill index).battle.Attributed := by
  cases hget : b.groups[index]? with
  | none =>
      rw [kill_of_length_le (List.getElem?_eq_none_iff.mp hget)]
      exact h
  | some g =>
      rw [kill_of_getElem? hget]
      exact (h.removeAt hclear hget).congr (fun _ => rfl) rfl

end Attributed

theorem IsPlayer.getElem?_fallen (h : b.IsPlayer index id position) (a : Arena) :
    (b.fallen index id a).groups[index]? = some ⟨id, [], 0⟩ :=
  List.getElem?_set_self (List.getElem?_eq_some_iff.mp h.group).1

/-- Every step keeps that cells belong to programs of the battle. -/
theorem Invariant.attributed_next (h : b.Invariant) (hclear : b.rules.clearOwnership = true)
    (hb : b.Attributed) (s : Step) : (b.next s).Attributed := by
  cases s with
  | install p address =>
      rcases b.next_install p address with hrefused | hinstall
      · rw [hrefused]
        exact hb
      · exact hb.install hinstall
  | advance =>
      show b.advance.battle.Attributed
      have hadvance := h.advance
      generalize b.advance = a at hadvance ⊢
      cases hadvance with
      | idle => exact hb
      | moved hplayer hrun => exact hb.moved hplayer hrun
      | died hplayer hrun =>
          exact (hb.fallen hplayer hrun).bury hclear (hplayer.getElem?_fallen _) _ _
  | kill index => exact hb.kill hclear index
  | killById id =>
      show (b.killById id).battle.Attributed
      rw [killById_eq_kill]
      exact hb.kill hclear _
  | poke address w =>
      refine hb.congr (fun i => ?_) rfl
      show ((b.arena.update (b.arena.locate address) _).cell i).owner = _
      rw [Arena.cell_update]
      split <;> rfl

theorem attributed_after_start (r : Rules) (hclear : r.clearOwnership = true) (steps : List Step) :
    ((start r).after steps).Attributed := by
  have hall := after_induction (P := fun b => b.Invariant ∧ b.rules.clearOwnership = true ∧
    b.Attributed) ?_ ⟨invariant_start r, hclear, attributed_start r⟩ steps
  · exact hall.2.2
  · rintro b s ⟨h, hclear, hb⟩
    refine ⟨h.next s, ?_, h.attributed_next hclear hb s⟩
    rw [h.rules_next s]
    exact hclear

/-! ## Blame -/

variable {other subject : Nat} {e : Event}

/-- An execution blames nobody but the author of its instruction. -/
theorem Attributed.blames_run (hb : b.Attributed) {result : Except Reason Nat} {track : Track}
    (hrun : (Act.execute b.rules id position).eval ⟨b.arena, []⟩ = (result, track))
    (he : e ∈ track.events) (hblames : e.Blames other subject) :
    subject = id ∧ other ≠ id ∧ other ∈ b.ids := by
  have htells := Act.execute_tells b.rules id position ⟨b.arena, []⟩ e
  rw [hrun] at htells
  rcases htells he with hnone | hreported
  · cases hnone
  · cases hreported with
    | read | written | cycle => cases hblames
    | foreign hsome hother =>
        cases hblames
        exact ⟨rfl, hother, hb position hsome⟩

theorem blames_bury (hb : b.Attributed) {reason : Reason}
    (he : e ∈ (b.bury index id position reason).events) (hblames : e.Blames other subject) :
    subject = id ∧ other ≠ id ∧ other ∈ b.ids := by
  rw [events_bury, List.mem_singleton] at he
  subst he
  by_cases howner : (b.arena.cell position).owner = id
  · rw [if_pos howner] at hblames
    cases hblames with
    | killed _ _ hsome => exact absurd rfl hsome
  · rw [if_neg howner] at hblames
    cases hblames with
    | killed _ _ hsome => exact ⟨rfl, howner, hb position hsome⟩

theorem IsPlayer.mem_ids_bury (h : b.IsPlayer index id position) (a : Arena) (reason : Reason)
    (hother : other ≠ id) (hmem : other ∈ b.ids) :
    other ∈ ((b.fallen index id a).bury index id position reason).battle.ids := by
  obtain ⟨front, back, hgroups, rfl, -⟩ := h.exists_split
  rw [ids, hgroups, List.map_append, List.map_cons, List.mem_append, List.mem_cons] at hmem
  rw [ids, groups_bury, fallen, hgroups, set_length_append, eraseIdx_length_append]
  split
  · rw [List.map_append, List.mem_append]
    exact hmem.imp_right fun hmem => hmem.resolve_left hother
  · rw [List.map_append, List.map_cons, List.mem_append, List.mem_cons]
    exact hmem

/-- Whoever is blamed is another program, and is there before the step and after it. -/
theorem Invariant.blames_next (h : b.Invariant) (hb : b.Attributed) {s : Step}
    (he : e ∈ b.reports s) (hblames : e.Blames other subject) :
    other ≠ subject ∧ other ∈ b.ids ∧ other ∈ (b.next s).ids := by
  have hkill (index : Nat) (he : e ∈ (b.kill index).events) : False := by
    cases hget : b.groups[index]? with
    | none =>
        rw [kill_of_length_le (List.getElem?_eq_none_iff.mp hget)] at he
        cases he
    | some g =>
        rw [kill_of_getElem? hget, List.mem_singleton] at he
        subst he
        cases hblames with
        | killed _ _ hsome => exact hsome rfl
  cases s with
  | install | poke => cases he
  | kill index => exact (hkill index he).elim
  | killById id =>
      change e ∈ (b.killById id).events at he
      rw [killById_eq_kill] at he
      exact (hkill _ he).elim
  | advance =>
      change e ∈ b.advance.events at he
      show _ ∧ _ ∧ other ∈ b.advance.battle.ids
      have hadvance := h.advance
      generalize b.advance = a at hadvance he ⊢
      cases hadvance with
      | idle => cases he
      | moved hplayer hrun =>
          obtain ⟨rfl, hother, hmem⟩ := hb.blames_run hrun he hblames
          refine ⟨hother, hmem, ?_⟩
          rw [ids, groups_passTurn, hplayer.ids_set]
          exact hmem
      | @died index id position reason track hplayer hrun =>
          have hnamed : subject = id ∧ other ≠ id ∧ other ∈ b.ids := by
            rcases List.mem_append.mp he with he | he
            · exact hb.blames_run hrun he hblames
            · have hids : (b.fallen index id track.arena).ids = b.ids := hplayer.ids_set []
              rw [← hids]
              exact blames_bury (hb.fallen hplayer hrun) he hblames
          obtain ⟨rfl, hother, hmem⟩ := hnamed
          exact ⟨hother, hmem, hplayer.mem_ids_bury _ _ hother hmem⟩

/-- Where programs that are taken out no longer own cells, every owner of a cell is a program of the
battle. Whoever is named as the author of an instruction that another one executes, or as a killer,
is a program of the battle and not the one that executes or dies. In a persistent battle it lives.
-/
theorem attribution_after_start (r : Rules) (hclear : r.clearOwnership = true) (steps : List Step) :
    (∀ i, (((start r).after steps).arena.cell i).owner ≠ 0 →
      (((start r).after steps).arena.cell i).owner ∈
        ((start r).after steps).warriors.map Warrior.id) ∧
    ∀ s, ∀ e ∈ ((start r).after steps).reports s, ∀ other subject, e.Blames other subject →
      other ≠ subject ∧
      other ∈ ((start r).after steps).warriors.map Warrior.id ∧
      other ∈ (((start r).after steps).next s).warriors.map Warrior.id ∧
      (r.runForever = true →
        ∃ g ∈ (((start r).after steps).next s).groups, g.id = other ∧ g.isDead = false) := by
  have h := invariant_after_start r steps
  have hb := attributed_after_start r hclear steps
  refine ⟨fun i hi => h.ids_eq ▸ hb i hi, fun s e he other subject hblames => ?_⟩
  obtain ⟨hother, hmem, hmem'⟩ := h.blames_next hb he hblames
  refine ⟨hother, h.ids_eq ▸ hmem, (h.next s).ids_eq ▸ hmem', fun hforever => ?_⟩
  obtain ⟨g, hg, hid⟩ := List.mem_map.mp hmem'
  refine ⟨g, hg, hid, (h.next s).alive ?_ g hg⟩
  rwa [h.rules_next s, (invariant_start r).rules_after steps]

/-- A program that stays where it is, with a cell of data behind it. -/
def trapper (id : Nat) : Program :=
  ⟨id, "trapper", [Instruction.encode ⟨.jump, some ⟨0, 0⟩, none⟩, 7]⟩

theorem attribution_after_start_trapper :
    Event.killed 1 2 .notExecutable (some 0) ∈
        ((start { columnSize := 1, columnCount := 3, runForever := true }).after
          [.install (idler 1) 0, .install (trapper 2) 2]).reports .advance ∧
      2 ∈ (((start { columnSize := 1, columnCount := 3, runForever := true }).after
          [.install (idler 1) 0, .install (trapper 2) 2]).next .advance).warriors.map
            Warrior.id := by
  have hkilled : Event.killed 1 2 .notExecutable (some 0) ∈
      ((start { columnSize := 1, columnCount := 3, runForever := true }).after
        [.install (idler 1) 0, .install (trapper 2) 2]).reports .advance := by
    decide +kernel
  obtain ⟨-, hblames⟩ := attribution_after_start
    { columnSize := 1, columnCount := 3, runForever := true } rfl
    [.install (idler 1) 0, .install (trapper 2) 2]
  obtain ⟨-, -, hinstalled, -⟩ := hblames .advance _ hkilled 2 1 (.killed _ _ (by decide))
  exact ⟨hkilled, hinstalled⟩

end Battle

end CoreArena
