import CoreArena.Proofs.Battle.Attribution
import CoreArena.Proofs.Battle.Installation
import CoreArena.Proofs.Battle.Obituary
import CoreArena.Proofs.Battle.Written

/-! # Which instance a cell belongs to

A cell keeps the number of the program that it was last attributed to, and numbers are given again.
A `Register` therefore keeps the instance that had the number at that time. Where the dead forget
what they own, it is always the one that has the number now: `Faithful`. So the number that a death
is blamed on stands for an instance that owns the cell of the death: `Faithful.of_mem_deathsAt`. -/

namespace CoreArena

open Relation

theorem Accesses.owner_of_not_written {program writer : Nat} {t u : Track}
    (h : Accesses program writer t u) {i : Nat} (hi : i ∉ Event.writtenCells u.events) :
    (u.arena.cell i).owner = (t.arena.cell i).owner := by
  induction h with
  | refl => rfl
  | tail _ hlast ih =>
      cases hlast with
      | read j =>
          rw [Event.writtenCells_append, List.mem_append, not_or] at hi
          rw [Arena.cell_update]
          split <;> exact ih hi.1
      | write j w =>
          rw [Event.writtenCells_append, List.mem_append, not_or] at hi
          have hne : j ≠ i := fun hsame => hi.2 (List.mem_singleton.mpr hsame.symm)
          rw [Arena.cell_update_of_ne _ hne]
          exact ih hi.1
      | cycle | foreign =>
          rw [Event.writtenCells_append, List.mem_append, not_or] at hi
          exact ih hi.1

namespace Battle

variable {b c : Battle} {index id position i : Nat}

/-- The cells that a step attributes to a program, or to nobody. -/
def attributes (b : Battle) : Step → List Nat
  | .install p address =>
    match b.install p address with
    | .ok _ => addressRange (b.arena.locate address) p.code.length b.arena.size
    | .error _ => []
  | .advance => Event.writtenCells b.advance.events
  | .kill _ | .killById _ | .poke .. => []

/-! ## Owners of other cells -/

/-- The owner of a cell is the one it had, or has been forgotten. -/
def Keeps (i : Nat) (b c : Battle) : Prop :=
  (c.arena.cell i).owner = (b.arena.cell i).owner ∨ (c.arena.cell i).owner = 0

theorem keeps_removeAt (b : Battle) (index id i : Nat) : Keeps i b (b.removeAt index id) := by
  unfold Keeps
  rw [arena_removeAt]
  split
  · rw [Arena.cell_clearOwner]
    split
    · exact .inr rfl
    · exact .inl rfl
  · exact .inl rfl

theorem keeps_bury (b : Battle) (index id position : Nat) (reason : Reason) (i : Nat) :
    Keeps i b (b.bury index id position reason).battle := by
  rw [battle_bury]
  split
  · exact b.keeps_removeAt index id i
  · split <;> exact .inl rfl

theorem keeps_kill (b : Battle) (index i : Nat) : Keeps i b (b.kill index).battle := by
  cases hget : b.groups[index]? with
  | none =>
      rw [kill_of_length_le (List.getElem?_eq_none_iff.mp hget)]
      exact .inl rfl
  | some g =>
      rw [kill_of_getElem? hget]
      exact b.keeps_removeAt index g.id i

theorem keeps_install {p : Program} {address : Nat} (hinstall : b.install p address = .ok c)
    (hi : i ∉ b.attributes (.install p address)) : Keeps i b c := by
  rw [attributes, hinstall] at hi
  obtain ⟨-, -, -, -, rfl⟩ := install_eq_ok_iff.mp hinstall
  left
  dsimp only
  rw [placeCode, cell_foldl_place_of_not_mem]
  rwa [List.map_fst_zip (by simp)]

theorem owner_of_run {result : Except Reason Nat} {track : Track}
    (hrun : (Act.execute b.rules id position).eval ⟨b.arena, []⟩ = (result, track))
    (hi : i ∉ Event.writtenCells track.events) :
    (track.arena.cell i).owner = (b.arena.cell i).owner := by
  have haccesses := Act.execute_accesses b.rules id position ⟨b.arena, []⟩
  rw [hrun] at haccesses
  exact haccesses.owner_of_not_written hi

/-- A step leaves the owners of all cells that it does not attribute, but for those it forgets. -/
theorem Invariant.keeps_next (h : b.Invariant) {s : Step} (hi : i ∉ b.attributes s) :
    Keeps i b (b.next s) := by
  cases s with
  | install p address =>
      rcases b.next_install p address with hrefused | hinstall
      · rw [hrefused]
        exact .inl rfl
      · exact keeps_install hinstall hi
  | advance =>
      change i ∉ Event.writtenCells b.advance.events at hi
      show Keeps i b b.advance.battle
      have hadvance := h.advance
      generalize b.advance = a at hadvance hi ⊢
      cases hadvance with
      | idle => exact .inl rfl
      | moved _ hrun => exact .inl (owner_of_run hrun hi)
      | @died index id position reason track _ hrun =>
          rw [Event.writtenCells_append, List.mem_append, not_or] at hi
          have hkept : (track.arena.cell i).owner = _ := owner_of_run hrun hi.1
          have hburied := (b.fallen index id track.arena).keeps_bury index id position reason i
          exact hburied.imp_left fun hsame => hsame.trans hkept
  | kill index => exact b.keeps_kill index i
  | killById id =>
      show Keeps i b (b.killById id).battle
      rw [killById_eq_kill]
      exact b.keeps_kill _ i
  | poke address w =>
      left
      show ((b.arena.update (b.arena.locate address) _).cell i).owner = _
      rw [Arena.cell_update]
      split <;> rfl

theorem OwnedBy.of_keeps {names : List Nat} (h : b.arena.OwnedBy names)
    (hkeeps : ∀ i, Keeps i b c) : c.arena.OwnedBy names := by
  intro i hi
  rcases hkeeps i with hkept | hnobody
  · rw [hkept] at hi ⊢
    exact h i hi
  · exact absurd hnobody hi

/-- Only numbers of programs ever get on cells. -/
theorem Invariant.ownedBy_next (h : b.Invariant) {names : List Nat} (hb : b.arena.OwnedBy names)
    (hids : b.ids ⊆ names) {s : Step} (hnext : (b.next s).ids ⊆ names) :
    (b.next s).arena.OwnedBy names := by
  cases s with
  | install p address =>
      rcases b.next_install p address with hrefused | hinstall
      · rwa [hrefused]
      · have hp : p.id ∈ names := by
          refine hnext ?_
          have hids : (b.next (.install p address)).ids = b.ids ++ [p.id] :=
            congrArg Rota.seats (rota_install hinstall)
          rw [hids]
          exact List.mem_append_right _ List.mem_cons_self
        obtain ⟨-, -, -, -, hplaced⟩ := install_eq_ok_iff.mp hinstall
        rw [hplaced]
        intro i hi
        rcases owner_placeCode b.arena p.id (b.arena.locate address) p.code i with
          hkept | hnobody | hnew
        · rw [hkept] at hi ⊢
          exact hb i hi
        · exact absurd hnobody hi
        · rwa [hnew]
  | advance =>
      show b.advance.battle.arena.OwnedBy names
      have hadvance := h.advance
      generalize b.advance = a at hadvance ⊢
      cases hadvance with
      | idle => exact hb
      | moved hplayer hrun => exact hb.run (hids hplayer.mem_ids) hrun
      | @died index id position reason track hplayer hrun =>
          have hrun : (b.fallen index id track.arena).arena.OwnedBy names :=
            hb.run (hids hplayer.mem_ids) hrun
          exact OwnedBy.of_keeps hrun (keeps_bury _ index id position reason)
  | kill | killById | poke => exact OwnedBy.of_keeps hb fun i => h.keeps_next List.not_mem_nil

/-! ## The cell of a death -/

theorem not_killed_of_run {result : Except Reason Nat} {track : Track}
    (hrun : (Act.execute b.rules id position).eval ⟨b.arena, []⟩ = (result, track))
    (victim killer : Nat) (reason : Reason) (place : Option Nat) :
    .killed victim killer reason place ∉ track.events := by
  intro hkilled
  have htells := Act.execute_tells b.rules id position ⟨b.arena, []⟩
    (.killed victim killer reason place)
  rw [hrun] at htells
  rcases htells hkilled with hnone | hreported
  · cases hnone
  · cases hreported

/-- What an instruction writes into its own cell does not make another program the owner of it. -/
theorem owner_eq_of_run {result : Except Reason Nat} {track : Track}
    (hrun : (Act.execute b.rules id position).eval ⟨b.arena, []⟩ = (result, track))
    (hother : (track.arena.cell position).owner ≠ id) :
    (b.arena.cell position).owner = (track.arena.cell position).owner := by
  have haccesses := Act.execute_accesses b.rules id position ⟨b.arena, []⟩
  rw [hrun] at haccesses
  rcases haccesses.owner position with hkept | hwritten
  · exact hkept.symm
  · unfold Act.credited at hwritten
    split at hwritten
    · exact hwritten.symm
    · exact absurd hwritten hother

/-- Whoever is blamed for a death owns the cell of it already before the fatal instruction. -/
theorem Invariant.owner_of_killed (h : b.Invariant) {s : Step} {victim killer : Nat}
    {reason : Reason} {place : Option Nat} (hkiller : killer ≠ 0)
    (hkilled : .killed victim killer reason place ∈ b.reports s) :
    ∃ position, place = some position ∧ (b.arena.cell position).owner = killer := by
  have hkill (index : Nat) (hkilled : .killed victim killer reason place ∈ (b.kill index).events) :
      False := by
    cases hget : b.groups[index]? with
    | none =>
        rw [kill_of_length_le (List.getElem?_eq_none_iff.mp hget)] at hkilled
        cases hkilled
    | some g =>
        rw [kill_of_getElem? hget, List.mem_singleton] at hkilled
        cases hkilled
        exact hkiller rfl
  cases s with
  | install | poke => cases hkilled
  | kill index => exact (hkill index hkilled).elim
  | killById id =>
      change _ ∈ (b.killById id).events at hkilled
      rw [killById_eq_kill] at hkilled
      exact (hkill _ hkilled).elim
  | advance =>
      change _ ∈ b.advance.events at hkilled
      have hadvance := h.advance
      generalize b.advance = a at hadvance hkilled
      cases hadvance with
      | idle => cases hkilled
      | moved _ hrun => exact (not_killed_of_run hrun _ _ _ _ hkilled).elim
      | @died index id position reason' track _ hrun =>
          rcases List.mem_append.mp hkilled with hkilled | hkilled
          · exact (not_killed_of_run hrun _ _ _ _ hkilled).elim
          · rw [events_bury, List.mem_singleton] at hkilled
            obtain ⟨-, hblamed, -, rfl⟩ := Event.killed.inj hkilled
            change killer = if (track.arena.cell position).owner = id then 0
              else (track.arena.cell position).owner at hblamed
            split at hblamed
            · exact absurd hblamed hkiller
            · rename_i hother
              exact ⟨position, rfl, (owner_eq_of_run hrun hother).trans hblamed.symm⟩

end Battle

/-! ## Registers -/

/-- A program has been reported dead. -/
structure Death where
  /-- The time of the step that reported it. -/
  time : Nat
  victim : Instance
  /-- The number of the program to blame, zero if nobody else is. -/
  killer : Nat
  /-- The instance that the cell, which the victim was executing, was last attributed to. -/
  holder : Option Instance
  deriving DecidableEq

/-- A chronicle that keeps the instance that each cell was last attributed to. -/
structure Register where
  chronicle : Chronicle
  holder : Nat → Option Instance

namespace Chronicle

/-- The instance that has a number, which is nobody for zero. -/
def bearer? (c : Chronicle) (number : Nat) : Option Instance :=
  if number = 0 then none else some (c.stay number)

end Chronicle

namespace Register

open Battle

def start (r : Rules) : Register :=
  ⟨.start r, fun _ => none⟩

def battle (g : Register) : Battle := g.chronicle.battle

/-- The register after a step. The cells that the step attributes belong to whoever has the number
of their owner then. -/
def next (g : Register) (s : Step) : Register where
  chronicle := g.chronicle.next s
  holder i :=
    if i ∈ g.battle.attributes s then
      (g.chronicle.next s).bearer? ((g.battle.next s).arena.cell i).owner
    else g.holder i

def after (g : Register) : List Step → Register
  | [] => g
  | s :: steps => (g.next s).after steps

def death? (g : Register) : Event → Option Death
  | .killed victim killer _ place =>
    some ⟨g.chronicle.clock, g.chronicle.stay victim, killer, place.bind g.holder⟩
  | _ => none

/-- The deaths that a step reports. -/
def deathsAt (g : Register) (s : Step) : List Death :=
  (g.battle.reports s).filterMap g.death?

/-- The deaths that a list of steps reports, in order. -/
def deaths (g : Register) : List Step → List Death
  | [] => []
  | s :: steps => g.deathsAt s ++ (g.next s).deaths steps

@[simp] theorem after_nil (g : Register) : g.after [] = g := rfl

@[simp] theorem after_cons (g : Register) (s : Step) (steps : List Step) :
    g.after (s :: steps) = (g.next s).after steps := rfl

@[simp] theorem deaths_nil (g : Register) : g.deaths [] = [] := rfl

@[simp] theorem deaths_cons (g : Register) (s : Step) (steps : List Step) :
    g.deaths (s :: steps) = g.deathsAt s ++ (g.next s).deaths steps := rfl

variable {g : Register} {s : Step} {i : Nat} {x : Instance} {d : Death}

/-- Every number on a cell stands for the instance that the cell was last attributed to. -/
structure Faithful (g : Register) : Prop where
  sound : g.chronicle.Sound
  clears : g.battle.rules.clearOwnership = true
  attributed : g.battle.Attributed
  holder_eq : ∀ i, (g.battle.arena.cell i).owner ≠ 0 →
    g.holder i = some (g.chronicle.stay (g.battle.arena.cell i).owner)

theorem faithful_start (r : Rules) (hclear : r.clearOwnership = true) : (start r).Faithful where
  sound := Chronicle.sound_start r
  clears := hclear
  attributed := attributed_start r
  holder_eq i hi := absurd (attributed_start r i hi) List.not_mem_nil

namespace Faithful

theorem next (h : g.Faithful) (s : Step) : (g.next s).Faithful where
  sound := h.sound.next s
  clears := by
    rw [show (g.next s).battle.rules = _ from h.sound.battle.rules_next s]
    exact h.clears
  attributed := h.sound.battle.attributed_next h.clears h.attributed s
  holder_eq := by
    intro i hi
    change ((g.battle.next s).arena.cell i).owner ≠ 0 at hi
    show (if _ then _ else _) =
      some ((g.chronicle.next s).stay ((g.battle.next s).arena.cell i).owner)
    split
    · exact if_neg hi
    · rename_i hother
      rcases h.sound.battle.keeps_next hother with hkept | hforgotten
      · change ((g.battle.next s).arena.cell i).owner = (g.battle.arena.cell i).owner at hkept
        rw [hkept] at hi ⊢
        rw [h.holder_eq i hi]
        -- The owner has been there before the step, so it is the same instance as before.
        have hmem : (g.battle.arena.cell i).owner ∈ g.chronicle.battle.ids := h.attributed i hi
        simp only [Chronicle.stay, Chronicle.next, if_pos hmem]
      · exact absurd hforgotten hi

/-- Whoever is blamed for a death is another program of the battle, and the cell of the death was
last attributed to this very instance. -/
theorem of_mem_deathsAt (h : g.Faithful) (hd : d ∈ g.deathsAt s) (hkiller : d.killer ≠ 0) :
    d.time = g.chronicle.clock ∧ d.killer ∈ g.battle.ids ∧ d.victim.id ≠ d.killer ∧
      d.holder = some (g.chronicle.stay d.killer) := by
  obtain ⟨e, he, hdeath⟩ := List.mem_filterMap.mp hd
  cases e with
  | killed victim killer reason place =>
      cases hdeath
      change killer ≠ 0 at hkiller
      obtain ⟨hother, hmem, -⟩ :=
        h.sound.battle.blames_next h.attributed he (.killed reason place hkiller)
      obtain ⟨position, rfl, howner⟩ := h.sound.battle.owner_of_killed hkiller he
      refine ⟨rfl, hmem, hother.symm, ?_⟩
      show g.holder position = some (g.chronicle.stay killer)
      change (g.battle.arena.cell position).owner = killer at howner
      rw [h.holder_eq position (by rwa [howner]), howner]
  | read | written | cycle | foreign => cases hdeath

end Faithful

end Register

end CoreArena
