import CoreArena.Proofs.Battle.Installation
import CoreArena.Proofs.World.Draw
import CoreArena.World.Placement

/-! # Layouts without collisions

Each start that is drawn for a program is clear of the programs placed before it. So no two of the
programs share a cell, and when all are installed each is still in its cells:
`layout_without_collisions`. -/

namespace CoreArena

namespace Placement

/-- One of two runs of cells ends before the other begins. -/
def Beside (p q : Nat × Nat) : Prop :=
  p.1 + p.2 ≤ q.1 ∨ q.1 + q.2 ≤ p.1

theorem Beside.disjoint {p q : Nat × Nat} (h : Beside p q) :
    (List.range' p.1 p.2).Disjoint (List.range' q.1 q.2) := by
  intro i hp hq
  rw [List.mem_range'_1] at hp hq
  rcases h with h | h <;> omega

/-! ## Draws -/

section Draws

variable {γ : Type} [RandomSource γ] {placed : List (Nat × Nat)} {size length start : Nat}

theorem isClear_iff :
    isClear placed start length = true ↔ ∀ p ∈ placed, Beside p (start, length) := by
  simp [isClear, Beside, or_comm]

/-- A start that is drawn is clear and leaves room for the program. -/
theorem always_drawClear (hlength : length ≤ size) (attempts : Nat) :
    Draw.Always (drawClear (γ := γ) placed length size attempts) fun start? =>
      ∀ start ∈ start?, start + length ≤ size ∧ ∀ p ∈ placed, Beside p (start, length) := by
  induction attempts with
  | zero => exact Draw.always_pure fun start hstart => absurd hstart (Option.not_mem_none start)
  | succ attempts ih =>
      unfold drawClear
      refine (Draw.always_below (Nat.succ_pos (size - length))).bind fun start hlt => ?_
      split
      · rename_i hclear
        refine Draw.always_pure fun start' hstart => ?_
        obtain rfl := Option.mem_some_iff.mp hstart
        exact ⟨by omega, isClear_iff.mp hclear⟩
      · exact ih

/-- Starts for programs of the given lengths, beside the programs placed before. -/
structure IsLayout (size : Nat) (placed : List (Nat × Nat)) (starts lengths : List Nat) : Prop where
  fits : List.Forall₂ (fun start length => start + length ≤ size) starts lengths
  clear : ∀ p ∈ placed, ∀ q ∈ starts.zip lengths, Beside p q
  apart : (starts.zip lengths).Pairwise Beside

theorem isLayout_cons_iff {starts lengths : List Nat} :
    IsLayout size placed (start :: starts) (length :: lengths) ↔
      start + length ≤ size ∧ (∀ p ∈ placed, Beside p (start, length)) ∧
        IsLayout size (placed ++ [(start, length)]) starts lengths := by
  constructor
  · rintro ⟨hfits, hclear, hapart⟩
    obtain ⟨hfirst, hrest⟩ := List.forall₂_cons.mp hfits
    obtain ⟨hahead, hbehind⟩ := List.pairwise_cons.mp hapart
    refine ⟨hfirst, fun p hp => hclear p hp _ List.mem_cons_self, hrest, ?_, hbehind⟩
    intro p hp q hq
    rcases List.mem_append.mp hp with hp | hp
    · exact hclear p hp q (List.mem_cons_of_mem _ hq)
    · rw [List.mem_singleton.mp hp]
      exact hahead q hq
  · rintro ⟨hfits, hclear, hrest⟩
    refine ⟨.cons hfits hrest.fits, fun p hp => ?_, List.pairwise_cons.mpr ⟨?_, hrest.apart⟩⟩
    · exact List.forall_mem_cons.mpr
        ⟨hclear p hp, hrest.clear p (List.mem_append_left _ hp)⟩
    · exact hrest.clear _ (List.mem_append_right _ (List.mem_singleton_self _))

theorem IsLayout.mono {starts lengths : List Nat} {placed' : List (Nat × Nat)}
    (h : IsLayout size placed starts lengths) (hsub : placed' ⊆ placed) :
    IsLayout size placed' starts lengths :=
  { h with clear := fun p hp => h.clear p (hsub hp) }

/-- The starts that are drawn are a layout. -/
theorem always_drawStarts (size : Nat) (placed : List (Nat × Nat)) (lengths : List Nat) :
    Draw.Always (drawStarts (γ := γ) size placed lengths) fun starts? =>
      ∀ starts ∈ starts?, IsLayout size placed starts lengths := by
  induction lengths generalizing placed with
  | nil =>
      refine Draw.always_pure fun starts hstarts => ?_
      obtain rfl := Option.mem_some_iff.mp hstarts
      exact ⟨.nil, fun _ _ _ hq => absurd hq List.not_mem_nil, .nil⟩
  | cons length lengths ih =>
      unfold drawStarts
      split
      · exact Draw.always_pure fun starts hstarts => absurd hstarts (Option.not_mem_none starts)
      · rename_i hlong
        refine (always_drawClear (Nat.le_of_not_lt hlong) maxAttempts).bind fun start? hdrawn => ?_
        cases start? with
        | none =>
            exact Draw.always_pure fun starts hstarts => absurd hstarts (Option.not_mem_none starts)
        | some start =>
            obtain ⟨hfits, hclear⟩ := hdrawn start (Option.mem_some_self start)
            refine (ih (placed ++ [(start, length)])).bind fun starts? hrest => ?_
            refine Draw.always_pure fun starts hstarts => ?_
            obtain ⟨rest, hmem, rfl⟩ := Option.mem_map.mp hstarts
            exact isLayout_cons_iff.mpr ⟨hfits, hclear, hrest rest hmem⟩

end Draws

end Placement

/-! ## Installations -/

open Placement

/-- The cells of a program, as first cell and length. -/
def Warrior.cells (w : Warrior) : Nat × Nat :=
  (w.placement.start, w.program.code.length)

namespace Battle

variable {b c : Battle} {p : Program} {start : Nat}

/-- The programs of a battle are in cells of the arena, each with its own words. -/
structure Standing (b : Battle) : Prop where
  fits : ∀ w ∈ b.warriors, w.placement.start + w.program.code.length ≤ b.arena.size
  words : ∀ w ∈ b.warriors, ∀ k word, w.program.code[k]? = some word →
    (b.arena.cell (w.placement.start + k)).value = word

theorem standing_start (r : Rules) : (Battle.start r).Standing where
  fits := fun _ hw => absurd hw List.not_mem_nil
  words := fun _ hw => absurd hw List.not_mem_nil

theorem codeCell_of_fits (hfits : start + p.code.length ≤ b.arena.size) {k : Nat}
    (hk : k < p.code.length) : b.codeCell start k = start + k := by
  rw [codeCell, Arena.locate_of_lt (by omega), Nat.mod_eq_of_lt (by omega)]

/-- A program that is installed in cells of its own leaves the others where they are. -/
theorem Standing.install (h : b.Standing) (hfits : start + p.code.length ≤ b.arena.size)
    (hclear : ∀ w ∈ b.warriors, Beside w.cells (start, p.code.length))
    (hinstall : b.install p start = .ok c) :
    c.Standing ∧ c.arena.size = b.arena.size ∧
      c.warriors = b.warriors ++ [⟨p, start, p.code.length⟩] := by
  obtain ⟨hcode, hlength, -⟩ := install_eq_ok_iff.mp hinstall
  have hpos : 0 < p.code.length := List.length_pos_iff.mpr hcode
  have hat := installedAt_of_install (by omega) hinstall
  have hsize : c.arena.size = b.arena.size := hat.shape.size_eq
  have hwarriors : c.warriors = b.warriors ++ [⟨p, start, p.code.length⟩] := by
    rw [hat.warriors_eq, codeCell_of_fits hfits hpos]
    rfl
  refine ⟨⟨?_, ?_⟩, hsize, hwarriors⟩
  · intro w hw
    rw [hwarriors] at hw
    rw [hsize]
    rcases List.mem_append.mp hw with hw | hw
    · exact h.fits w hw
    · rw [List.mem_singleton.mp hw]
      exact hfits
  · intro w hw k word hword
    rw [hwarriors] at hw
    have hk := (List.getElem?_eq_some_iff.mp hword).1
    rcases List.mem_append.mp hw with hw | hw
    · rw [hat.others _ fun j hj => ?_]
      · exact h.words w hw k word hword
      · have hapart : w.placement.start + w.program.code.length ≤ start ∨
            start + p.code.length ≤ w.placement.start := hclear w hw
        rw [codeCell_of_fits hfits hj]
        omega
    · obtain rfl := List.mem_singleton.mp hw
      have hcell := hat.code k word hword
      rw [codeCell_of_fits hfits hk] at hcell
      exact congrArg Cell.value hcell

/-- The steps that install programs at starts, in order. -/
def installations (programs : List Program) (starts : List Nat) : List Step :=
  List.zipWith .install programs starts

variable {programs : List Program} {starts : List Nat}

/-- Programs that are installed according to a layout are not overwritten by one another. -/
theorem Standing.after (h : b.Standing)
    (hlayout : IsLayout b.arena.size (b.warriors.map Warrior.cells) starts
      (programs.map fun p => p.code.length)) :
    (b.after (installations programs starts)).Standing := by
  induction programs generalizing b starts with
  | nil => exact h
  | cons p programs ih =>
      cases starts with
      | nil => exact h
      | cons start starts =>
          obtain ⟨hfits, hclear, hrest⟩ := isLayout_cons_iff.mp hlayout
          show ((b.next (.install p start)).after (installations programs starts)).Standing
          rcases b.next_install p start with hrefused | hinstall
          · rw [hrefused]
            exact ih h (hrest.mono (List.subset_append_left _ _))
          · obtain ⟨hstanding, hsize, hwarriors⟩ :=
              h.install hfits (List.forall_mem_map.mp hclear) hinstall
            refine ih hstanding ?_
            rw [hsize, hwarriors, List.map_append]
            exact hrest

/-- Programs with words and numbers of their own are all installed according to a layout. -/
theorem Standing.warriors_after (h : b.Standing)
    (hlayout : IsLayout b.arena.size (b.warriors.map Warrior.cells) starts
      (programs.map fun p => p.code.length))
    (hprograms : ∀ p ∈ programs, p.code ≠ [] ∧ p.id ≠ 0)
    (hids : (b.warriors.map Warrior.id ++ programs.map Program.id).Nodup) :
    (b.after (installations programs starts)).warriors =
      b.warriors ++ List.zipWith (fun p start => ⟨p, start, p.code.length⟩) programs starts := by
  induction programs generalizing b starts with
  | nil => exact (List.append_nil _).symm
  | cons p programs ih =>
      cases starts with
      | nil => exact (List.append_nil _).symm
      | cons start starts =>
          obtain ⟨hfits, hclear, hrest⟩ := isLayout_cons_iff.mp hlayout
          have hfits : start + p.code.length ≤ b.arena.size := hfits
          obtain ⟨⟨hcode, hid⟩, hprograms⟩ := List.forall_mem_cons.mp hprograms
          have hfree : ∀ w ∈ b.warriors, w.id ≠ p.id := fun w hw =>
            (List.nodup_append.mp hids).2.2 _ (List.mem_map_of_mem hw) _ List.mem_cons_self
          obtain ⟨c, hinstall⟩ := install_succeeds_iff.mpr ⟨hcode, by omega, hid, hfree⟩
          obtain ⟨hstanding, hsize, hwarriors⟩ :=
            h.install hfits (List.forall_mem_map.mp hclear) hinstall
          have hnext : b.next (.install p start) = c := by
            rw [next, hinstall]
            rfl
          show ((b.next (.install p start)).after (installations programs starts)).warriors = _
          rw [hnext, ih hstanding ?_ hprograms ?_, hwarriors, List.append_assoc]
          · rfl
          · rw [hsize, hwarriors, List.map_append]
            exact hrest
          · rw [hwarriors, List.map_append, List.append_assoc]
            exact hids

end Battle

/-- Starts that are drawn for programs are as many as these, in their order, within the arena and so
far apart that no two programs share a cell. When the programs are installed there in a new arena,
all of them get in that have words and a number of their own, and each is in its cells in the end.
There are no starts for programs that are too long together. -/
theorem Placement.layout_without_collisions {γ : Type} [RandomSource γ] (lengths : List Nat)
    (size : Nat) (g : γ) :
    (size < lengths.foldr (· + ·) 0 → (randomLayout lengths size g).1 = none) ∧
      ∀ starts, (randomLayout lengths size g).1 = some starts →
        List.Forall₂ (fun start length => start + length ≤ size) starts lengths ∧
          ((starts.zip lengths).Pairwise fun p q =>
            (List.range' p.1 p.2).Disjoint (List.range' q.1 q.2)) ∧
          ∀ (r : Rules) (programs : List Program), r.size = size →
            (programs.map fun p => p.code.length) = lengths →
            let c := (Battle.start r).after (Battle.installations programs starts)
            (∀ w ∈ c.warriors, ∀ k word, w.program.code[k]? = some word →
                (c.arena.cell (w.placement.start + k)).value = word) ∧
              ((∀ p ∈ programs, p.code ≠ [] ∧ p.id ≠ 0) → (programs.map Program.id).Nodup →
                c.warriors =
                  List.zipWith (fun p start => ⟨p, start, p.code.length⟩) programs starts) := by
  refine ⟨fun hlong => ?_, fun starts hstarts => ?_⟩
  · rw [randomLayout, if_pos hlong]
    rfl
  · rw [randomLayout] at hstarts
    split at hstarts
    · cases hstarts
    · have hlayout := always_drawStarts size [] lengths g starts hstarts
      refine ⟨hlayout.fits, hlayout.apart.imp Beside.disjoint, ?_⟩
      rintro r programs rfl rfl
      have hsize : r.size ≤ (Battle.start r).arena.size := by
        rw [Battle.size_start]
        exact Nat.le_max_right 1 r.size
      have hroom : IsLayout (Battle.start r).arena.size
          ((Battle.start r).warriors.map Warrior.cells) starts
          (programs.map fun p => p.code.length) :=
        { hlayout with fits := hlayout.fits.imp fun _ _ hfits => hfits.trans hsize }
      have hstanding := Battle.standing_start r
      exact ⟨(hstanding.after hroom).words, hstanding.warriors_after hroom⟩

theorem Placement.layout_without_collisions_two :
    let c := (Battle.start { columnSize := 1, columnCount := 4 }).after
      (Battle.installations [⟨1, "a", [7]⟩, ⟨2, "b", [8, 9]⟩] [0, 1])
    (randomLayout [1, 2] 4 (Xoshiro.ofSeed 1)).1 = some [0, 1] ∧
      c.warriors = [⟨⟨1, "a", [7]⟩, 0, 1⟩, ⟨⟨2, "b", [8, 9]⟩, 1, 2⟩] ∧
      (c.arena.cell 0).value = 7 ∧ (c.arena.cell 2).value = 9 ∧
      (randomLayout [3, 2] 4 (Xoshiro.ofSeed 1)).1 = none := by
  intro c
  have hdrawn : (randomLayout [1, 2] 4 (Xoshiro.ofSeed 1)).1 = some [0, 1] := by decide +kernel
  obtain ⟨-, -, hinstalled⟩ :=
    (Placement.layout_without_collisions [1, 2] 4 (Xoshiro.ofSeed 1)).2 [0, 1] hdrawn
  obtain ⟨hwords, hwarriors⟩ := hinstalled { columnSize := 1, columnCount := 4 }
    [⟨1, "a", [7]⟩, ⟨2, "b", [8, 9]⟩] rfl rfl
  replace hwarriors : c.warriors = [⟨⟨1, "a", [7]⟩, 0, 1⟩, ⟨⟨2, "b", [8, 9]⟩, 1, 2⟩] :=
    hwarriors (by decide) (by decide)
  refine ⟨hdrawn, hwarriors, ?_, ?_, ?_⟩
  · exact hwords ⟨⟨1, "a", [7]⟩, 0, 1⟩ (by rw [hwarriors]; exact List.mem_cons_self) 0 7 rfl
  · exact hwords ⟨⟨2, "b", [8, 9]⟩, 1, 2⟩
      (by rw [hwarriors]; exact List.mem_cons_of_mem _ List.mem_cons_self) 1 9 rfl
  · exact (Placement.layout_without_collisions [3, 2] 4 (Xoshiro.ofSeed 1)).1 (by decide)

end CoreArena
