import CoreArena.Proofs.Battle.Semantics
import Mathlib.Data.Nat.ModEq

/-! # Installed programs

The words of a program go into consecutive cells around the ring, and an installed program has all
of them there: `values_install`. An installation does that and nothing else, and one that is refused
does nothing: `install_exact`. -/

namespace CoreArena.Battle

/-- The cell for the word at a place of a program that is installed at an address. -/
def codeCell (b : Battle) (address k : Nat) : Nat :=
  (b.arena.locate address + k) % b.arena.size

theorem nodup_addressRange {length size : Nat} (h : length ≤ size) (start : Nat) :
    (addressRange start length size).Nodup := by
  refine List.Nodup.map_on ?_ List.nodup_range
  intro j hj k hk heq
  rw [List.mem_range] at hj hk
  have hmod : j ≡ k [MOD max 1 size] := Nat.ModEq.add_left_cancel' start heq
  exact hmod.eq_of_lt_of_lt (by omega) (by omega)

section Cells

variable {owner : Word → Nat} {cells : List (Nat × Word)} {i : Nat}

theorem cell_foldl_place_of_not_mem (h : i ∉ cells.map Prod.fst) (a : Arena) :
    (cells.foldl (fun a c => a.place c.1 c.2 (owner c.2)) a).cell i = a.cell i := by
  induction cells generalizing a with
  | nil => rfl
  | cons c cells ih =>
      obtain ⟨hne, hrest⟩ : i ≠ c.1 ∧ i ∉ cells.map Prod.fst := by simpa [not_or] using h
      rw [List.foldl_cons, ih hrest, Arena.place, Arena.cell_update_of_ne a (Ne.symm hne)]

/-- Words that are placed in different cells are all there in the end, each with its owner. -/
theorem cell_foldl_place (hnodup : (cells.map Prod.fst).Nodup) {w : Word} (h : (i, w) ∈ cells)
    {a : Arena} (hi : i < a.size) :
    (cells.foldl (fun a c => a.place c.1 c.2 (owner c.2)) a).cell i =
      { a.cell i with value := w, owner := owner w } := by
  induction cells generalizing a with
  | nil => cases h
  | cons c cells ih =>
      obtain ⟨hfree, hrest⟩ := List.nodup_cons.mp hnodup
      rw [List.foldl_cons]
      rcases List.mem_cons.mp h with rfl | h
      · rw [cell_foldl_place_of_not_mem hfree, Arena.place, Arena.cell_update_self hi]
      · have hne : c.1 ≠ i := by
          rintro rfl
          exact hfree (List.mem_map.mpr ⟨_, h, rfl⟩)
        rw [ih hrest h (by rwa [Arena.size_place]), Arena.place, Arena.cell_update_of_ne a hne]

end Cells

section Code

variable {a : Arena} {code : List Word}

theorem cell_placeCode (hlength : code.length ≤ a.size) {k : Nat} {w : Word}
    (hw : code[k]? = some w) (id start : Nat) :
    (placeCode a id start code).cell ((start + k) % a.size) =
      { a.cell ((start + k) % a.size) with value := w, owner := installedOwner id w } := by
  have hk : k < code.length := (List.getElem?_eq_some_iff.mp hw).1
  have hpos : 0 < a.size := by omega
  have hmax : max 1 a.size = a.size := by omega
  refine cell_foldl_place ?_ ?_ (Nat.mod_lt _ hpos)
  · rw [List.map_fst_zip (by simp)]
    exact nodup_addressRange hlength start
  · refine List.mem_of_getElem? (i := k) ?_
    rw [List.getElem?_zip_eq_some]
    refine ⟨?_, hw⟩
    simp [addressRange, hk, hmax]

theorem cell_placeCode_of_ne (hpos : 0 < a.size) {start i : Nat}
    (h : ∀ k < code.length, i ≠ (start + k) % a.size) (id : Nat) :
    (placeCode a id start code).cell i = a.cell i := by
  have hmax : max 1 a.size = a.size := by omega
  refine cell_foldl_place_of_not_mem ?_ a
  rw [List.map_fst_zip (by simp), addressRange, hmax, List.mem_map]
  rintro ⟨k, hk, rfl⟩
  exact h k (List.mem_range.mp hk) rfl

end Code

/-- A program that was installed is in the cells for its words. -/
theorem values_install {b c : Battle} {p : Program} {address : Nat}
    (h : b.install p address = .ok c) {k : Nat} {w : Word} (hw : p.code[k]? = some w) :
    c.values (c.codeCell address k) = w := by
  obtain ⟨-, hlength, -, -, rfl⟩ := install_eq_ok_iff.mp h
  have hcell : ∀ a : Arena, a.size = b.arena.size →
      (a.locate address + k) % a.size = (b.arena.locate address + k) % b.arena.size := by
    intro a ha
    unfold Arena.locate Arena.wrap
    rw [ha]
  unfold codeCell values
  dsimp only
  rw [hcell _ (size_placeCode ..)]
  exact congrArg Cell.value (cell_placeCode hlength hw p.id _)

/-! ## All that an installation does -/

/-- A program has been installed at an address, and nothing else has changed. -/
structure InstalledAt (b : Battle) (p : Program) (address : Nat) (c : Battle) : Prop where
  code : ∀ k w, p.code[k]? = some w →
    c.arena.cell (b.codeCell address k) =
      { b.arena.cell (b.codeCell address k) with
        value := w
        owner := if (Instruction.decode w).operation = .noop then 0 else p.id }
  /-- No two words have the same cell. -/
  distinct : ∀ j < p.code.length, ∀ k < p.code.length,
    b.codeCell address j = b.codeCell address k → j = k
  others : ∀ i, (∀ k < p.code.length, i ≠ b.codeCell address k) → c.arena.cell i = b.arena.cell i
  shape : b.arena.SameShape c.arena
  warriors_eq : c.warriors = b.warriors ++ [⟨p, b.codeCell address 0, p.code.length⟩]
  groups_eq : c.groups = b.groups ++ [⟨p.id, [b.codeCell address 0], 0⟩]
  turn_eq : c.turn = b.turn
  rules_eq : c.rules = b.rules

variable {b c : Battle} {p : Program} {address : Nat}

theorem codeCell_zero (hpos : 0 < b.arena.size) (address : Nat) :
    b.codeCell address 0 = b.arena.locate address :=
  Nat.mod_eq_of_lt (Arena.locate_lt hpos address)

theorem installedAt_of_install (hpos : 0 < b.arena.size) (h : b.install p address = .ok c) :
    b.InstalledAt p address c := by
  obtain ⟨-, hlength, -, -, rfl⟩ := install_eq_ok_iff.mp h
  exact {
    code := fun k w hw => cell_placeCode hlength hw p.id _
    distinct := fun j hj k hk heq => by
      have hmod : j ≡ k [MOD b.arena.size] := Nat.ModEq.add_left_cancel' _ heq
      exact hmod.eq_of_lt_of_lt (by omega) (by omega)
    others := fun i hi => cell_placeCode_of_ne hpos hi p.id
    shape := Changes.sameShape (Relation.ReflTransGen.mono (fun _ _ => .setting) _ _
      (settings_placeCode b.arena [] p.id _ p.code))
    warriors_eq := by rw [codeCell_zero hpos]
    groups_eq := by
      rw [codeCell_zero hpos]
      rfl
    turn_eq := rfl
    rules_eq := rfl }

theorem indexOf?_isSome_eq_false_iff {id : Nat} :
    (b.indexOf? id).isSome = false ↔ ∀ w ∈ b.warriors, w.id ≠ id := by
  simp [indexOf?, List.findIdx?_isSome]

theorem install_succeeds_iff :
    (∃ c, b.install p address = .ok c) ↔ p.code ≠ [] ∧ p.code.length ≤ b.arena.size ∧ p.id ≠ 0 ∧
      ∀ w ∈ b.warriors, w.id ≠ p.id := by
  simp only [install_eq_ok_iff, exists_and_left, exists_eq, and_true,
    indexOf?_isSome_eq_false_iff]

/-- Addresses are signed 64-bit numbers that go around the ring. No memory has room for an arena
that they do not cover. -/
theorem codeCell_eq_emod (hpos : 0 < b.arena.size) (hsize : b.arena.size ≤ 0x8000000000000000)
    (address k : Nat) :
    (b.codeCell address k : Int) = (Int.bmod address UInt64.size + k) % b.arena.size := by
  have hlocate : (b.arena.locate address : Int) = Int.bmod address UInt64.size % b.arena.size := by
    unfold Arena.locate
    split
    · rename_i hlt
      have hbmod : Int.bmod address UInt64.size = address := by
        unfold UInt64.size
        apply Int.bmod_eq_of_le <;> omega
      rw [hbmod]
      exact (Int.emod_eq_of_lt (by omega) (by omega)).symm
    · exact Int.toNat_of_nonneg (Int.emod_nonneg _ (by omega))
  rw [codeCell, Int.natCast_emod, Int.natCast_add, hlocate, Int.emod_add_emod]

/-- In every battle, a program can be installed if it has words, fits into the arena and has a
number that is neither zero nor taken. Then its words are in the cells from its address on, and
nothing else has changed. Otherwise nothing has changed at all. -/
theorem install_exact (r : Rules) (steps : List Step) (p : Program) (address : Nat) :
    let b := (start r).after steps
    ((∃ c, b.install p address = .ok c) ↔ p.code ≠ [] ∧ p.code.length ≤ b.arena.size ∧ p.id ≠ 0 ∧
        ∀ w ∈ b.warriors, w.id ≠ p.id) ∧
      (∀ c, b.install p address = .ok c →
        b.next (.install p address) = c ∧ b.InstalledAt p address c) ∧
      (∀ e, b.install p address = .error e → b.next (.install p address) = b) ∧
      b.arena.size = max 1 r.size ∧
      (b.arena.size ≤ 0x8000000000000000 → ∀ k,
        (b.codeCell address k : Int) = (Int.bmod address UInt64.size + k) % b.arena.size) := by
  intro b
  have h := invariant_after_start r steps
  have hsize := size_after_start r steps
  refine ⟨install_succeeds_iff, ?_, ?_, hsize, ?_⟩
  · intro c hinstall
    refine ⟨?_, installedAt_of_install h.size_pos hinstall⟩
    rw [next, hinstall]
    rfl
  · intro e hrefused
    rw [next, hrefused]
    rfl
  · exact fun hcovered => codeCell_eq_emod h.size_pos hcovered address

/-- From the last cell on, a program goes around the end of the arena. -/
theorem install_exact_adder :
    ∃ c, ((start { columnSize := 1, columnCount := 4 }).after []).install adder 0xFFFFFFFFFFFFFFFF =
        .ok c ∧
      c.groups = [⟨1, [3], 0⟩] ∧ c.arena.cell 0 = ⟨7, 1, 0, 0⟩ ∧ c.arena.cell 2 = .untouched := by
  obtain ⟨hsucceeds, hinstalled, -⟩ :=
    install_exact { columnSize := 1, columnCount := 4 } [] adder 0xFFFFFFFFFFFFFFFF
  obtain ⟨c, hc⟩ := hsucceeds.mpr (by decide)
  obtain ⟨-, hat⟩ := hinstalled c hc
  refine ⟨c, hc, hat.groups_eq.trans (by decide +kernel), ?_, ?_⟩
  · exact (hat.code 1 7 rfl).trans (by decide +kernel)
  · exact (hat.others 2 (by decide +kernel)).trans (by decide +kernel)

end CoreArena.Battle
