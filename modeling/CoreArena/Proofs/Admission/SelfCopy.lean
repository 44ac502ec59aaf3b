import CoreArena.Admission.Worm
import CoreArena.Proofs.Battle.Installation
import CoreArena.Proofs.Battle.Written
import CoreArena.Proofs.Instruction.Encoding

/-! # Admitted programs that copy themselves

The content filter refuses an instruction that stores its own word at distance 1 or just past the
end of its program: `verdict?_eq_none_iff`. It compares distances as numbers, while an arena takes
them around its ring, so a distance that is longer by the size of the arena leads to the same cell
and passes. `admitted_selfCopy` tells exactly which admitted instructions reach these cells. -/

namespace CoreArena

/-- An instruction takes the word of its own cell and stores it at a distance. -/
inductive Instruction.CopiesItself : Instruction → Int → Prop
  | copy (distance : Int) : CopiesItself ⟨.copy, some .zero, some (.direct distance)⟩ distance
  | move (distance : Int) : CopiesItself ⟨.move, some .zero, some (.direct distance)⟩ distance
  | write (distance : Int) : CopiesItself ⟨.write, some ⟨1, 0⟩, some (.direct distance)⟩ distance

/-! ## What the filter sees -/

namespace Admission

variable {w : Word} {distance : Int}

theorem ofNibble_of_inRange (h : Operand.InRange w.toInt) :
    Operation.ofNibble w.nibble = .data ∨ Operation.ofNibble w.nibble = .invalid := by
  have hrange := Operand.inRange_iff.mp h
  have hnibble : w.nibble = 0 ∨ w.nibble = 15 := by
    unfold Word.nibble
    omega
  rcases hnibble with h | h
  · exact .inl (by rw [h]; rfl)
  · exact .inr (by rw [h]; rfl)

theorem copiesItself_taking_iff {op : Operation} {a b : Operand} :
    (op.taking a b).CopiesItself distance ↔
      (op = .copy ∧ a = .zero ∨ op = .move ∧ a = .zero ∨ op = .write ∧ a = ⟨1, 0⟩) ∧
        b = .direct distance := by
  constructor
  · generalize hi : op.taking a b = i
    intro h
    cases h <;> cases op <;> cases hi <;> simp
  · rintro ⟨⟨rfl, rfl⟩ | ⟨rfl, rfl⟩ | ⟨rfl, rfl⟩, rfl⟩
    · exact .copy distance
    · exact .move distance
    · exact .write distance

/-- The filter's test of a word is about the instruction that the word decodes as. -/
theorem copiesItselfTo_iff :
    copiesItselfTo w distance = true ↔ (Instruction.decode w).CopiesItself distance := by
  have hnibble : (Fields.ofWord w).number = w.nibble := rfl
  simp only [copiesItselfTo, hnibble, Bool.and_eq_true, beq_iff_eq]
  by_cases hrange : Operand.InRange w.toInt
  · rw [Instruction.decode_of_inRange hrange]
    refine iff_of_false ?_ nofun
    rcases ofNibble_of_inRange hrange with h | h <;> simp [h]
  · rw [Instruction.decode_of_not_inRange hrange, copiesItself_taking_iff]
    cases Operation.ofNibble w.nibble <;> simp

theorem isWormFragment_iff {ws : List Word} :
    isWormFragment ws = true ↔ ∃ w ∈ ws, (Instruction.decode w).CopiesItself 1 := by
  simp [isWormFragment, copiesItselfTo_iff]

theorem isSimpleWorm_iff {ws : List Word} :
    isSimpleWorm ws = true ↔
      ∃ k w, ws[k]? = some w ∧ (Instruction.decode w).CopiesItself (ws.length - (k : Nat)) := by
  simp only [isSimpleWorm, List.any_eq_true, copiesItselfTo_iff]
  constructor
  · rintro ⟨⟨w, k⟩, hmem, hself⟩
    exact ⟨k, w, List.mk_mem_zipIdx_iff_getElem?.mp hmem, hself⟩
  · rintro ⟨k, w, hw, hself⟩
    exact ⟨(w, k), List.mk_mem_zipIdx_iff_getElem?.mpr hw, hself⟩

/-- What passes the filter are whole words, none of which stores itself at distance 1 or just past
their end. -/
theorem verdict?_eq_none_iff {bytes : List UInt8} :
    verdict? bytes = none ↔ ∃ ws, Bytecode.decode? bytes = some ws ∧
      ∀ (k : Nat) (w : Word), ws[k]? = some w → ∀ distance,
        (Instruction.decode w).CopiesItself distance →
          distance ≠ 1 ∧ distance ≠ ws.length - k := by
  unfold verdict?
  cases Bytecode.decode? bytes with
  | none => simp
  | some ws =>
      simp only [Option.some.injEq, exists_eq_left']
      constructor
      · intro h
        split at h
        · cases h
        split at h
        · cases h
        rename_i hsimple hfragment
        intro k w hw distance hself
        constructor
        · rintro rfl
          exact hfragment (isWormFragment_iff.mpr ⟨w, List.mem_of_getElem? hw, hself⟩)
        · rintro rfl
          exact hsimple (isSimpleWorm_iff.mpr ⟨k, w, hw, hself⟩)
      · intro h
        have hsimple : ¬ isSimpleWorm ws = true := by
          rw [isSimpleWorm_iff]
          rintro ⟨k, w, hw, hself⟩
          exact (h k w hw _ hself).2 rfl
        have hfragment : ¬ isWormFragment ws = true := by
          rw [isWormFragment_iff]
          rintro ⟨w, hmem, hself⟩
          obtain ⟨k, hw⟩ := List.mem_iff_getElem?.mp hmem
          exact (h k w hw _ hself).1 rfl
        rw [if_neg hsimple, if_neg hfragment]

end Admission

/-! ## What an arena makes of it -/

namespace View

variable {v : View}

theorem address_eq_iff (h : 0 < v.size) {d e : Int} :
    v.address d = v.address e ↔ (v.size : Int) ∣ d - e := by
  have hpos : (v.size : Int) ≠ 0 := by omega
  have hd := Int.emod_nonneg (v.position + d) hpos
  have he := Int.emod_nonneg (v.position + e) hpos
  calc
    v.address d = v.address e ↔ (v.position + d) % v.size = (v.position + e) % v.size := by
      unfold address
      omega
    _ ↔ (v.size : Int) ∣ d - e := by
      rw [Int.emod_eq_emod_iff_emod_sub_eq_zero, Int.add_sub_add_left, Int.dvd_iff_emod_eq_zero]

theorem address_zero (h : v.position < v.size) : v.address 0 = v.position := by
  have hmod : ((v.position : Int) + 0) % v.size = v.position := by
    rw [Int.add_zero]
    exact Int.emod_eq_of_lt (by omega) (by omega)
  rw [address, hmod, Int.toNat_natCast]

theorem operand_self (h : v.position < v.size) :
    v.operand ⟨1, 0⟩ = (v.cells v.position).toInt := by
  show (v.cells (v.address 0)).toInt = _
  rw [address_zero h]

theorem store_iff {distance : Int} {w : Word} {i : Nat} :
    i ∈ [v.address distance] ∧ v.store distance w i = w ↔ i = v.address distance := by
  rw [List.mem_singleton]
  refine ⟨And.left, ?_⟩
  rintro rfl
  exact ⟨rfl, Function.update_self ..⟩

theorem store_clear_iff {distance : Int} {w : Word} {origin i : Nat} (hw : w ≠ 0)
    (horigin : origin ≠ v.address distance) :
    i ∈ [v.address distance, origin] ∧ Function.update (v.store distance w) origin 0 i = w ↔
      i = v.address distance := by
  constructor
  · rintro ⟨hmem, hvalue⟩
    rcases List.mem_cons.mp hmem with heq | hmem
    · exact heq
    · obtain rfl := List.mem_singleton.mp hmem
      rw [Function.update_self] at hvalue
      exact absurd hvalue.symm hw
  · rintro rfl
    refine ⟨List.mem_cons_self, ?_⟩
    rw [Function.update_of_ne (Ne.symm horigin)]
    exact Function.update_self ..

/-- An instruction that copies itself leaves its word in one cell that it writes, the one at its
distance. A move clears its own cell, which then no longer has the word. -/
theorem stores_iff (h : v.position < v.size) {distance : Int}
    (hself : (Instruction.decode (v.cells v.position)).CopiesItself distance) {i : Nat} :
    (i ∈ v.writes (.decode (v.cells v.position)) ∧
      (v.effect (.decode (v.cells v.position))).cells i = v.cells v.position) ↔
        i = v.address distance := by
  have hword : v.cells v.position ≠ 0 := by
    intro hzero
    rw [hzero] at hself
    cases hself
  generalize Instruction.decode (v.cells v.position) = instruction at hself ⊢
  cases hself with
  | copy =>
      have hcells : (v.effect ⟨.copy, some .zero, some (.direct distance)⟩).cells =
          v.store distance (v.cells v.position) := by
        show v.store distance (v.cells (v.address 0)) = _
        rw [address_zero h]
      rw [hcells]
      exact store_iff
  | write =>
      have hcells : (v.effect ⟨.write, some ⟨1, 0⟩, some (.direct distance)⟩).cells =
          v.store distance (v.cells v.position) := by
        show v.store distance (.ofInt (v.operand ⟨1, 0⟩)) = _
        rw [operand_self h, Int32.ofInt_toInt]
      rw [hcells]
      exact store_iff
  | move =>
      have hwrites : v.writes ⟨.move, some .zero, some (.direct distance)⟩ =
          if v.position = v.address distance then [v.address distance]
          else [v.address distance, v.position] := by
        show (if v.address 0 = v.address distance then [v.address distance]
          else [v.address distance, v.address 0]) = _
        rw [address_zero h]
      have hcells : (v.effect ⟨.move, some .zero, some (.direct distance)⟩).cells =
          if v.position = v.address distance then v.store distance (v.cells v.position)
          else Function.update (v.store distance (v.cells v.position)) v.position 0 := by
        show (if v.address 0 = v.address distance then v.store distance (v.cells (v.address 0))
          else Function.update (v.store distance (v.cells (v.address 0))) (v.address 0) 0) = _
        rw [address_zero h]
      rw [hwrites, hcells]
      -- A move onto its own cell does not clear it.
      by_cases hstay : v.position = v.address distance
      · rw [if_pos hstay, if_pos hstay]
        exact store_iff
      · rw [if_neg hstay, if_neg hstay]
        exact store_clear_iff hword hstay

end View

namespace Battle

/-- The next advance writes a word to a cell and leaves it there. -/
def Stores (b : Battle) (w : Word) (i : Nat) : Prop :=
  i ∈ Event.writtenCells b.advance.events ∧ b.advance.battle.values i = w

variable {b : Battle}

theorem lt_of_executing (h : b.Invariant) {id position : Nat}
    (hturn : b.executing? = some (id, position)) : position < b.arena.size := by
  obtain ⟨index, hplayer⟩ := h.isPlayer_of_executing hturn
  exact h.pointer_lt _ (List.mem_of_getElem? hplayer.group) _ List.mem_cons_self

/-- An instruction that copies itself stores its word in one cell, the one at its distance. -/
theorem stores_iff (h : b.Invariant) (hholds : b.arena.Holds b.arena.size b.values)
    {id position : Nat} (hturn : b.executing? = some (id, position)) {distance : Int}
    (hself : (Instruction.decode (b.values position)).CopiesItself distance) {i : Nat} :
    b.Stores (b.values position) i ↔ i = (b.viewFrom position).address distance := by
  rw [Stores, written_advance h hholds hturn, (advance_of_holds h hholds hturn).1]
  exact View.stores_iff (v := b.viewFrom position) (lt_of_executing h hturn) hself

/-- Seen from one cell of a program, the others are at the distance of their places. -/
theorem address_viewFrom_codeCell (b : Battle) (address k j : Nat) :
    (b.viewFrom (b.codeCell address k)).address ((j : Int) - k) = b.codeCell address j := by
  unfold View.address viewFrom codeCell
  dsimp only
  have hmod : (((b.arena.locate address + k) % b.arena.size : Nat) + ((j : Int) - k)) %
      b.arena.size = ((b.arena.locate address + j) % b.arena.size : Nat) := by
    push_cast
    rw [Int.emod_add_emod]
    congr 1
    omega
  rw [hmod, Int.toNat_natCast]

theorem codeCell_congr {c : Battle} (h : c.arena.size = b.arena.size) (address k : Nat) :
    c.codeCell address k = b.codeCell address k := by
  unfold codeCell Arena.locate Arena.wrap
  rw [h]

end Battle

namespace Admission

open Battle

theorem inRange_of_copiesItself {w : Word} {distance : Int}
    (h : (Instruction.decode w).CopiesItself distance) : Operand.InRange distance := by
  obtain ⟨-, hsecond⟩ := Instruction.fits_decode w
  generalize Instruction.decode w = i at h hsecond
  cases h <;> exact hsecond

theorem size_after_persistent (steps : List Step) :
    ((start .persistent).after steps).arena.size = 1280 := by
  rw [(sameShape_after (invariant_start .persistent) steps).size_eq]
  exact Arena.size_make ..

/-- In the persistent arena, an instruction of an installed program that copies itself reaches the
cell for another place exactly if its distance is that of the places, up to whole rounds. -/
theorem stores_codeCell_iff {p : Program} {before more : List Step} {address : Nat} {c : Battle}
    (hinstall : ((start .persistent).after before).install p address = .ok c) {w : Word}
    {distance : Int} (hself : (Instruction.decode w).CopiesItself distance) {id k : Nat}
    (hturn : (c.after more).executing? = some (id, c.codeCell address k))
    (hvalue : (c.after more).values (c.codeCell address k) = w) (j : Nat) :
    (c.after more).Stores w (c.codeCell address j) ↔ (1280 : Int) ∣ (j - k) - distance := by
  have hnext : c = (start .persistent).after (before ++ [.install p address]) := by
    rw [after_append, after_cons, after_nil, next, hinstall]
    rfl
  have hafter : c.after more =
      (start .persistent).after (before ++ [.install p address] ++ more) := by
    rw [after_append, ← hnext]
  have hsize : (c.after more).arena.size = 1280 := hafter ▸ size_after_persistent _
  have hsize' : c.arena.size = 1280 := hnext ▸ size_after_persistent _
  have hcell := codeCell_congr (b := c.after more) (hsize'.trans hsize.symm) address
  have hinvariant : (c.after more).Invariant := hafter ▸ invariant_after_start _ _
  have hshape : (start .persistent).arena.SameShape (c.after more).arena :=
    hafter ▸ sameShape_after (invariant_start .persistent) _
  have hholds : (c.after more).arena.Holds (c.after more).arena.size (c.after more).values :=
    ⟨rfl, hshape.maxWrites_eq, hshape.maxReads_eq, fun _ => rfl⟩
  rw [← hvalue] at hself ⊢
  rw [stores_iff hinvariant hholds hturn hself, hcell, hcell, ← address_viewFrom_codeCell _ _ k j,
    View.address_eq_iff hinvariant.size_pos]
  show ((c.after more).arena.size : Int) ∣ _ ↔ _
  rw [hsize]
  rfl

/-- An admitted instruction that copies itself is never at the distances that the filter compares
with. It stores its word in the next cell of an arena of 1280 exactly if its distance leads there
the long way around the ring, and in the cell past the end of its program likewise. -/
theorem admitted_selfCopy {bytes : List UInt8} {p : Program}
    (hbytes : Bytecode.decode? bytes = some p.code) (hadmitted : verdict? bytes = none)
    {before more : List Step} {address : Nat} {c : Battle}
    (hinstall : ((start .persistent).after before).install p address = .ok c) {k : Nat} {w : Word}
    (hword : p.code[k]? = some w) {distance : Int}
    (hself : (Instruction.decode w).CopiesItself distance) {id : Nat}
    (hturn : (c.after more).executing? = some (id, c.codeCell address k))
    (hvalue : (c.after more).values (c.codeCell address k) = w) :
    distance ≠ 1 ∧ distance ≠ p.code.length - k ∧
      ((c.after more).Stores w (c.codeCell address (k + 1)) ↔
        distance = 1281 ∨ distance = -1279) ∧
      ((c.after more).Stores w (c.codeCell address p.code.length) ↔
        (1280 : Int) ∣ distance - (p.code.length - k)) := by
  obtain ⟨ws, hws, hclear⟩ := verdict?_eq_none_iff.mp hadmitted
  cases hbytes.symm.trans hws
  obtain ⟨hone, hend⟩ := hclear k w hword distance hself
  have hstores : ∀ j : Nat, (c.after more).Stores w (c.codeCell address j) ↔
      (1280 : Int) ∣ (j - k) - distance :=
    stores_codeCell_iff hinstall hself hturn hvalue
  have hrange := Operand.inRange_iff.mp (inRange_of_copiesItself hself)
  refine ⟨hone, hend, ?_, ?_⟩
  · rw [hstores]
    push_cast
    omega
  · rw [hstores]
    omega

/-- A program that is installed first plays first. -/
theorem install_start_persistent {p : Program} (hcode : p.code ≠ [])
    (hlength : p.code.length ≤ 1280) (hid : p.id ≠ 0) {address : Nat} (haddress : address < 1280) :
    ∃ c, ((start .persistent).after []).install p address = .ok c ∧
      c.executing? = some (p.id, c.codeCell address 0) ∧
      ∀ k, c.codeCell address k = (address + k) % 1280 := by
  have hsize : (start .persistent).arena.size = 1280 := size_after_persistent []
  have hlocate : (start .persistent).arena.locate address = address :=
    Arena.locate_of_lt (hsize ▸ haddress)
  have hcell (c : Battle) (hc : c.arena.size = (start .persistent).arena.size) (k : Nat) :
      c.codeCell address k = (address + k) % 1280 := by
    rw [codeCell_congr hc, codeCell, hlocate, hsize]
  refine ⟨_, install_eq_ok_iff.mpr ⟨hcode, hsize ▸ hlength, hid, rfl, rfl⟩, ?_,
    hcell _ (size_placeCode ..)⟩
  rw [hcell _ (size_placeCode ..), Nat.add_zero, Nat.mod_eq_of_lt haddress]
  show some (p.id, (start .persistent).arena.locate address) = _
  rw [hlocate]

/-- The word of an instruction that copies itself to a distance. -/
def copierWord (distance : Int) : Word :=
  Instruction.encode ⟨.copy, some .zero, some (.direct distance)⟩

/-- A program of one instruction, which copies itself to a distance. -/
def copier (distance : Int) : Program :=
  ⟨1, "copier", [copierWord distance]⟩

theorem admitted_selfCopy_copier :
    verdict? (Bytecode.encode (copier 5).code) = none ∧
      ∃ c, ((start .persistent).after []).install (copier 5) 7 = .ok c ∧
        c.executing? = some (1, 7) ∧ c.values 7 = copierWord 5 ∧
        ¬ c.Stores (copierWord 5) 8 := by
  have hadmitted : verdict? (Bytecode.encode (copier 5).code) = none := by decide
  have hself : (Instruction.decode (copierWord 5)).CopiesItself 5 := .copy 5
  obtain ⟨c, hinstall, hturn, hcell⟩ := install_start_persistent (p := copier 5) (by decide)
    (by decide) (by decide) (by decide : 7 < 1280)
  have hvalue : c.values (c.codeCell 7 0) = copierWord 5 := values_install hinstall rfl
  obtain ⟨-, -, hnext, -⟩ := admitted_selfCopy (Bytecode.decode?_encode _) hadmitted hinstall
    (k := 0) rfl hself (show (c.after []).executing? = _ from hturn) hvalue
  rw [hcell] at hturn hvalue hnext
  have hshort : ¬ ((5 : Int) = 1281 ∨ (5 : Int) = -1279) := by decide
  exact ⟨hadmitted, c, hinstall, hturn, hvalue, fun hstores => hshort (hnext.mp hstores)⟩

/-- At distance 1281 a program of one instruction is admitted, and copies itself to the next cell,
which is also the one past its end. -/
theorem leap_evades_filter :
    verdict? (Bytecode.encode (copier 1281).code) = none ∧
      ∃ c, ((start .persistent).after []).install (copier 1281) 0 = .ok c ∧
        c.executing? = some (1, 0) ∧ c.values 0 = copierWord 1281 ∧
        c.Stores (copierWord 1281) 1 := by
  have hself : (Instruction.decode (copierWord 1281)).CopiesItself 1281 := .copy 1281
  obtain ⟨c, hinstall, hturn, hcell⟩ := install_start_persistent (p := copier 1281) (by decide)
    (by decide) (by decide) (by decide : 0 < 1280)
  have hvalue : c.values (c.codeCell 0 0) = copierWord 1281 := values_install hinstall rfl
  have hstores := (stores_codeCell_iff hinstall hself
    (show (c.after []).executing? = _ from hturn) hvalue 1).mpr (by decide)
  rw [hcell] at hturn hvalue hstores
  exact ⟨by decide, c, hinstall, hturn, hvalue, hstores⟩

end Admission

end CoreArena
