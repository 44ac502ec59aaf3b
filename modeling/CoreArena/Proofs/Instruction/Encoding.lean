import CoreArena.Instruction.Bytecode

/-! # Instructions, words and bytes

A well-formed instruction survives being encoded: `decode_encode`. A word survives being decoded
exactly if its operation leaves out nothing of what it holds: `encode_decode_iff`. Bytes are words,
four by four: `decode?_eq_some_iff`. -/

namespace CoreArena

/-! ## Operands -/

namespace Operand

/-- A value that fits in an operand field, behind at most so many lookups. -/
def Within (depth : Nat) (o : Operand) : Prop :=
  o.depth ≤ depth ∧ InRange o.value

instance (depth : Nat) (o : Operand) : Decidable (o.Within depth) :=
  inferInstanceAs (Decidable (_ ∧ _))

theorem Within.mono {depth depth' : Nat} {o : Operand} (h : o.Within depth) (hle : depth ≤ depth') :
    o.Within depth' :=
  ⟨Nat.le_trans h.1 hle, h.2⟩

theorem inRange_iff {v : Int} : InRange v ↔ -2048 ≤ v ∧ v ≤ 2047 :=
  Iff.rfl

theorem signExtend_eq (n : Int) : signExtend 12 n = Int.bmod n 4096 := rfl

theorem inRange_signExtend (n : Int) : InRange (signExtend 12 n) := by
  have hlow := Int.le_bmod (x := n) (m := 4096) (by decide)
  have hhigh := Int.bmod_lt (x := n) (m := 4096) (by decide)
  rw [inRange_iff, signExtend_eq]
  omega

theorem signExtend_of_inRange {v : Int} (h : InRange v) : signExtend 12 v = v := by
  rw [inRange_iff] at h
  rw [signExtend_eq, Int.bmod_def]
  omega

theorem field_nonneg (o : Operand) : 0 ≤ o.field := by
  simp only [field]
  omega

theorem field_lt (o : Operand) : o.field < 0x4000 := by
  simp only [field]
  omega

/-- Packing what was unpacked gives the fourteen bits back. -/
theorem field_ofField (n : Int) : (ofField n).field = n % 0x4000 := by
  simp only [field, ofField, signExtend_eq, Int.bmod_def]
  omega

/-- Unpacking what was packed gives the operand back. -/
theorem ofField_field {o : Operand} (h : o.Within 3) : ofField o.field = o := by
  obtain ⟨depth, value⟩ := o
  obtain ⟨hdepth, hvalue⟩ := h
  rw [inRange_iff] at hvalue
  simp only [field, ofField, signExtend_eq, Int.bmod_def, Operand.mk.injEq] at *
  omega

/-- What stands above an operand field is not looked at. -/
theorem ofField_emod (n : Int) : ofField (n % 0x4000) = ofField n := by
  simp only [ofField, signExtend_eq, Int.bmod_def, Operand.mk.injEq]
  omega

end Operand

/-! ## Words -/

namespace Word

/-- The four highest bits of a word. -/
def nibble (w : Word) : Nat :=
  (w.toInt / 0x10000000 % 16).toNat

/-- The number in the lowest bits of a word. -/
def low (w : Word) (bits : Nat) : Int :=
  w.toInt % (1 <<< bits : Nat)

theorem nibble_lt (w : Word) : w.nibble < 16 := by
  simp only [nibble]
  omega

/-- A number makes the word that agrees with it in the lowest 32 bits. -/
theorem ofInt_eq_iff {z : Int} {w : Word} :
    Int32.ofInt z = w ↔ z % 0x100000000 = w.toInt % 0x100000000 := by
  have hlow := w.le_toInt
  have hhigh := w.toInt_lt
  rw [← Int32.toInt_inj, Int32.toInt_ofInt, show Int32.size = 4294967296 from rfl, Int.bmod_def]
  omega

theorem toInt_ofInt_of_inRange {v : Int} (h : Operand.InRange v) : (Int32.ofInt v).toInt = v := by
  rw [Operand.inRange_iff] at h
  exact Int32.toInt_ofInt_of_le (by omega) (by omega)

section Parts

/-! ### Words put together from their parts -/

variable {n : Nat} {x y : Int}

/-- A number of four bits above two of fourteen. -/
def ofParts (n : Nat) (x y : Int) : Word :=
  .ofInt (n * 0x10000000 + x * 0x4000 + y)

theorem toInt_ofParts (hn : n < 16) (hx : 0 ≤ x ∧ x < 0x4000) (hy : 0 ≤ y ∧ y < 0x4000) :
    (ofParts n x y).toInt =
      n * 0x10000000 + x * 0x4000 + y - if n < 8 then 0 else 0x100000000 := by
  rw [ofParts, Int32.toInt_ofInt, show Int32.size = 4294967296 from rfl, Int.bmod_def]
  split <;> split <;> omega

theorem ofWord_ofParts (hn : n < 16) (hx : 0 ≤ x ∧ x < 0x4000) (hy : 0 ≤ y ∧ y < 0x4000) :
    Fields.ofWord (ofParts n x y) = ⟨n, .ofField x, .ofField y⟩ := by
  have hw := toInt_ofParts hn hx hy
  have hnumber : ((ofParts n x y).toInt / 0x10000000 % 16).toNat = n := by
    split at hw <;> omega
  have hfirst : (ofParts n x y).toInt / 0x4000 % 0x4000 = x := by
    split at hw <;> omega
  have hsecond : (ofParts n x y).toInt % 0x4000 = y := by
    split at hw <;> omega
  rw [Fields.ofWord, hnumber, ← Operand.ofField_emod (_ / _), hfirst, ← Operand.ofField_emod
    (ofParts n x y).toInt, hsecond]

/-- Only the numbers of the lowest and the highest words start words that hold a small number. -/
theorem not_inRange_ofParts (hn : 0 < n ∧ n < 15 ∨ n = 15 ∧ x = 0) (hx : 0 ≤ x ∧ x < 0x4000)
    (hy : 0 ≤ y ∧ y < 0x4000) : ¬ Operand.InRange (ofParts n x y).toInt := by
  rw [Operand.inRange_iff, toInt_ofParts (by omega) hx hy]
  split <;> omega

/-- A word is made of given parts if they are what it holds. -/
theorem ofParts_eq_iff {w : Word} (hn : n < 16) (hx : 0 ≤ x ∧ x < 0x4000)
    (hy : 0 ≤ y ∧ y < 0x4000) :
    ofParts n x y = w ↔
      n = w.nibble ∧ x = w.toInt / 0x4000 % 0x4000 ∧ y = w.toInt % 0x4000 := by
  rw [ofParts, ofInt_eq_iff, nibble]
  omega

end Parts

end Word

/-! ## Instructions -/

namespace Operation

/-- An operation with the operands that it takes out of two. -/
def taking (op : Operation) (a b : Operand) : Instruction :=
  match op, op.arity with
  | .data, _ => ⟨op, some .zero, some b⟩
  | _, 0 => ⟨op, none, none⟩
  | _, 1 => ⟨op, some a, none⟩
  | _, _ => ⟨op, some a, some b⟩

variable {op : Operation}

@[simp] theorem operation_taking (op : Operation) (a b : Operand) :
    (op.taking a b).operation = op := by
  cases op <;> rfl

theorem taking_of_arity_eq_zero (h : op.arity = 0) (a b : Operand) :
    op.taking a b = ⟨op, none, none⟩ := by
  cases op with
  | noop | invalid => rfl
  | _ => cases h

theorem taking_of_arity_eq_two (h : op.arity = 2) (a b : Operand) :
    op.taking a b = ⟨op, some a, some b⟩ := by
  cases op with
  | data | noop | jump | invalid => cases h
  | _ => rfl

theorem eq_of_arity_eq_zero (h : op.arity = 0) : op = .noop ∨ op = .invalid := by
  revert h
  cases op <;> decide

theorem eq_of_arity_eq_one (h : op.arity = 1) : op = .data ∨ op = .jump := by
  revert h
  cases op <;> decide

theorem arity_le_two (op : Operation) : op.arity ≤ 2 := by
  cases op <;> decide

theorem ne_data_of_arity_ne_one (h : op.arity ≠ 1) : op ≠ .data := by
  rintro rfl
  exact h rfl

theorem number_bounds (h : op ≠ .data) :
    0 < op.number ∧ op.number < 15 ∨ op.number = 15 ∧ op = .invalid := by
  revert h
  cases op <;> decide

/-- The operation of four bits has them as its number, unless they stand for none. -/
theorem number_ofNibble {n : Nat} (hn : n < 16) (h : ofNibble n ≠ .invalid) :
    (ofNibble n).number = n := by
  decide +revert

end Operation

namespace Instruction

/-- An instruction with the operands that its operation takes, no deeper than allowed. The payload
of `data` is its second operand, behind a zero. -/
inductive WellFormed (depth : Nat) : Instruction → Prop where
  | data {v : Int} (hv : Operand.InRange v) : WellFormed depth (.data v)
  | bare {op : Operation} (harity : op.arity = 0) : WellFormed depth ⟨op, none, none⟩
  | unary {op : Operation} {a : Operand} (harity : op.arity = 1) (hop : op ≠ .data)
      (ha : a.Within depth) : WellFormed depth ⟨op, some a, none⟩
  | binary {op : Operation} {a b : Operand} (harity : op.arity = 2) (ha : a.Within depth)
      (hb : b.Within depth) : WellFormed depth ⟨op, some a, some b⟩

theorem WellFormed.mono {depth depth' : Nat} {i : Instruction} (h : i.WellFormed depth)
    (hle : depth ≤ depth') : i.WellFormed depth' := by
  cases h with
  | data hv => exact .data hv
  | bare harity => exact .bare harity
  | unary harity hop ha => exact .unary harity hop (ha.mono hle)
  | binary harity ha hb => exact .binary harity (ha.mono hle) (hb.mono hle)

theorem wellFormed_noop (depth : Nat) : noop.WellFormed depth :=
  .bare rfl

/-! ### Encoding -/

theorem encode_data (v : Int) : (data v).encode = .ofInt (signExtend 12 v) := rfl

theorem encode_of_ne_data {op : Operation} (h : op ≠ .data) (a b : Option Operand) :
    encode ⟨op, a, b⟩ = Word.ofParts op.number (a.elim 0 Operand.field) (b.elim 0 Operand.field) :=
  if_neg h

theorem inRange_encode_of_data (i : Instruction) (h : i.operation = .data) :
    Operand.InRange i.encode.toInt := by
  have hrange := Operand.inRange_signExtend (i.second.elim 0 Operand.value)
  rw [encode, if_pos h, Word.toInt_ofInt_of_inRange hrange]
  exact hrange

/-! ### Decoding -/

theorem decode_of_inRange {w : Word} (h : Operand.InRange w.toInt) : decode w = data w.toInt :=
  if_pos h

theorem decode_of_not_inRange {w : Word} (h : ¬ Operand.InRange w.toInt) :
    decode w = (Operation.ofNibble w.nibble).taking (Fields.ofWord w).first
      (Fields.ofWord w).second :=
  if_neg h

/-- The words that hold data are the small numbers and those whose four highest bits are zero. -/
theorem operation_decode_eq_data_iff {w : Word} :
    (decode w).operation = .data ↔ -2048 ≤ w.toInt ∧ w.toInt < 0x10000000 := by
  by_cases hrange : Operand.InRange w.toInt
  · have hbounds := Operand.inRange_iff.mp hrange
    rw [decode_of_inRange hrange]
    exact iff_of_true rfl (by omega)
  · have hnibble : Operation.ofNibble w.nibble = .data ↔ w.nibble = 0 := by
      have hlt := w.nibble_lt
      generalize w.nibble = n at hlt
      decide +revert
    have hlow := w.le_toInt
    have hhigh := w.toInt_lt
    rw [decode_of_not_inRange hrange, Operation.operation_taking, hnibble, Word.nibble]
    rw [Operand.inRange_iff] at hrange
    omega

theorem decode_ofParts {op : Operation} {x y : Int} (hop : op ≠ .data)
    (hinvalid : op = .invalid → x = 0) (hx : 0 ≤ x ∧ x < 0x4000) (hy : 0 ≤ y ∧ y < 0x4000) :
    decode (Word.ofParts op.number x y) = op.taking (.ofField x) (.ofField y) := by
  have hrange : ¬ Operand.InRange (Word.ofParts op.number x y).toInt := by
    refine Word.not_inRange_ofParts ?_ hx hy
    rcases Operation.number_bounds hop with h | ⟨hnumber, h⟩
    · exact .inl h
    · exact .inr ⟨hnumber, hinvalid h⟩
  have hfields := Word.ofWord_ofParts op.number_lt hx hy
  have hnibble : (Word.ofParts op.number x y).nibble = op.number :=
    congrArg Fields.number hfields
  rw [decode_of_not_inRange hrange, hfields, hnibble, Operation.ofNibble_number]

/-! ### Round trips -/

/-- A well-formed instruction survives being encoded. -/
theorem decode_encode {i : Instruction} (h : i.WellFormed 3) : decode i.encode = i := by
  have hzero : 0 ≤ (0 : Int) ∧ (0 : Int) < 0x4000 := by decide
  have hfield (o : Operand) : 0 ≤ o.field ∧ o.field < 0x4000 := ⟨o.field_nonneg, o.field_lt⟩
  cases h with
  | data hv =>
      have hw := Word.toInt_ofInt_of_inRange hv
      rw [encode_data, Operand.signExtend_of_inRange hv, decode_of_inRange (hw.symm ▸ hv), hw]
  | @bare op harity =>
      have hop : op ≠ .data := Operation.ne_data_of_arity_ne_one (by omega)
      rw [encode_of_ne_data hop]
      exact (decode_ofParts hop (fun _ => rfl) hzero hzero).trans
        (Operation.taking_of_arity_eq_zero harity _ _)
  | @unary op a harity hop ha =>
      obtain rfl := (Operation.eq_of_arity_eq_one harity).resolve_left hop
      rw [encode_of_ne_data hop]
      refine (decode_ofParts hop nofun (hfield a) hzero).trans ?_
      rw [Operand.ofField_field ha]
      rfl
  | @binary op a b harity ha hb =>
      have hop : op ≠ .data := Operation.ne_data_of_arity_ne_one (by omega)
      rw [encode_of_ne_data hop]
      refine (decode_ofParts hop ?_ (hfield a) (hfield b)).trans ?_
      · rintro rfl
        cases harity
      · rw [Operation.taking_of_arity_eq_two harity, Operand.ofField_field ha,
          Operand.ofField_field hb]

end Instruction

/-- Nothing that a word holds is left out when it is read as an instruction. -/
def Word.Lossless (w : Word) : Prop :=
  Operand.InRange w.toInt ∨
  (Operation.ofNibble w.nibble).arity = 2 ∨
  Operation.ofNibble w.nibble = .jump ∧ w.low 14 = 0 ∨
  (Operation.ofNibble w.nibble = .noop ∨ w.nibble = 15) ∧ w.low 28 = 0

namespace Instruction

/-- A word that is no small number, and what encoding puts in its place: the parts of it that its
operation takes. -/
theorem encode_taking_eq_iff {op : Operation} (hop : op ≠ .data) {w : Word} :
    (op.taking (Fields.ofWord w).first (Fields.ofWord w).second).encode = w ↔
      op.number = w.nibble ∧ (1 ≤ op.arity ∨ w.toInt / 0x4000 % 0x4000 = 0) ∧
        (2 ≤ op.arity ∨ w.toInt % 0x4000 = 0) := by
  have hfirst : (Fields.ofWord w).first.field = w.toInt / 0x4000 % 0x4000 :=
    Operand.field_ofField _
  have hsecond : (Fields.ofWord w).second.field = w.toInt % 0x4000 := Operand.field_ofField _
  have hzero : 0 ≤ (0 : Int) ∧ (0 : Int) < 0x4000 := by decide
  have hx : 0 ≤ w.toInt / 0x4000 % 0x4000 ∧ w.toInt / 0x4000 % 0x4000 < 0x4000 := by omega
  have hy : 0 ≤ w.toInt % 0x4000 ∧ w.toInt % 0x4000 < 0x4000 := by omega
  have hlt := op.number_lt
  match harity : op.arity, op.arity_le_two with
  | 0, _ =>
      rw [Operation.taking_of_arity_eq_zero harity, encode_of_ne_data hop]
      exact (Word.ofParts_eq_iff hlt hzero hzero).trans (by omega)
  | 1, _ =>
      obtain rfl := (Operation.eq_of_arity_eq_one harity).resolve_left hop
      show encode ⟨.jump, some (Fields.ofWord w).first, none⟩ = w ↔ _
      rw [encode_of_ne_data hop, Option.elim_some, hfirst]
      exact (Word.ofParts_eq_iff hlt hx hzero).trans (by omega)
  | 2, _ =>
      rw [Operation.taking_of_arity_eq_two harity, encode_of_ne_data hop, Option.elim_some,
        Option.elim_some, hfirst, hsecond]
      exact (Word.ofParts_eq_iff hlt hx hy).trans (by omega)

/-- A word survives being decoded exactly if nothing of it is left out. -/
theorem encode_decode_iff (w : Word) : (decode w).encode = w ↔ w.Lossless := by
  by_cases hrange : Operand.InRange w.toInt
  · rw [decode_of_inRange hrange, encode_data, Operand.signExtend_of_inRange hrange]
    exact iff_of_true w.ofInt_toInt (.inl hrange)
  rw [decode_of_not_inRange hrange, Word.Lossless, Word.low, Word.low]
  have hnumber := Operation.number_ofNibble w.nibble_lt
  generalize Operation.ofNibble w.nibble = op at hnumber ⊢
  match harity : op.arity, op.arity_le_two with
  | 2, _ =>
      have hop : op ≠ .data := Operation.ne_data_of_arity_ne_one (by omega)
      have hvalid : op ≠ .invalid := by
        rintro rfl
        cases harity
      rw [encode_taking_eq_iff hop, harity]
      exact iff_of_true ⟨hnumber hvalid, .inl (by decide), .inl (by decide)⟩ (.inr (.inl rfl))
  | 1, _ =>
      rcases Operation.eq_of_arity_eq_one harity with rfl | rfl
      · -- What looks like `data` here is read as a small number, which this word is not.
        have hnibble : 0 = w.nibble := hnumber nofun
        have hlost : ¬ (Operation.data.taking (Fields.ofWord w).first
            (Fields.ofWord w).second).encode = w := by
          intro h
          rw [← h] at hrange
          exact hrange (inRange_encode_of_data _ rfl)
        simp [hlost, hrange, ← hnibble]
      · have hnibble : 1 = w.nibble := hnumber nofun
        have hop : Operation.jump ≠ .data := nofun
        rw [encode_taking_eq_iff hop, harity]
        simp [hrange, ← hnibble, Operation.number]
  | 0, _ =>
      rcases Operation.eq_of_arity_eq_zero harity with rfl | rfl
      · have hnibble : 8 = w.nibble := hnumber nofun
        have hop : Operation.noop ≠ .data := nofun
        rw [encode_taking_eq_iff hop, harity]
        simp [hrange, ← hnibble, Operation.number]
        omega
      · have hop : Operation.invalid ≠ .data := nofun
        rw [encode_taking_eq_iff hop, harity]
        simp [hrange, Operation.number]
        omega

end Instruction

/-! ## Bytes -/

namespace Bytecode

/-- The word of four bytes falls apart into them. -/
theorem ofWord_word (a b c d : UInt8) : ofWord (word a b c d) = [a, b, c, d] := by
  have ha := a.toNat_lt
  have hb := b.toNat_lt
  have hc := c.toNat_lt
  have hd := d.toNat_lt
  have hw : (word a b c d).toInt % 0x100000000 =
      a.toNat + b.toNat * 0x100 + c.toNat * 0x10000 + d.toNat * 0x1000000 := by
    have hword := Word.ofInt_eq_iff.mp (rfl : word a b c d = _)
    omega
  simp only [ofWord, List.cons.injEq, ← UInt8.toNat_inj, UInt8.toNat_ofNat', and_true]
  omega

/-- Bytes are decoded as the words that they encode. -/
theorem decode?_eq_some_iff {bytes : List UInt8} {ws : List Word} :
    decode? bytes = some ws ↔ encode ws = bytes := by
  refine ⟨fun h => ?_, fun h => h ▸ decode?_encode ws⟩
  fun_induction decode? bytes generalizing ws with
  | case1 =>
      cases h
      rfl
  | case2 a b c d bytes ih =>
      obtain ⟨rest, hrest, rfl⟩ := Option.map_eq_some_iff.mp h
      simpa [encode, ofWord_word] using ih hrest
  | case3 => cases h

/-- Bytes are decoded if they are a whole number of words. -/
theorem isSome_decode?_iff {bytes : List UInt8} :
    (decode? bytes).isSome = true ↔ bytes.length % 4 = 0 := by
  fun_induction decode? bytes with
  | case1 => simp
  | case2 a b c d bytes ih =>
      simp only [Option.isSome_map, ih, List.length_cons]
      omega
  | case3 bytes hempty hlong =>
      match bytes with
      | [] => exact absurd rfl hempty
      | [_] | [_, _] | [_, _, _] => simp
      | a :: b :: c :: d :: rest => exact absurd rfl (hlong a b c d rest)

theorem map_encode_decode? (bytes : List UInt8) :
    (decode? bytes).map encode = if bytes.length % 4 = 0 then some bytes else none := by
  cases h : decode? bytes with
  | some ws =>
      have hlength := isSome_decode?_iff.mp (Option.isSome_of_eq_some h)
      simp [hlength, decode?_eq_some_iff.mp h]
  | none =>
      have hlength : ¬ (decode? bytes).isSome = true := by simp [h]
      rw [isSome_decode?_iff] at hlength
      simp [hlength]

end Bytecode

/-! ## The format -/

/-- Lists of words, bytes that are whole words, and well-formed instructions are read back from what
stands for them. A word is read back exactly if it is lossless. -/
theorem binary_format_lossless :
    (∀ ws : List Word, Bytecode.decode? (Bytecode.encode ws) = some ws) ∧
    (∀ bytes : List UInt8, (Bytecode.decode? bytes).map Bytecode.encode =
      if bytes.length % 4 = 0 then some bytes else none) ∧
    (∀ i : Instruction, i.WellFormed 3 → Instruction.decode i.encode = i) ∧
    ∀ w : Word, (Instruction.decode w).encode = w ↔ w.Lossless :=
  ⟨Bytecode.decode?_encode, Bytecode.map_encode_decode?, fun _ => Instruction.decode_encode,
    Instruction.encode_decode_iff⟩

theorem binary_format_lossless_move :
    Instruction.WellFormed 3 ⟨.move, some ⟨3, -2048⟩, some ⟨1, 2047⟩⟩ ∧
      Instruction.decode (Instruction.encode ⟨.move, some ⟨3, -2048⟩, some ⟨1, 2047⟩⟩) =
        ⟨.move, some ⟨3, -2048⟩, some ⟨1, 2047⟩⟩ := by
  have hform : Instruction.WellFormed 3 ⟨.move, some ⟨3, -2048⟩, some ⟨1, 2047⟩⟩ :=
    .binary rfl (by decide) (by decide)
  exact ⟨hform, binary_format_lossless.2.2.1 _ hform⟩

end CoreArena
