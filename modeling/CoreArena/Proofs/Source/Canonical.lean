import CoreArena.Proofs.Source.Listing

/-! # Canonical words

The words that come back from their own listing are those that a statement can stand for and that
hold nothing besides: `canonical_iff`. All others are refused or come back as another word:
`line_reassembles_iff_canonical`. -/

namespace CoreArena

/-- The operations of two operands. -/
def Operation.binary : List Operation :=
  [.write, .add, .subtract, .multiply, .copy, .move, .skipIfEqual, .skipIfGreater, .skipIfLower]

theorem Operation.mem_binary_iff {op : Operation} : op ∈ Operation.binary ↔ op.arity = 2 := by
  cases op <;> decide

/-- A small number, or an operation with no more lookups than a text may ask for and with nothing
beside its operands. -/
def Word.Canonical (w : Word) : Prop :=
  Operand.InRange w.toInt ∨
  Operation.ofNibble w.nibble = .noop ∧ w.low 28 = 0 ∨
  (Operation.ofNibble w.nibble = .jump ∧ (Fields.ofWord w).first.depth ≤ Operand.maxDepth ∧
    w.low 14 = 0) ∨
  Operation.ofNibble w.nibble ∈ Operation.binary ∧
    (Fields.ofWord w).first.depth ≤ Operand.maxDepth ∧
    (Fields.ofWord w).second.depth ≤ Operand.maxDepth

instance : DecidablePred Word.Canonical := fun _ =>
  inferInstanceAs (Decidable (_ ∨ _ ∨ _ ∨ _))

namespace Instruction

variable {op : Operation} {a b : Operand}

theorem expressible_unary_iff :
    Expressible ⟨.jump, some a, none⟩ ↔ a.Within Operand.maxDepth := by
  constructor
  · rintro ⟨-, hform⟩
    cases hform with
    | unary _ _ ha => exact ha
  · intro ha
    exact ⟨nofun, .unary rfl nofun ha⟩

theorem expressible_binary_iff (harity : op.arity = 2) :
    Expressible ⟨op, some a, some b⟩ ↔
      a.Within Operand.maxDepth ∧ b.Within Operand.maxDepth := by
  constructor
  · rintro ⟨-, hform⟩
    cases hform with
    | data _ => cases harity
    | binary _ ha hb => exact ⟨ha, hb⟩
  · rintro ⟨ha, hb⟩
    refine ⟨?_, .binary harity ha hb⟩
    rintro rfl
    cases harity

end Instruction

theorem Operand.within_ofField_iff {depth : Nat} {n : Int} :
    (Operand.ofField n).Within depth ↔ (Operand.ofField n).depth ≤ depth :=
  and_iff_left (Operand.inRange_signExtend n)

namespace Word

/-- The canonical words are those that a statement stands for and nothing is lost of. -/
theorem canonical_iff (w : Word) :
    w.Canonical ↔ (Instruction.decode w).Expressible ∧ (Instruction.decode w).encode = w := by
  rw [Instruction.encode_decode_iff]
  by_cases hrange : Operand.InRange w.toInt
  · rw [Instruction.decode_of_inRange hrange]
    have hdata : Operation.data ≠ .invalid := by decide
    exact iff_of_true (.inl hrange) ⟨⟨hdata, .data hrange⟩, .inl hrange⟩
  rw [Instruction.decode_of_not_inRange hrange, Canonical, Lossless, Operation.mem_binary_iff]
  have hnumber := Operation.number_ofNibble w.nibble_lt
  generalize Operation.ofNibble w.nibble = op at hnumber ⊢
  have harity : op.arity = 0 ∨ op.arity = 1 ∨ op.arity = 2 := by
    have hle := op.arity_le_two
    omega
  rcases harity with harity | harity | harity
  · rw [Operation.taking_of_arity_eq_zero harity]
    rcases Operation.eq_of_arity_eq_zero harity with rfl | rfl
    · have hexpressible : Instruction.Expressible ⟨.noop, none, none⟩ := Source.expressible_noop
      simp [hrange, harity, hexpressible]
    · have hexpressible : ¬ Instruction.Expressible ⟨.invalid, none, none⟩ :=
        fun h => h.operation_ne rfl
      simp [hrange, harity, hexpressible]
  · rcases Operation.eq_of_arity_eq_one harity with rfl | rfl
    · -- What looks like `data` here is read as a small number, which this word is not.
      have hnibble : 0 = w.nibble := hnumber (by decide)
      simp [hrange, harity, ← hnibble]
    · have hnibble : 1 = w.nibble := hnumber (by decide)
      have htaking : Operation.jump.taking (Fields.ofWord w).first (Fields.ofWord w).second =
          ⟨.jump, some (Fields.ofWord w).first, none⟩ := rfl
      rw [htaking, Instruction.expressible_unary_iff]
      simp [hrange, harity, ← hnibble, Fields.ofWord, Operand.within_ofField_iff]
  · have hnoop : op ≠ .noop := by
      rintro rfl
      cases harity
    have hjump : op ≠ .jump := by
      rintro rfl
      cases harity
    rw [Operation.taking_of_arity_eq_two harity, Instruction.expressible_binary_iff harity]
    simp [hrange, harity, hnoop, hjump, Fields.ofWord, Operand.within_ofField_iff]

end Word

namespace Source

open Text

/-! ## Listed lines -/

theorem lineFeed_not_mem_text (o : Operand) : '\n' ∉ o.text :=
  fun h => nomatch isOperandChar_of_mem_text h

/-- The listing of an instruction is a single line that opens with a letter. -/
theorem Listing.statement_shape (i : Instruction) :
    '\n' ∉ Listing.statement i ∧
      (Listing.statement i).head?.any fun c => !isBlank c && c != '#' && c != '@' := by
  have hvalue : '\n' ∉ signedNumeral i.secondOrZero.value :=
    lineFeed_not_mem_text (.direct i.secondOrZero.value)
  have hfirst := lineFeed_not_mem_text i.firstOrZero
  have hsecond := lineFeed_not_mem_text i.secondOrZero
  cases hop : i.operation <;>
    simp [Listing.statement, Listing.joined, hop, hvalue, hfirst, hsecond] <;> decide

theorem holdsStatement_of_head? {text : List Char}
    (h : text.head?.any fun c => !isBlank c && c != '#' && c != '@') :
    holdsStatement text = true := by
  obtain ⟨c, cs, rfl, hc⟩ := eq_cons_of_any_head? h
  obtain ⟨⟨hblank, hcomment⟩, hdescription⟩ : (isBlank c = false ∧ c ≠ '#') ∧ c ≠ '@' := by
    simpa using hc
  exact holdsStatement_of_head?_trim (by simp [head?_trim hblank, hcomment, hdescription])

/-- A listed word assembles to itself exactly if it is canonical. Any other word is refused or
assembles to a word that it is not. -/
theorem line_reassembles_iff_canonical (w : Word) :
    ((∃ a, assemble (String.ofList (Listing.line w)) = .ok a ∧ a.words = [w]) ↔ w.Canonical) ∧
    (¬ w.Canonical →
      (∃ error, assemble (String.ofList (Listing.line w)) = .error error) ∨
      ∃ a w', assemble (String.ofList (Listing.line w)) = .ok a ∧ a.words = [w'] ∧ w' ≠ w) := by
  have hiff : (∃ a, assemble (String.ofList (Listing.line w)) = .ok a ∧ a.words = [w]) ↔
      w.Canonical := by
    rw [Word.canonical_iff]
    constructor
    · rintro ⟨a, ha, hwords⟩
      exact expressible_of_assemble ha w (hwords ▸ List.mem_singleton_self w)
    · rintro ⟨hexpressible, hencode⟩
      have htext : Listing.text [w] = String.ofList (Listing.line w) := by simp [Listing.text]
      rw [← htext]
      refine assemble_text ?_ ?_ (by simp [maxStatements])
      · simpa using hexpressible
      · simpa using hencode
  refine ⟨hiff, fun hcanonical => ?_⟩
  obtain ⟨hlf, hhead⟩ := Listing.statement_shape (.decode w)
  have hsingle := assemble_single hlf (holdsStatement_of_head? hhead)
  cases hread : readStatement (trim (Listing.line w)) with
  | mk s problem =>
      simp only [Listing.line] at hread
      rw [hread] at hsingle
      cases problem with
      | some problem => exact .inl ⟨_, hsingle⟩
      | none =>
          refine .inr ⟨_, s.instruction.encode, hsingle, rfl, fun heq => ?_⟩
          exact hcanonical (hiff.mp ⟨_, hsingle, by rw [heq]⟩)

/-- A jump with bits where it has no operand. -/
theorem line_reassembles_iff_canonical_jump :
    ¬ Word.Canonical 268484613 ∧
      ((∃ error, assemble (String.ofList (Listing.line 268484613)) = .error error) ∨
        ∃ a w', assemble (String.ofList (Listing.line 268484613)) = .ok a ∧ a.words = [w'] ∧
          w' ≠ 268484613) := by
  have hcanonical : ¬ Word.Canonical 268484613 := by decide +kernel
  exact ⟨hcanonical, (line_reassembles_iff_canonical 268484613).2 hcanonical⟩

end Source

end CoreArena
