import CoreArena.Proofs.Source.Derivability

/-! # Statements without problems

A derivation states an instruction with the operands that its operation takes, each within its
limits, and so does a statement that is read without a problem: `expressible_of_readStatement`. -/

namespace CoreArena

/-- What a statement can stand for: any operation but `invalid`, with its operands in place. -/
structure Instruction.Expressible (i : Instruction) : Prop where
  operation_ne : i.operation ≠ .invalid
  wellFormed : i.WellFormed Operand.maxDepth

namespace Source

/-- The operations of a shape are not `invalid` and take as many operands as the shape has. -/
def Shape.IsRegular : Shape → Prop
  | .bare op => op ≠ .invalid ∧ op.arity = 0
  | .unary op => op ≠ .invalid ∧ op.arity = 1
  | .binary usual others => ∀ l ∈ usual :: others, l.operation ≠ .invalid ∧ l.operation.arity = 2

instance : DecidablePred Shape.IsRegular := fun
  | .bare _ => inferInstanceAs (Decidable (_ ∧ _))
  | .unary _ => inferInstanceAs (Decidable (_ ∧ _))
  | .binary _ _ => inferInstanceAs (Decidable (∀ _ ∈ _, _))

theorem isRegular_of_mem_keywords {k : Keyword} (h : k ∈ keywords) : k.shape.IsRegular := by
  revert k
  decide

variable {s : Statement}

theorem Derivation.expressible {phrases : List String} {line : List Char}
    (h : Derivation phrases line s) : s.instruction.Expressible := by
  cases h with
  | bare hk hshape =>
      have hregular := isRegular_of_mem_keywords hk
      rw [hshape] at hregular
      exact ⟨hregular.1, .bare hregular.2⟩
  | data _ _ _ hv _ =>
      have hvalid : Operation.data ≠ .invalid := by decide
      exact ⟨hvalid, .data hv⟩
  | unary hk hshape hop _ ho _ =>
      have hregular := isRegular_of_mem_keywords hk
      rw [hshape] at hregular
      exact ⟨hregular.1, .unary hregular.2 hop ho⟩
  | @binary x _ _ h ha hb =>
      obtain ⟨usual, others, hshape, hlinks⟩ := eq_binary_of_mem_links h.link_mem
      have hregular := isRegular_of_mem_keywords h.keyword_mem
      rw [hshape] at hregular
      obtain ⟨hvalid, harity⟩ := hregular x.link (hlinks ▸ h.link_mem)
      exact ⟨hvalid, .binary harity ha hb⟩

/-- A statement without a problem stands for an instruction with its operands in place. -/
theorem expressible_of_readStatement {text : List Char} (h : readStatement text = (s, none)) :
    s.instruction.Expressible := by
  obtain ⟨core, rest, -, hderivation, -⟩ := exists_derivation_of_readStatement h
  exact hderivation.expressible

end Source

end CoreArena
