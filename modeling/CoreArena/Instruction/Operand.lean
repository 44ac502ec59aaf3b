import CoreArena.Text.Decimal

/-! Operands: a number and how often it is looked up in memory before use. -/

namespace CoreArena

/-- A literal value and the number of lookups that lead from it to the value used. -/
structure Operand where
  depth : Nat
  value : Int
  deriving DecidableEq, Repr, Inhabited

namespace Operand

/-- The literal zero, which stands for an operand that is not there. -/
def zero : Operand := ⟨0, 0⟩

def direct (value : Int) : Operand := ⟨0, value⟩

def minValue : Int := -2048

def maxValue : Int := 2047

/-- The most lookups a program text may ask for. -/
def maxDepth : Nat := 2

/-- A value that fits in the twelve bits of an operand field. -/
def InRange (v : Int) : Prop :=
  minValue ≤ v ∧ v ≤ maxValue

instance (v : Int) : Decidable (InRange v) :=
  inferInstanceAs (Decidable (_ ∧ _))

/-- One star for each lookup, then the value. -/
def text (o : Operand) : List Char :=
  List.replicate o.depth '*' ++ Text.signedNumeral o.value

end Operand

end CoreArena
