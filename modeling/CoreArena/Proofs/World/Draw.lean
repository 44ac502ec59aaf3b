import CoreArena.Random

/-! # What is always drawn

What holds of every result of a draw, whatever words its source yields, is found along the draws it
is made of. -/

namespace CoreArena.Draw

variable {γ α β : Type}

/-- Whatever the source yields, the result has a property. -/
def Always (d : Draw γ α) (P : α → Prop) : Prop :=
  ∀ g, P (d g).1

section Rules

variable {d : Draw γ α} {P : α → Prop} {R : β → Prop}

theorem always_true (d : Draw γ α) : Always d fun _ => True :=
  fun _ => trivial

theorem always_pure {a : α} (h : P a) : Always (pure a : Draw γ α) P :=
  fun _ => h

theorem Always.bind {f : α → Draw γ β} (h : Always d P) (hf : ∀ a, P a → Always (f a) R) :
    Always (d >>= f) R := by
  intro g
  show R (f (d g).1 (d g).2).1
  exact hf _ (h g) _

theorem Always.map {f : α → β} (h : Always d P) (hf : ∀ a, P a → R (f a)) : Always (f <$> d) R := by
  intro g
  show R (f (d g).1)
  exact hf _ (h g)

end Rules

variable [RandomSource γ]

theorem always_below {size : Nat} (h : 0 < size) : Always (below (γ := γ) size) (· < size) :=
  below_lt h

theorem always_between {low high : Nat} (h : low < high) :
    Always (between (γ := γ) low high) fun n => low ≤ n ∧ n < high :=
  between_mem h

/-- No random number lies above one. -/
theorem always_aboveQuarters_four : Always (aboveQuarters (γ := γ) 4) (· = false) := by
  intro g
  show decide (4 * 0x8000000000000 < (word g).1 / 0x800) = false
  have hlt := word_lt g
  unfold UInt64.size at hlt
  rw [decide_eq_false_iff_not]
  omega

end CoreArena.Draw
