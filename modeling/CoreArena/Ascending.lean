/-! Ascending lists without repetition. -/

namespace CoreArena

/-- Adds an element at its place in an ascending list, unless it is there. -/
def insertAscending {α : Type} [LT α] [DecidableLT α] [DecidableEq α] (a : α) : List α → List α
  | [] => [a]
  | b :: bs =>
    if a = b then b :: bs
    else if a < b then a :: b :: bs
    else b :: insertAscending a bs

/-- Nothing is lost and only the new element is added. -/
theorem mem_insertAscending {α : Type} [LT α] [DecidableLT α] [DecidableEq α] {a b : α}
    {bs : List α} : b ∈ insertAscending a bs ↔ b = a ∨ b ∈ bs := by
  induction bs with
  | nil => simp [insertAscending]
  | cons c bs ih =>
    unfold insertAscending
    split
    · next h => simp [h]
    · split
      · simp
      · simp only [List.mem_cons, ih]
        exact or_left_comm

/-- Ascending lists stay ascending, where of two different elements one is less. -/
theorem pairwise_insertAscending {α : Type} [LT α] [DecidableLT α] [DecidableEq α]
    (trans : ∀ {a b c : α}, a < b → b < c → a < c)
    (total : ∀ {a b : α}, a ≠ b → ¬ a < b → b < a) {a : α} {bs : List α}
    (h : bs.Pairwise (· < ·)) : (insertAscending a bs).Pairwise (· < ·) := by
  induction bs with
  | nil => simp [insertAscending]
  | cons b bs ih =>
    obtain ⟨hb, hbs⟩ := List.pairwise_cons.mp h
    unfold insertAscending
    split
    · exact h
    · next hne =>
      split
      · next hlt =>
        refine List.pairwise_cons.mpr ⟨fun c hc => ?_, h⟩
        rcases List.mem_cons.mp hc with rfl | hc
        · exact hlt
        · exact trans hlt (hb c hc)
      · next hge =>
        refine List.pairwise_cons.mpr ⟨fun c hc => ?_, ih hbs⟩
        rcases mem_insertAscending.mp hc with rfl | hc
        · exact total hne hge
        · exact hb c hc

end CoreArena
