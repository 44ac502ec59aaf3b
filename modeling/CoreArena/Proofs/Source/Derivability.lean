import CoreArena.Proofs.Source.Grammar

/-! # Derivations of what is read

A statement that is read without a problem is derivable up to what follows a keyword that stands
alone: `exists_derivation_of_readStatement`. -/

namespace CoreArena.Source

open Text

/-! ## Statements that are read are derivable -/

/-- A keyword that stands alone, before text that makes no other word of it. -/
def Overlooked (core ignored : List Char) : Prop :=
  ∃ k ∈ keywords, ∃ op, k.shape = .bare op ∧ core = k.phrase.toList ∧
    ignored.head?.all (!·.isAlphanum)

/-- What follows a keyword that stands alone is in no derivation. -/
theorem Overlooked.not_derivable {phrases : List String} {core ignored : List Char} {s : Statement}
    (h : Overlooked core ignored) (hne : ignored ≠ []) :
    ¬ Derivation phrases (core ++ ignored) s := by
  obtain ⟨k, hk, op, hbare, rfl, -⟩ := h
  have hkeyword : ∀ k' ∈ keywords, k'.phrase.toList <+: k.phrase.toList ++ ignored → k' = k := by
    intro k' hk' hopens
    have hjump : k.shape ≠ .unary .jump := by simp [hbare]
    rcases List.prefix_or_prefix_of_prefix hopens (List.prefix_append _ _) with h | h
    · exact ((keyword_prefix_cases k' hk' k hk h).resolve_right fun ⟨_, hk, _⟩ => hjump hk).symm
    · exact (keyword_prefix_cases k hk k' hk' h).resolve_right fun ⟨hk, _⟩ => hjump hk
  generalize hline : k.phrase.toList ++ ignored = line at hkeyword
  intro h
  cases h with
  | bare hk' _ =>
      obtain rfl := hkeyword _ hk' (List.prefix_refl _)
      exact hne (List.append_right_eq_self.mp hline)
  | data hk' hshape _ _ _ =>
      obtain rfl := hkeyword _ hk' (List.prefix_append _ _)
      cases hbare.symm.trans hshape
  | unary hk' hshape _ _ _ _ =>
      obtain rfl := hkeyword _ hk' (List.prefix_append _ _)
      cases hbare.symm.trans hshape
  | binary h _ _ =>
      obtain rfl := hkeyword _ h.keyword_mem (List.prefix_append _ _)
      have hlink := h.link_mem
      rw [hbare] at hlink
      cases hlink

theorem Spells.spellsNumber {phrases : List String} {text : List Char} {o : Operand}
    (h : Spells phrases text o) (hdepth : o.depth = 0) : SpellsNumber text o.value := by
  cases h with
  | number h => exact h
  | indicator _ _ _ => cases hdepth

theorem exists_separates {rest operand more : List Char} (hrest : rest.head?.all (!·.isAlphanum))
    (hne : operand ≠ []) (h : trimStart rest = operand ++ more) :
    ∃ gap, Separates gap operand ∧ rest = gap ++ (operand ++ more) := by
  obtain ⟨gap, hgap, hsplit⟩ := exists_blanks_trimStart rest
  rw [h] at hsplit
  refine ⟨gap, ⟨hgap, ?_⟩, hsplit⟩
  rintro rfl
  obtain ⟨c, cs, rfl⟩ := List.exists_cons_of_ne_nil hne
  simpa [hsplit] using hrest

section Soundness

variable {s : Statement} {keyword : String} {cs : List Char}

theorem exists_of_readUnary {op : Operation} (h : readUnary op keyword cs = (s, none)) :
    ∃ o operand behind, o.Within Operand.maxDepth ∧ Spells indicators operand o ∧
      Blanks behind ∧ trimStart cs = operand ++ behind ∧
      (op ≠ .data ∧ s = ⟨op, [o], keyword, none⟩ ∨
        op = .data ∧ o.depth = 0 ∧ s = ⟨.data, [.zero, o], keyword, none⟩) := by
  simp only [readUnary] at h
  split at h
  · cases h
  split at h
  · cases h
  rename_i o behind hread
  obtain ⟨ho, -, operand, hoperand, hcs⟩ := readOperand_eq_ok_iff.mp hread
  split at h
  · cases h
  rename_i hbehind
  refine ⟨o, operand, behind, ho, hoperand, trailing?_eq_none_iff.mp hbehind, hcs, ?_⟩
  split at h
  · rename_i hop
    cases h
    exact .inl ⟨hop, rfl⟩
  · rename_i hop
    obtain rfl := Decidable.not_not.mp hop
    split at h
    · cases h
    · rename_i hdepth
      cases h
      exact .inr ⟨rfl, Nat.eq_zero_of_not_pos hdepth, rfl⟩

theorem exists_of_readBinary {usual : Link} {others : List Link}
    (h : readBinary usual others keyword cs = (s, none)) :
    ∃ a b l first before after second behind, l ∈ usual :: others ∧
      a.Within Operand.maxDepth ∧ b.Within Operand.maxDepth ∧
      Spells indicators first a ∧ Blanks before ∧ Blanks after ∧ Spells indicators second b ∧
      Blanks behind ∧
      trimStart cs = first ++ (before ++ (l.phrase.toList ++ (after ++ (second ++ behind)))) ∧
      s = ⟨l.operation, [a, b], keyword, some (String.ofList l.word)⟩ := by
  simp only [readBinary] at h
  split at h
  · cases h
  split at h
  · cases h
  rename_i a middle hfirst
  obtain ⟨ha, -, first, hspells, hcs⟩ := readOperand_eq_ok_iff.mp hfirst
  obtain ⟨before, behind, hbefore, hbehind, hmiddle⟩ := exists_blanks_trim middle
  split at h
  · cases h
  split at h
  · cases h
  rename_i l rest hlink
  obtain ⟨hl, htail⟩ := eq_append_of_readLink? hlink
  obtain ⟨after, hafter, hrest⟩ := exists_blanks_trimStart rest
  split at h
  · cases h
  split at h
  · cases h
  · cases h
  rename_i b trailing hsecond
  obtain ⟨hb, -, second, hspells', htext⟩ := readOperand_eq_ok_iff.mp hsecond
  split at h
  · cases h
  rename_i htrailing
  cases h
  rw [trimStart_trimStart] at htext
  refine ⟨a, b, l, first, before, after, second, trailing ++ behind, hl, ha, hb, hspells, hbefore,
    hafter, hspells', (trailing?_eq_none_iff.mp htrailing).append hbehind, ?_, rfl⟩
  rw [hcs, hmiddle, htail, hrest, htext]
  simp

/-- A line that is read without a problem is derivable, up to blanks at its end and to whatever
follows a keyword that stands alone. -/
theorem exists_derivation_of_readStatement {text : List Char}
    (h : readStatement text = (s, none)) :
    ∃ core rest, text.map Char.toLower = core ++ rest ∧ Derivation indicators core s ∧
      (Blanks rest ∨ Overlooked core rest) := by
  simp only [readStatement] at h
  split at h
  · cases h
  rename_i k rest hkeyword
  obtain ⟨hk, hline, hrest⟩ := eq_append_of_readKeyword? hkeyword
  split at h
  · rename_i op hshape
    cases h
    exact ⟨_, rest, hline, .bare hk hshape, .inr ⟨k, hk, op, hshape, rfl, hrest⟩⟩
  · rename_i op hshape
    obtain ⟨o, operand, behind, ho, hoperand, hbehind, hcs, hs⟩ := exists_of_readUnary h
    rw [trimStart_trimStart] at hcs
    obtain ⟨gap, hgap, rfl⟩ := exists_separates hrest hoperand.ne_nil hcs
    refine ⟨k.phrase.toList ++ (gap ++ operand), behind, by simp [hline], ?_, .inl hbehind⟩
    rcases hs with ⟨hop, rfl⟩ | ⟨rfl, hdepth, rfl⟩
    · exact .unary hk hshape hop hgap ho hoperand
    · obtain ⟨depth, v⟩ := o
      obtain rfl : depth = 0 := hdepth
      exact .data hk hshape hgap ho.2 (hoperand.spellsNumber rfl)
  · rename_i usual others hshape
    obtain ⟨a, b, l, first, before, after, second, behind, hl, ha, hb, hfirst, hbefore, hafter,
      hsecond, hbehind, hcs, rfl⟩ := exists_of_readBinary h
    rw [trimStart_trimStart] at hcs
    obtain ⟨gap, hgap, rfl⟩ := exists_separates hrest hfirst.ne_nil hcs
    have hl' : l ∈ k.shape.links := by rwa [hshape]
    have hjoins : Sentence.Joins indicators ⟨k, gap, first, before, l, after, second⟩ a b :=
      ⟨hk, hl', hgap, hfirst, hbefore, hafter, hsecond⟩
    refine ⟨_, behind, ?_, .binary hjoins ha hb, .inl hbehind⟩
    simp [hline, Sentence.text, Sentence.tail]

end Soundness

end CoreArena.Source
