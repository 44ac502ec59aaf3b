import CoreArena.Proofs.Source.Derivability

/-! # Wordings of instructions

A wording puts a phrase of the tables, single blanks and operands without spelled-out indicators
one behind the other. It is derivable, so it is read as the instruction it words, without a
problem: `Wording.exists_derivation`, `Wording.readStatement_eq`. -/

namespace CoreArena.Source

open Text

/-! ## The characters of operands -/

/-- The characters that operands are listed with. -/
def isOperandChar (c : Char) : Bool :=
  c == '*' || c == '-' || c.isDigit

theorem bounds_of_isOperandChar {c : Char} (h : isOperandChar c = true) :
    c.toNat = 42 ∨ c.toNat = 45 ∨ 48 ≤ c.toNat ∧ c.toNat ≤ 57 := by
  simp only [isOperandChar, Bool.or_eq_true, beq_iff_eq] at h
  rcases h with (rfl | rfl) | h
  · exact .inl rfl
  · exact .inr (.inl rfl)
  · exact .inr (.inr (bounds_of_isDigit h))

theorem not_isBlank_of_isOperandChar {c : Char} (h : isOperandChar c = true) :
    isBlank c = false := by
  have hc := bounds_of_isOperandChar h
  simp [isBlank]
  omega

theorem toLower_of_isOperandChar {c : Char} (h : isOperandChar c = true) : c.toLower = c := by
  have hc := bounds_of_isOperandChar h
  have hsmall : c.val.toNat < 65 := by
    show c.toNat < 65
    omega
  refine dif_neg fun hcapital => ?_
  have hlarge : 65 ≤ c.val.toNat := UInt32.le_iff_toNat_le.mp hcapital.1
  omega

theorem eq_or_isDigit_of_mem_signedNumeral {v : Int} {c : Char} (h : c ∈ signedNumeral v) :
    c = '-' ∨ c.isDigit = true := by
  cases v with
  | ofNat n => exact .inr (isDigit_of_mem_numeral h)
  | negSucc n => exact (List.mem_cons.mp h).imp_right isDigit_of_mem_numeral

theorem isOperandChar_of_mem_text {o : Operand} {c : Char} (h : c ∈ o.text) :
    isOperandChar c = true := by
  rcases List.mem_append.mp h with h | h
  · rw [List.eq_of_mem_replicate h]
    rfl
  · rcases eq_or_isDigit_of_mem_signedNumeral h with rfl | hdigit
    · rfl
    · simp [isOperandChar, hdigit]

/-! ## Operands -/

theorem spellsNumber_signedNumeral (v : Int) : SpellsNumber (signedNumeral v) v := by
  cases v with
  | ofNat n =>
      have hspells : SpellsNumber ([] ++ numeral n) (signedValue [] (numeral n)) :=
        .intro (by decide) (numeral_ne_nil n) fun _ => isDigit_of_mem_numeral
      have hvalue : signedValue [] (numeral n) = .ofNat n := by simp [signedValue]
      rw [hvalue] at hspells
      exact hspells
  | negSucc n =>
      have hspells :
          SpellsNumber (['-'] ++ numeral (n + 1)) (signedValue ['-'] (numeral (n + 1))) :=
        .intro (by decide) (numeral_ne_nil _) fun _ => isDigit_of_mem_numeral
      have hvalue : signedValue ['-'] (numeral (n + 1)) = .negSucc n := by
        simp [signedValue, Int.negSucc_eq]
      rw [hvalue] at hspells
      exact hspells

/-- An operand is listed as it is spelled with stars. -/
theorem spells_text {phrases : List String} (hstar : "*" ∈ phrases) (o : Operand) :
    Spells phrases o.text o := by
  obtain ⟨depth, v⟩ := o
  induction depth with
  | zero => exact .number (spellsNumber_signedNumeral v)
  | succ depth ih => exact .indicator hstar .nil ih

theorem any_getLast?_append_text (cs : List Char) (o : Operand) :
    (cs ++ o.text).getLast?.any (!isBlank ·) := by
  have hne : o.text ≠ [] := (spells_text (by decide) o).ne_nil
  have hlast := isOperandChar_of_mem_text (List.getLast_mem hne)
  rw [List.getLast?_append_of_ne_nil cs hne, List.getLast?_eq_some_getLast hne]
  simp [not_isBlank_of_isOperandChar hlast]

theorem getLast?_phrase :
    ∀ k ∈ keywords, k.phrase.toList.getLast?.any (!isBlank ·) := by
  decide +kernel

/-! ## Wordings -/

/-- The texts that word an instruction. -/
inductive Wording : List Char → Instruction → Prop
  | bare {k : Keyword} {op : Operation} (hk : k ∈ keywords) (hshape : k.shape = .bare op) :
      Wording k.phrase.toList ⟨op, none, none⟩
  | data {k : Keyword} {v : Int} (hk : k ∈ keywords) (hshape : k.shape = .unary .data)
      (hv : Operand.InRange v) :
      Wording (k.phrase.toList ++ ' ' :: (Operand.direct v).text)
        ⟨.data, some .zero, some (.direct v)⟩
  | unary {k : Keyword} {op : Operation} {o : Operand} (hk : k ∈ keywords)
      (hshape : k.shape = .unary op) (hop : op ≠ .data) (ho : o.Within Operand.maxDepth) :
      Wording (k.phrase.toList ++ ' ' :: o.text) ⟨op, some o, none⟩
  | binary {k : Keyword} {l : Link} {first second : Operand} (hk : k ∈ keywords)
      (hl : l ∈ k.shape.links) (hfirst : first.Within Operand.maxDepth)
      (hsecond : second.Within Operand.maxDepth) :
      Wording (k.phrase.toList ++ ' ' :: (first.text ++ ' ' :: (l.phrase.toList ++ second.text)))
        ⟨l.operation, some first, some second⟩

namespace Wording

variable {cs : List Char} {i : Instruction}

/-- What holds of the characters of all phrases and operands holds of those of a wording. -/
theorem all {p : Char → Bool} (h : Wording cs i) (hblank : p ' ' = true)
    (hphrase : ∀ k ∈ keywords, k.phrase.toList.all p ∧ ∀ l ∈ k.shape.links, l.phrase.toList.all p)
    (hoperand : ∀ c, isOperandChar c = true → p c = true) : cs.all p := by
  have htext (o : Operand) : o.text.all p :=
    List.all_eq_true.mpr fun c hc => hoperand c (isOperandChar_of_mem_text hc)
  cases h with
  | bare hk _ => exact (hphrase _ hk).1
  | data hk _ _ | unary hk _ _ _ => simp [(hphrase _ hk).1, hblank, htext]
  | binary hk hl _ _ => simp [(hphrase _ hk).1, (hphrase _ hk).2 _ hl, hblank, htext]

theorem map_toLower (h : Wording cs i) : cs.map Char.toLower = cs := by
  have hall : cs.all fun c => c.toLower == c :=
    h.all rfl (by decide +kernel) fun c hc => beq_iff_eq.mpr (toLower_of_isOperandChar hc)
  have heq : ∀ c ∈ cs, c.toLower = c := fun c hc => beq_iff_eq.mp (List.all_eq_true.mp hall c hc)
  exact (List.map_congr_left heq).trans (List.map_id cs)

theorem any_head? (h : Wording cs i) :
    cs.head?.any fun c => !isBlank c && c != '#' && c != '@' := by
  cases h with
  | bare hk _ => exact head?_phrase _ hk
  | data hk _ _ | unary hk _ _ _ | binary hk _ _ _ => exact any_head?_append (head?_phrase _ hk) _

/-- A wording is a single line. -/
theorem ne_lineEnd (h : Wording cs i) : ∀ c ∈ cs, c ≠ '\n' ∧ c ≠ '\r' := by
  have hall : cs.all fun c => c != '\n' && c != '\r' := by
    refine h.all rfl (by decide +kernel) fun c hc => ?_
    rw [Bool.and_eq_true, bne_iff_ne, bne_iff_ne]
    constructor
    · rintro rfl
      cases hc
    · rintro rfl
      cases hc
  intro c hc
  simpa using List.all_eq_true.mp hall c hc

theorem any_getLast? (h : Wording cs i) : cs.getLast?.any (!isBlank ·) := by
  cases h with
  | bare hk _ => exact getLast?_phrase _ hk
  | data hk _ _ | unary hk _ _ _ =>
      rw [List.append_cons]
      exact any_getLast?_append_text _ _
  | @binary k l first second hk hl _ _ =>
      have := any_getLast?_append_text
        (k.phrase.toList ++ ' ' :: (first.text ++ ' ' :: l.phrase.toList)) second
      simpa using this

/-- A wording is derivable, with single blanks between its parts. -/
theorem exists_derivation (h : Wording cs i) :
    ∃ s, Derivation ["*"] cs s ∧ s.instruction = i := by
  have hblank : Blanks [' '] := by decide
  have hgap (o : Operand) : Separates [' '] o.text := ⟨hblank, nofun⟩
  cases h with
  | bare hk hshape => exact ⟨_, .bare hk hshape, rfl⟩
  | @data k v hk hshape hv =>
      have htext : SpellsNumber (Operand.direct v).text v := spellsNumber_signedNumeral v
      exact ⟨_, .data hk hshape (hgap _) hv htext, rfl⟩
  | unary hk hshape hop ho =>
      exact ⟨_, .unary hk hshape hop (hgap _) ho (spells_text (by decide) _), rfl⟩
  | @binary k l first second hk hl hfirst hsecond =>
      have hjoins : Sentence.Joins ["*"] ⟨k, [' '], first.text, [' '], l, [], second.text⟩
          first second :=
        ⟨hk, hl, hgap first, spells_text (by decide) first, hblank, .nil,
          spells_text (by decide) second⟩
      exact ⟨_, .binary hjoins hfirst hsecond, rfl⟩

/-- A wording is read as the instruction it words. -/
theorem readStatement_eq (h : Wording cs i) :
    ∃ s, readStatement cs = (s, none) ∧ s.instruction = i := by
  obtain ⟨s, hderivation, hs⟩ := h.exists_derivation
  exact ⟨s, hderivation.readStatement_eq h.map_toLower, hs⟩

end Wording

end CoreArena.Source
