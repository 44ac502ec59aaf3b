import CoreArena.Proofs.Source.Wording

/-! # The grammar of operands

Every text falls, in a single way, into blanks, indicators with blanks behind each, a sign, digits
and a rest, where each part goes on as long as it can: `Cut.fits_iff`. The depth, the digits and the
value of the parts decide what a reader of operands says of the text, and an operand that is written
out is read back whatever follows it, unless that is a digit: `operand_grammar`. -/

namespace CoreArena.Source

open Text

/-! ## Indicators -/

/-- The indicators that open a text, with all blanks behind each, and what follows the last. -/
inductive Chain : List Char → Nat → List Char → Prop where
  | done {cs : List Char} (h : ∀ p ∈ indicators, ¬ p.toList <+: cs) : Chain cs 0 cs
  | indicator {phrase : String} {blanks cs number : List Char} {depth : Nat}
      (hphrase : phrase ∈ indicators) (hblanks : Blanks blanks) (hnext : cs.head?.all (!isBlank ·))
      (h : Chain cs depth number) :
      Chain (phrase.toList ++ (blanks ++ cs)) (depth + 1) number

theorem afterIndicator?_eq_none_iff {cs : List Char} :
    afterIndicator? cs = none ↔ ∀ p ∈ indicators, ¬ p.toList <+: cs := by
  simp only [afterIndicator?, List.findSome?_eq_none_iff, afterPhrase?_eq_none_iff]

theorem trimStart_blanks_append_of_all {blanks cs : List Char} (hblanks : Blanks blanks)
    (h : cs.head?.all (!isBlank ·)) : trimStart (blanks ++ cs) = cs := by
  cases cs with
  | nil => rw [trimStart_append_of_blank hblanks, trimStart, List.dropWhile_nil]
  | cons c cs => exact trimStart_blanks_append hblanks h

theorem chain_readIndicators (cs : List Char) :
    Chain cs (readIndicators cs).1 (readIndicators cs).2 := by
  fun_induction readIndicators cs with
  | case1 cs hnone => exact .done (afterIndicator?_eq_none_iff.mp hnone)
  | case2 cs after hafter depth number hread ih =>
      rw [hread] at ih
      obtain ⟨phrase, hphrase, hopens⟩ := List.exists_of_findSome?_eq_some hafter
      obtain ⟨blanks, hblanks, hsplit⟩ := exists_blanks_trimStart after
      rw [afterPhrase?_eq_some_iff.mp hopens, hsplit]
      exact .indicator hphrase hblanks (all_head?_dropWhile isBlank after) ih

theorem Chain.readIndicators_eq {cs number : List Char} {depth : Nat} (h : Chain cs depth number) :
    readIndicators cs = (depth, number) := by
  induction h with
  | done h => rw [Source.readIndicators_eq, afterIndicator?_eq_none_iff.mpr h]
  | indicator hphrase hblanks hnext _ ih =>
      rw [Source.readIndicators_eq, afterIndicator?_append hphrase]
      simp only [trimStart_blanks_append_of_all hblanks hnext, ih]

/-! ## Signs -/

/-- A character that is read as a sign. -/
def isSign (c : Char) : Bool :=
  c == '-' || c == '+'

theorem readSign_append_of_all {sign cs : List Char} (hsign : sign ∈ signs)
    (hfirst : sign = [] → cs.head?.all (!isSign ·)) : readSign (sign ++ cs) = (sign, cs) := by
  simp only [signs, List.mem_cons, List.not_mem_nil, or_false] at hsign
  rcases hsign with rfl | rfl | rfl
  · have hnone := hfirst rfl
    rw [List.nil_append]
    unfold readSign
    split
    · cases hnone
    · cases hnone
    · rfl
  · rfl
  · rfl

theorem all_head?_of_readSign {cs : List Char} (h : (readSign cs).1 = []) :
    cs.head?.all (!isSign ·) := by
  unfold readSign at h
  split at h
  · cases h
  · cases h
  · rename_i hminus hplus
    cases cs with
    | nil => rfl
    | cons c cs =>
        have hc : c ≠ '-' ∧ c ≠ '+' :=
          ⟨fun heq => hminus cs (by rw [heq]), fun heq => hplus cs (by rw [heq])⟩
        simp [isSign, hc]

/-! ## Parts -/

/-- The parts of a text behind its blanks: how many indicators, a sign, digits and the rest. -/
structure Cut where
  depth : Nat
  sign : List Char
  digits : List Char
  rest : List Char

namespace Cut

/-- What follows the indicators. -/
def number (x : Cut) : List Char :=
  x.sign ++ (x.digits ++ x.rest)

/-- The operand that the parts spell, if there are digits. -/
def operand (x : Cut) : Operand :=
  ⟨x.depth, signedValue x.sign x.digits⟩

/-- A text falls into the parts, and none of them could go on. -/
structure Fits (x : Cut) (cs : List Char) : Prop where
  chain : ∃ blanks text, Blanks blanks ∧ text.head?.all (!isBlank ·) ∧ cs = blanks ++ text ∧
    Chain text x.depth x.number
  sign_mem : x.sign ∈ signs
  sign_first : x.sign = [] → x.number.head?.all (!isSign ·)
  digits : ∀ c ∈ x.digits, c.isDigit = true
  rest : x.rest.head?.all (!·.isDigit)

/-- The parts that a reader of operands finds. -/
def ofText (cs : List Char) : Cut :=
  let (depth, number) := readIndicators (trimStart cs)
  let (sign, afterSign) := readSign number
  ⟨depth, sign, afterSign.takeWhile Char.isDigit, afterSign.dropWhile Char.isDigit⟩

variable {x : Cut} {cs : List Char}

theorem number_ofText (cs : List Char) :
    (ofText cs).number = (readIndicators (trimStart cs)).2 := by
  have hsplit := (readSign_spec (readIndicators (trimStart cs)).2).2
  rw [number, ofText]
  dsimp only
  rw [List.takeWhile_append_dropWhile, ← hsplit]

theorem fits_ofText (cs : List Char) : (ofText cs).Fits cs where
  chain := by
    obtain ⟨blanks, hblanks, hsplit⟩ := exists_blanks_trimStart cs
    refine ⟨blanks, trimStart cs, hblanks, all_head?_dropWhile isBlank cs, hsplit, ?_⟩
    rw [number_ofText]
    exact chain_readIndicators (trimStart cs)
  sign_mem := (readSign_spec _).1
  sign_first h := by
    rw [number_ofText]
    exact all_head?_of_readSign h
  digits _ := List.mem_takeWhile_imp
  rest := all_head?_dropWhile _ _

theorem Fits.eq_ofText (h : x.Fits cs) : x = ofText cs := by
  obtain ⟨blanks, text, hblanks, htext, rfl, hchain⟩ := h.chain
  have hsign : readSign x.number = (x.sign, x.digits ++ x.rest) :=
    readSign_append_of_all h.sign_mem fun hnone => by
      have hfirst := h.sign_first hnone
      rwa [number, hnone] at hfirst
  have hrest : x.rest.takeWhile Char.isDigit = [] ∧ x.rest.dropWhile Char.isDigit = x.rest := by
    have hopens := h.rest
    cases hcs : x.rest with
    | nil => exact ⟨rfl, rfl⟩
    | cons c cs =>
        rw [hcs] at hopens
        simpa using hopens
  unfold ofText
  simp only [trimStart_blanks_append_of_all hblanks htext, hchain.readIndicators_eq, hsign,
    List.takeWhile_append_of_pos h.digits, List.dropWhile_append_of_pos h.digits, hrest,
    List.append_nil]

/-- A text falls into parts in a single way. -/
theorem fits_iff : x.Fits cs ↔ x = ofText cs :=
  ⟨Fits.eq_ofText, fun h => h ▸ fits_ofText cs⟩

/-- What is wrong with a text that falls into the parts. -/
inductive Fails (x : Cut) (cs : List Char) : Problem → Prop where
  | tooManyReferences (hdepth : Operand.maxDepth < x.depth) :
      Fails x cs (.tooManyReferences (String.ofList (trim cs)))
  | notAnInteger (hdepth : x.depth ≤ Operand.maxDepth) (hdigits : x.digits = []) :
      Fails x cs (.notAnInteger (String.ofList (firstWord x.number)))
  | valueOutOfRange (hdepth : x.depth ≤ Operand.maxDepth) (hdigits : x.digits ≠ [])
      (hvalue : ¬ Operand.InRange x.operand.value) :
      Fails x cs (.valueOutOfRange (String.ofList (x.sign ++ x.digits)))

end Cut

/-! ## Reading -/

theorem readOperand_eq_cut (cs : List Char) :
    readOperand cs =
      if (Cut.ofText cs).depth > Operand.maxDepth then
        .error (.tooManyReferences (String.ofList (trim cs)))
      else if (Cut.ofText cs).digits = [] then
        .error (.notAnInteger (String.ofList (firstWord (Cut.ofText cs).number)))
      else if Operand.InRange (Cut.ofText cs).operand.value then
        .ok ((Cut.ofText cs).operand, (Cut.ofText cs).rest)
      else
        .error (.valueOutOfRange
          (String.ofList ((Cut.ofText cs).sign ++ (Cut.ofText cs).digits))) := by
  rw [readOperand_eq, Cut.number_ofText]
  rfl

theorem readOperand_eq_ok_iff_cut {cs rest : List Char} {o : Operand} :
    readOperand cs = .ok (o, rest) ↔
      (Cut.ofText cs).digits ≠ [] ∧ (Cut.ofText cs).operand.Within Operand.maxDepth ∧
        o = (Cut.ofText cs).operand ∧ rest = (Cut.ofText cs).rest := by
  rw [readOperand_eq_cut]
  constructor
  · intro h
    split at h
    · cases h
    · rename_i hdepth
      split at h
      · cases h
      · rename_i hdigits
        split at h
        · rename_i hvalue
          cases h
          exact ⟨hdigits, ⟨Nat.le_of_not_lt hdepth, hvalue⟩, rfl, rfl⟩
        · cases h
  · rintro ⟨hdigits, hwithin, rfl, rfl⟩
    have hdepth : (Cut.ofText cs).depth ≤ Operand.maxDepth := hwithin.1
    rw [if_neg (Nat.not_lt.mpr hdepth), if_neg hdigits, if_pos hwithin.2]

theorem readOperand_eq_error_iff_cut {cs : List Char} {problem : Problem} :
    readOperand cs = .error problem ↔ (Cut.ofText cs).Fails cs problem := by
  rw [readOperand_eq_cut]
  constructor
  · intro h
    split at h
    · rename_i hdepth
      cases h
      exact .tooManyReferences hdepth
    · rename_i hdepth
      replace hdepth := Nat.le_of_not_lt hdepth
      split at h
      · rename_i hdigits
        cases h
        exact .notAnInteger hdepth hdigits
      · rename_i hdigits
        split at h
        · cases h
        · rename_i hvalue
          cases h
          exact .valueOutOfRange hdepth hdigits hvalue
  · intro h
    cases h with
    | tooManyReferences hdepth => rw [if_pos hdepth]
    | notAnInteger hdepth hdigits => rw [if_neg (Nat.not_lt.mpr hdepth), if_pos hdigits]
    | valueOutOfRange hdepth hdigits hvalue =>
        rw [if_neg (Nat.not_lt.mpr hdepth), if_neg hdigits, if_neg hvalue]

/-- An operand that is written out is read back, whatever else than a digit follows it. -/
theorem readOperand_text_append {o : Operand} (ho : o.Within Operand.maxDepth) {rest : List Char}
    (hrest : rest.head?.all (!·.isDigit)) : readOperand (o.text ++ rest) = .ok (o, rest) :=
  (spells_text (by decide) o).readOperand_append ho hrest

/-- Every text falls into blanks, indicators, a sign, digits and a rest in a single way. An operand
is read exactly if there are no more than two indicators and digits of a value in range, and it is
the one that these spell; of what is wrong otherwise, the indicators count before the missing
digits, and these before the value. An operand that is written out is read back, up to a text that
does not open with a digit. -/
theorem operand_grammar (cs : List Char) :
    (∃! x : Cut, x.Fits cs) ∧
      (∀ o rest, readOperand cs = .ok (o, rest) ↔
        ∃ x : Cut, x.Fits cs ∧ x.digits ≠ [] ∧ x.operand.Within Operand.maxDepth ∧
          o = x.operand ∧ rest = x.rest) ∧
      (∀ problem, readOperand cs = .error problem ↔ ∃ x : Cut, x.Fits cs ∧ x.Fails cs problem) ∧
      ∀ o : Operand, o.Within Operand.maxDepth → ∀ rest : List Char,
        rest.head?.all (!·.isDigit) → readOperand (o.text ++ rest) = .ok (o, rest) := by
  refine ⟨⟨.ofText cs, Cut.fits_ofText cs, fun x => Cut.Fits.eq_ofText⟩, ?_, ?_, ?_⟩
  · intro o rest
    simp only [Cut.fits_iff, exists_eq_left]
    exact readOperand_eq_ok_iff_cut
  · intro problem
    simp only [Cut.fits_iff, exists_eq_left]
    exact readOperand_eq_error_iff_cut
  · intro o ho rest hrest
    exact readOperand_text_append ho hrest

/-- The greatest depth and the least value, with a word behind them. -/
theorem operand_grammar_least :
    (Operand.mk 2 (-2048)).Within Operand.maxDepth ∧ " to 3".toList.head?.all (!·.isDigit) ∧
      readOperand ((Operand.mk 2 (-2048)).text ++ " to 3".toList) =
        .ok (⟨2, -2048⟩, " to 3".toList) := by
  have hwithin : (Operand.mk 2 (-2048)).Within Operand.maxDepth := by decide
  have hrest : " to 3".toList.head?.all (!·.isDigit) := by decide +kernel
  obtain ⟨-, -, -, hwritten⟩ := operand_grammar []
  exact ⟨hwithin, hrest, hwritten _ hwithin _ hrest⟩

end CoreArena.Source
