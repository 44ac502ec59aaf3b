import CoreArena.Proofs.Source.Acceptance

/-! # Interchange of indicators

Any indicator may stand in the place of a star before the second operand of a statement that
writes, copies, moves or compares, except that behind a link for equality the words `the value`
belong to the longer link of the table: `indicators_interchangeable`. -/

namespace CoreArena.Source

open Text

/-! ## Spellings of one operand -/

/-- Two spellings of an operand, the second with any indicators in place of the stars of the
first. -/
inductive Respells : List Char → List Char → Operand → Prop where
  | number {text : List Char} {v : Int} (h : SpellsNumber text v) : Respells text text (.direct v)
  | indicator {phrase : String} {blanks stars spelled : List Char} {o : Operand}
      (hphrase : phrase ∈ indicators) (hblanks : Blanks blanks) (h : Respells stars spelled o) :
      Respells ('*' :: (blanks ++ stars)) (phrase.toList ++ (blanks ++ spelled))
        ⟨o.depth + 1, o.value⟩

theorem Respells.spells {stars spelled : List Char} {o : Operand} (h : Respells stars spelled o) :
    Spells indicators spelled o := by
  induction h with
  | number h => exact .number h
  | indicator hphrase hblanks _ ih => exact .indicator hphrase hblanks ih

/-! ## Operands that are refused -/

/-- Only operands within the limits are read. -/
theorem Spells.within_of_readOperand {text rest : List Char} {o : Operand}
    (h : Spells indicators text o) (hrest : rest.head?.all (!·.isDigit))
    {found : Operand × List Char} (hread : readOperand (text ++ rest) = .ok found) :
    o.Within Operand.maxDepth := by
  have htrim : trimStart (text ++ rest) = text ++ rest :=
    trimStart_of_any_head? (any_head?_append h.any_head?_not_isBlank rest)
  obtain ⟨number, hindicators, hnumber⟩ := h.readIndicators_eq rest
  obtain ⟨sign, digits, hsign, hne, htake, hdrop, hvalue⟩ := hnumber.read_eq hrest
  rw [Source.readOperand_eq] at hread
  simp only [htrim, hindicators, hsign, htake, hdrop, hvalue, hne, if_false] at hread
  split at hread
  · cases hread
  rename_i hdepth
  split at hread
  · rename_i hrange
    exact ⟨Nat.le_of_not_lt hdepth, hrange⟩
  · cases hread

/-- What opens neither a number nor an indicator is no operand. -/
theorem readOperand_of_letter {c : Char} (hblank : isBlank c = false)
    (hnumber : opensNumber c = false) (hindicator : c ≠ 't' ∧ c ≠ '*') (cs : List Char) :
    ∃ word, readOperand (c :: cs) = .error (.notAnInteger word) := by
  obtain ⟨⟨hminus, hplus⟩, hdigit⟩ : (c ≠ '-' ∧ c ≠ '+') ∧ c.isDigit = false := by
    simpa [opensNumber] using hnumber
  have htrim : trimStart (c :: cs) = c :: cs := trimStart_of_any_head? (by simp [hblank])
  have hnone : afterIndicator? (c :: cs) = none :=
    afterIndicator?_eq_none (by simpa using hindicator)
  have hindicators : readIndicators (c :: cs) = (0, c :: cs) := by
    rw [readIndicators_eq, hnone]
  have hsign : readSign (c :: cs) = ([], c :: cs) := by
    unfold readSign
    split
    · rename_i heq
      cases heq
      contradiction
    · rename_i heq
      cases heq
      contradiction
    · rfl
  have hdepth : ¬ 0 > Operand.maxDepth := by decide
  simp [readOperand_eq, htrim, hindicators, hsign, hdigit, hdepth]

namespace Sentence.Joins

variable {x : Sentence} {a b : Operand} {text : List Char}

theorem within_of_readStatement (h : x.Joins indicators a b)
    (hlink : readLink? x.keyword.shape.links x.tail = some (x.link, x.after ++ x.second))
    (hline : text.map Char.toLower = x.text) {s : Statement}
    (hread : readStatement text = (s, none)) :
    a.Within Operand.maxDepth ∧ b.Within Operand.maxDepth := by
  obtain ⟨usual, others, hshape, -⟩ := eq_binary_of_mem_links h.link_mem
  have ha : a.Within Operand.maxDepth := by
    rw [h.readStatement_eq_readBinary hshape hline, readBinary,
      if_neg (by simp [h.spells_first.ne_nil])] at hread
    cases hfirst : readOperand (x.first ++ (x.before ++ x.tail)) with
    | error problem =>
        rw [hfirst] at hread
        cases hread
    | ok found => exact h.spells_first.within_of_readOperand h.all_head?_before hfirst
  refine ⟨ha, ?_⟩
  have hrest : trimStart (x.after ++ x.second) ≠ [] := by
    rw [h.trimStart_second]
    exact h.spells_second.ne_nil
  rw [h.readStatement_eq_of_link ha hlink hrest hline, h.trimStart_second] at hread
  cases hsecond : readOperand x.second with
  | error problem =>
      rw [hsecond] at hread
      cases problem <;> cases hread
  | ok found =>
      have hsecond' : readOperand (x.second ++ []) = .ok found := by simpa using hsecond
      exact h.spells_second.within_of_readOperand rfl hsecond'

end Sentence.Joins

/-! ## Links that swallow the beginning of an indicator -/

/-- The keywords whose links have no indicator of their own. -/
def plainKeywords : List String :=
  ["write", "copy", "move", "skip if"]

/-- The links that a longer link of the table extends by words that open an indicator. -/
def shortLinks : List String :=
  ["is equal to ", "equals "]

/-- What stands behind a link makes the longer link of it. -/
def Sentence.Swallows (x : Sentence) (rest : List Char) : Prop :=
  x.link.phrase ∈ shortLinks ∧ x.after ++ x.second = "the value ".toList ++ rest

theorem linkEnding_of_plain :
    ∀ k ∈ keywords, k.phrase ∈ plainKeywords → ∀ l ∈ k.shape.links,
      ∀ l' ∈ k.shape.links.takeWhile (· ≠ l), ∀ ending ∈ linkEndings,
        l'.phrase.toList = l.phrase.toList ++ ending ∧ ending.head? = some 't' →
        l.phrase ∈ shortLinks ∧ ending = "the value ".toList := by
  decide +kernel

theorem exists_longer_link :
    ∀ k ∈ keywords, ∀ l ∈ k.shape.links, l.phrase ∈ shortLinks → ∃ l' ∈ k.shape.links,
      l'.phrase.toList = l.phrase.toList ++ "the value ".toList ∧
      l'.word = l.word ++ " the value".toList ∧
      ∀ l'' ∈ k.shape.links.takeWhile (· ≠ l'),
        ¬ l''.phrase.toList <+: l'.phrase.toList ∧ ¬ l'.phrase.toList <+: l''.phrase.toList := by
  decide +kernel

/-- What is left of an indicator behind the words that it shares with a link is no operand. -/
theorem readOperand_swallowed {blanks text rest : List Char} {o : Operand}
    (hblanks : Blanks blanks) (h : Spells indicators text o)
    (hrest : blanks ++ text = "the value ".toList ++ rest) :
    rest.head?.any (!isBlank ·) ∧ ∃ word, readOperand rest = .error (.notAnInteger word) := by
  obtain rfl : blanks = [] := by
    cases blanks with
    | nil => rfl
    | cons b bs =>
        obtain ⟨rfl, -⟩ := List.cons.inj hrest
        cases hblanks 't' List.mem_cons_self
  rw [List.nil_append] at hrest
  cases h with
  | number h =>
      obtain ⟨c, cs, rfl, hc⟩ := eq_cons_of_any_head? h.any_head?
      obtain ⟨rfl, -⟩ := List.cons.inj hrest
      cases hc
  | indicator hphrase _ _ =>
      simp only [indicators, List.mem_cons, List.not_mem_nil, or_false] at hphrase
      rcases hphrase with rfl | rfl | rfl | rfl | rfl | rfl <;> simp at hrest
      all_goals
        subst hrest
        exact ⟨rfl, readOperand_of_letter rfl rfl (by decide) _⟩

namespace Sentence.Joins

variable {x : Sentence} {a b : Operand} {text : List Char}

theorem readLink?_plain (h : x.Joins indicators a b) (hplain : x.keyword.phrase ∈ plainKeywords)
    (hnot : ∀ rest, ¬ x.Swallows rest) :
    readLink? x.keyword.shape.links x.tail = some (x.link, x.after ++ x.second) := by
  refine h.readLink?_tail fun l hl ending hending heq hstarts => ?_
  obtain ⟨hhead, -⟩ := exists_indicator_of_linkEnding (List.Subset.refl _) h.blanks_after
    h.spells_second hending hstarts
  obtain ⟨hshort, rfl⟩ := linkEnding_of_plain _ h.keyword_mem hplain _ h.link_mem l hl ending
    hending ⟨heq, hhead⟩
  obtain ⟨rest, hrest⟩ := hstarts
  exact hnot rest ⟨hshort, hrest.symm⟩

/-- Behind a short link the words of the longer one are taken from the operand, of which too little
is left. -/
theorem readStatement_swallowed (h : x.Joins indicators a b) (ha : a.Within Operand.maxDepth)
    {rest : List Char} (hswallows : x.Swallows rest) (hline : text.map Char.toLower = x.text) :
    (readStatement text).2 = some (.invalidSecondArgument x.keyword.phrase (String.ofList rest)
      (String.ofList (x.link.word ++ " the value".toList))) := by
  obtain ⟨hshort, hrest⟩ := hswallows
  obtain ⟨l, hl, hphrase, hword, hfirst⟩ := exists_longer_link _ h.keyword_mem _ h.link_mem hshort
  have hlink : readLink? x.keyword.shape.links x.tail = some (l, rest) := by
    rw [tail, hrest, ← List.append_assoc, ← hphrase]
    refine readLink?_append hl fun l' hl' hopens => ?_
    rcases prefix_append_cases hopens with hstarts | ⟨more, heq, -⟩
    · exact (hfirst l' hl').1 hstarts
    · exact (hfirst l' hl').2 ⟨more, heq.symm⟩
  obtain ⟨hhead, word, hsecond⟩ := readOperand_swallowed h.blanks_after h.spells_second hrest
  have htrim : trimStart rest = rest := trimStart_of_any_head? hhead
  have hne : trimStart rest ≠ [] := by
    rw [htrim]
    rintro rfl
    cases hhead
  rw [h.readStatement_eq_of_link ha hlink hne hline, htrim, hsecond, hword]

end Sentence.Joins

/-! ## Interchange -/

/-- A statement that assembles with stars before its second operand assembles to the same word with
any indicators in their place, unless what stands behind its link makes a longer link of it. Then
the statement is refused for what is left of the indicator. -/
theorem indicators_interchangeable {x : Sentence} {spelled : List Char} {a b : Operand}
    {text text' : List Char} {p : Assembled} (hplain : x.keyword.phrase ∈ plainKeywords)
    (hjoins : x.Joins ["*"] a b) (hspelled : Respells x.second spelled b)
    (hlf : '\n' ∉ text) (hline : (trim text).map Char.toLower = x.text)
    (hlf' : '\n' ∉ text')
    (hline' : (trim text').map Char.toLower = { x with second := spelled }.text)
    (h : assemble (String.ofList text) = .ok p) :
    ((∀ rest, ¬ { x with second := spelled }.Swallows rest) →
      assemble (String.ofList text') = .ok p) ∧
    ∀ rest, { x with second := spelled }.Swallows rest →
      assemble (String.ofList text') =
        .error (.badLine 1 (.invalidSecondArgument x.keyword.phrase (String.ofList rest)
          (String.ofList (x.link.word ++ " the value".toList)))) := by
  have hstars : x.Joins indicators a b := hjoins.mono (by decide)
  have hwords : Sentence.Joins indicators { x with second := spelled } a b :=
    { hstars with spells_second := hspelled.spells }
  have hsingle := assemble_single hlf (holdsStatement_of_keyword hjoins.keyword_mem hline)
  have hsingle' := assemble_single hlf' (holdsStatement_of_keyword hjoins.keyword_mem hline')
  obtain ⟨ha, hb⟩ : a.Within Operand.maxDepth ∧ b.Within Operand.maxDepth := by
    cases hread : readStatement (trim text) with
    | mk s problem =>
        cases problem with
        | none => exact hstars.within_of_readStatement hjoins.readLink?_star hline hread
        | some problem =>
            rw [hread, h] at hsingle
            cases hsingle
  rw [hstars.readStatement_eq ha hb hjoins.readLink?_star hline, h] at hsingle
  constructor
  · intro hnot
    rw [hsingle', hwords.readStatement_eq ha hb (hwords.readLink?_plain hplain hnot) hline',
      hsingle]
    rfl
  · intro rest hswallows
    have hproblem := hwords.readStatement_swallowed ha hswallows hline'
    cases hread : readStatement (trim text') with
    | mk s problem =>
        rw [hread] at hproblem hsingle'
        obtain rfl : problem = some _ := hproblem
        exact hsingle'

theorem indicators_interchangeable_equals :
    assemble (String.ofList "skip if 5 equals *3".toList) = .ok ⟨[1879134211], []⟩ ∧
      Respells "*3".toList "the address given at 3".toList ⟨1, 3⟩ ∧
      Respells "*3".toList "the value given at 3".toList ⟨1, 3⟩ ∧
      assemble (String.ofList "SKIP if 5 equals The Address Given At 3".toList) =
        .ok ⟨[1879134211], []⟩ ∧
      assemble (String.ofList "SKIP if 5 equals The Value Given At 3".toList) =
        .error (.badLine 1 (.invalidSecondArgument "skip if" (String.ofList "given at 3".toList)
          (String.ofList ("equals".toList ++ " the value".toList)))) := by
  have hassemble : assemble (String.ofList "skip if 5 equals *3".toList) =
      .ok ⟨[1879134211], []⟩ := by decide +kernel
  have hfive : SpellsNumber ([] ++ ['5']) 5 :=
    .intro (by decide) (by decide) (List.all_eq_true.mp rfl)
  have hthree : SpellsNumber ([] ++ ['3']) 3 :=
    .intro (by decide) (by decide) (List.all_eq_true.mp rfl)
  have haddress : Respells ('*' :: ([] ++ ['3']))
      ("the address given at ".toList ++ ([] ++ ['3'])) ⟨1, 3⟩ :=
    .indicator (by decide) (by decide) (.number hthree)
  have hvalue : Respells ('*' :: ([] ++ ['3']))
      ("the value given at ".toList ++ ([] ++ ['3'])) ⟨1, 3⟩ :=
    .indicator (by decide) (by decide) (.number hthree)
  have hstar : Spells ["*"] ("*".toList ++ ([] ++ ['3'])) ⟨1, 3⟩ :=
    .indicator (by decide) (by decide) (.number hthree)
  have hjoins : Sentence.Joins ["*"]
      ⟨⟨"skip if", .binary ⟨"is equal to the value ", .skipIfEqual⟩ comparisonLinks⟩, [' '], ['5'],
        [' '], ⟨"equals ", .skipIfEqual⟩, [], ['*', '3']⟩ ⟨0, 5⟩ ⟨1, 3⟩ :=
    ⟨by decide, by decide, ⟨by decide, nofun⟩, .number hfive, by decide, by decide, hstar⟩
  refine ⟨hassemble, haddress, hvalue, ?_, ?_⟩
  · refine (indicators_interchangeable (by decide) hjoins haddress (by decide +kernel)
      (by decide +kernel) (by decide +kernel) (by decide +kernel) hassemble).1 ?_
    rintro rest ⟨-, hrest⟩
    simp at hrest
  · exact (indicators_interchangeable (by decide) hjoins hvalue (by decide +kernel)
      (by decide +kernel) (by decide +kernel) (by decide +kernel) hassemble).2 _
      ⟨by decide, rfl⟩

/-- A star before the second operand and the indicator in words that does not do in its place. -/
theorem value_indicator_swallowed :
    Respells "*3".toList "the value at 3".toList ⟨1, 3⟩ ∧
      assemble ("skip if 5 is equal to " ++ "*3") = .ok ⟨[1879134211], []⟩ ∧
      assemble ("skip if 5 is equal to " ++ "the value at 3") =
        .error (.badLine 1 (.invalidSecondArgument "skip if" "at 3" "is equal to the value")) := by
  have hthree : SpellsNumber ([] ++ ['3']) 3 :=
    .intro (by decide) (by decide) (List.all_eq_true.mp rfl)
  have hrespells : Respells ('*' :: ([] ++ ['3'])) ("the value at ".toList ++ ([] ++ ['3']))
      ⟨1, 3⟩ :=
    .indicator (by decide) (by decide) (.number hthree)
  exact ⟨hrespells, by decide +kernel, by decide +kernel⟩

end CoreArena.Source
