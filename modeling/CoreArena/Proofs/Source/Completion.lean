import CoreArena.Proofs.Source.Acceptance

/-! # Statements that stop too early

A soft problem is found where a line ends after a keyword, or after its first operand and as much of
a link as has been typed: `Unfinished`. Such a line can always be typed on until it is derivable,
with the keyword and the operand that it has: `soft_problem_cured`. -/

namespace CoreArena.Source

open Text

theorem trim_append_of_blanks {blanks : List Char} (h : Blanks blanks) (cs : List Char) :
    trim (cs ++ blanks) = trim cs := by
  rw [trim, trimStart, List.dropWhile_append]
  split
  · rename_i hnil
    rw [List.dropWhile_eq_nil_iff.mpr h, trim, trimStart, List.isEmpty_iff.mp hnil]
  · rw [trimEnd, List.reverse_append, List.dropWhile_append_of_pos fun c hc =>
      h c (List.mem_reverse.mp hc)]
    rfl

/-- The lines in lower case that stop too early, and what is understood of them. -/
inductive Unfinished : List Char → Statement → Prop where
  | keyword {k : Keyword} {s : Statement} (hk : k ∈ keywords) (hshape : ∀ op, k.shape ≠ .bare op)
      (hkeyword : s.keyword = k.phrase) (hoperands : s.operands = []) :
      Unfinished k.phrase.toList s
  | link {k : Keyword} {s : Statement} {l : Link} {gap first before start missing : List Char}
      {a : Operand} (hk : k ∈ keywords) (hl : l ∈ k.shape.links) (hgap : Separates gap first)
      (hfirst : Spells indicators first a) (ha : a.Within Operand.maxDepth)
      (hbefore : Blanks before) (hword : l.word = start ++ missing)
      (hkeyword : s.keyword = k.phrase) (hoperands : s.operands = [a]) :
      Unfinished (k.phrase.toList ++ (gap ++ (first ++ (before ++ start)))) s

/-! ## Lines with a soft problem are unfinished -/

section Soft

variable {cs rest : List Char} {s : Statement} {p : Problem} {keyword : String}

/-- What is wrong with an operand that is there is not cured by more typing. -/
theorem readOperand_ne_of_isSoft (hsoft : p.isSoft = true) : readOperand cs ≠ .error p := by
  intro h
  simp only [readOperand_eq] at h
  split at h
  · cases h
    cases hsoft
  · split at h
    · cases h
      cases hsoft
    · split at h
      · cases h
      · cases h
        cases hsoft

theorem trailing?_ne_of_isSoft (hsoft : p.isSoft = true) : trailing? cs ≠ some p := by
  intro h
  unfold trailing? at h
  split at h
  · cases h
  · cases h
    cases hsoft

theorem eq_nil_of_readUnary {op : Operation} (h : readUnary op keyword cs = (s, some p))
    (hsoft : p.isSoft = true) : cs = [] ∧ s = .opening op keyword := by
  simp only [readUnary] at h
  split at h
  · rename_i hnil
    cases h
    exact ⟨hnil, rfl⟩
  exfalso
  split at h
  · rename_i hread
    cases h
    exact readOperand_ne_of_isSoft hsoft hread
  split at h
  · rename_i htrailing
    cases h
    exact trailing?_ne_of_isSoft hsoft htrailing
  split at h
  · cases h
  split at h
  · cases h
    cases hsoft
  · cases h

/-- A statement that takes two operands stops before the first one, or behind it in a link. -/
theorem exists_start_of_readBinary {usual : Link} {others : List Link}
    (h : readBinary usual others keyword cs = (s, some p)) (hsoft : p.isSoft = true) :
    s.keyword = keyword ∧ (cs = [] ∧ s.operands = [] ∨
      ∃ a after, readOperand cs = .ok (a, after) ∧ s.operands = [a] ∧
        ∃ l ∈ usual :: others, trim after <+: l.word) := by
  simp only [readBinary] at h
  split at h
  · rename_i hnil
    cases h
    exact ⟨rfl, .inl ⟨hnil, rfl⟩⟩
  split at h
  · rename_i hread
    cases h
    exact absurd hread (readOperand_ne_of_isSoft hsoft)
  rename_i a after hfirst
  split at h
  · rename_i hstart
    cases h
    refine ⟨rfl, .inr ⟨a, after, hfirst, rfl, ?_⟩⟩
    rcases Bool.or_eq_true_iff.mp hstart with husual | hword
    · exact ⟨usual, List.mem_cons_self, List.isPrefixOf_iff_prefix.mp husual⟩
    · obtain ⟨l, hl, heq⟩ := List.any_eq_true.mp hword
      exact ⟨l, hl, eq_of_beq heq ▸ List.prefix_refl _⟩
  split at h
  · cases h
    cases hsoft
  rename_i l rest hlink
  split at h
  · rename_i hblank
    cases h
    obtain ⟨hl, htail⟩ := eq_append_of_readLink? hlink
    refine ⟨rfl, .inr ⟨a, after, hfirst, rfl, l, hl, ?_⟩⟩
    have hword : trim after = l.word := by
      rw [← trim_trim after, htail,
        trim_append_of_blanks fun c hc => List.dropWhile_eq_nil_iff.mp hblank c hc]
      rfl
    exact hword ▸ List.prefix_refl _
  exfalso
  split at h
  · cases h
    cases hsoft
  · rename_i hread
    cases h
    exact readOperand_ne_of_isSoft hsoft hread
  split at h
  · rename_i htrailing
    cases h
    exact trailing?_ne_of_isSoft hsoft htrailing
  · cases h

/-- A line with a soft problem is unfinished, blanks at its end aside. -/
theorem exists_unfinished_of_readStatement {text : List Char}
    (h : readStatement text = (s, some p)) (hsoft : p.isSoft = true) :
    ∃ core rest, text.map Char.toLower = core ++ rest ∧ Unfinished core s ∧ Blanks rest := by
  simp only [readStatement] at h
  split at h
  · cases h
    cases hsoft
  rename_i k rest hkeyword
  obtain ⟨hk, hline, hrest⟩ := eq_append_of_readKeyword? hkeyword
  split at h
  · cases h
  · rename_i op hshape
    obtain ⟨hnil, rfl⟩ := eq_nil_of_readUnary h hsoft
    refine ⟨_, rest, hline, .keyword hk (by simp [hshape]) rfl rfl, ?_⟩
    exact fun c hc => List.dropWhile_eq_nil_iff.mp hnil c hc
  · rename_i usual others hshape
    obtain ⟨hs, ⟨hnil, hoperands⟩ | ⟨a, after, hfirst, hoperands, l, hl, missing, hword⟩⟩ :=
      exists_start_of_readBinary h hsoft
    · refine ⟨_, rest, hline, .keyword hk (by simp [hshape]) hs hoperands, ?_⟩
      exact fun c hc => List.dropWhile_eq_nil_iff.mp hnil c hc
    · obtain ⟨ha, -, first, hspells, hcs⟩ := readOperand_eq_ok_iff.mp hfirst
      rw [trimStart_trimStart] at hcs
      obtain ⟨gap, hgap, rfl⟩ := exists_separates hrest hspells.ne_nil hcs
      obtain ⟨before, behind, hbefore, hbehind, hafter⟩ := exists_blanks_trim after
      have hl' : l ∈ k.shape.links := by rwa [hshape]
      refine ⟨_, behind, ?_,
        .link hk hl' hgap hspells ha hbefore hword.symm hs hoperands, hbehind⟩
      simp only [List.append_assoc]
      rw [← hafter, hline]

end Soft

/-! ## Unfinished lines can be completed -/

/-- What may be typed behind a line: neither capitals nor line feeds. -/
def Plain (ending : List Char) : Prop :=
  ∀ c ∈ ending, c.toLower = c ∧ c ≠ '\n'

instance : DecidablePred Plain := fun cs =>
  List.decidableBAll (fun c : Char => c.toLower = c ∧ c ≠ '\n') cs

theorem Plain.append {cs ds : List Char} (hcs : Plain cs) (hds : Plain ds) : Plain (cs ++ ds) := by
  intro c hc
  exact (List.mem_append.mp hc).elim (hcs c) (hds c)

theorem Plain.of_append {cs ds : List Char} (h : Plain (cs ++ ds)) : Plain ds :=
  fun c hc => h c (List.mem_append_right cs hc)

theorem Plain.map_toLower {cs : List Char} (h : Plain cs) : cs.map Char.toLower = cs :=
  (List.map_congr_left fun c hc => (h c hc).1).trans (List.map_id cs)

theorem plain_word : ∀ k ∈ keywords, ∀ l ∈ k.shape.links, Plain l.word := by
  decide +kernel

/-- A link with a blank behind it is its phrase, perhaps with a blank behind it. -/
theorem exists_blanks_word :
    ∀ k ∈ keywords, ∀ l ∈ k.shape.links, ∃ after ∈ [[], [' ']],
      l.word ++ [' '] = l.phrase.toList ++ after := by
  decide +kernel

theorem spellsNumber_zero : SpellsNumber ['0'] 0 := by
  have hzero : SpellsNumber ([] ++ ['0']) (signedValue [] ['0']) :=
    .intro (by decide) (List.cons_ne_nil _ _) (List.all_eq_true.mp rfl)
  exact hzero

theorem separates_blank (text : List Char) : Separates [' '] text :=
  ⟨by decide, nofun⟩

/-- The rest of a link and a number behind it complete a line that ends in the link. -/
theorem exists_derivation_of_link {k : Keyword} {l : Link}
    {gap first before start missing : List Char} {a : Operand} (hk : k ∈ keywords)
    (hl : l ∈ k.shape.links) (hgap : Separates gap first) (hfirst : Spells indicators first a)
    (ha : a.Within Operand.maxDepth) (hbefore : Blanks before)
    (hword : l.word = start ++ missing) :
    ∃ s, Derivation ["*"] (k.phrase.toList ++ (gap ++ (first ++ (before ++ start))) ++
        (missing ++ [' '] ++ ['0'])) s ∧ s.keyword = k.phrase ∧ s.operands = [a, .zero] := by
  obtain ⟨after, hafter, hphrase⟩ := exists_blanks_word k hk l hl
  have hblanks : Blanks after := by
    rcases List.mem_pair.mp hafter with rfl | rfl <;> decide
  have hzero : Operand.zero.Within Operand.maxDepth := by decide
  have hjoins : Sentence.Joins ["*"] ⟨k, gap, first, before, l, after, ['0']⟩ a .zero :=
    ⟨hk, hl, hgap, hfirst, hbefore, hblanks, .number spellsNumber_zero⟩
  refine ⟨_, Eq.subst (motive := (Derivation ["*"] · _)) ?_ (.binary hjoins ha hzero), rfl, rfl⟩
  have htail : start ++ (missing ++ ([' '] ++ ['0'])) = l.phrase.toList ++ (after ++ ['0']) := by
    rw [← List.append_assoc, ← hword, ← List.append_assoc, hphrase, List.append_assoc]
  simp only [Sentence.text, Sentence.tail, ← htail, List.append_assoc]

/-- An unfinished line can be typed on until it is derivable, with the keyword and the operand that
it has. -/
theorem Unfinished.exists_derivation {core : List Char} {s : Statement} (h : Unfinished core s) :
    ∃ typed s', Plain typed ∧ Derivation ["*"] (core ++ (typed ++ ['0'])) s' ∧
      s'.keyword = s.keyword ∧ s.operands <+: s'.operands := by
  have hblank : Plain [' '] := by decide
  have hzero : Operand.zero.Within Operand.maxDepth := by decide
  cases h with
  | @keyword k _ hk hshape hkeyword hoperands =>
      rw [hkeyword, hoperands]
      cases hk' : k.shape with
      | bare op => exact absurd hk' (hshape op)
      | unary op =>
          by_cases hop : op = .data
          · subst hop
            exact ⟨_, _, hblank,
              .data hk hk' (separates_blank ['0']) hzero.2 spellsNumber_zero, rfl,
              List.nil_prefix⟩
          · exact ⟨_, _, hblank,
              .unary hk hk' hop (separates_blank ['0']) hzero (.number spellsNumber_zero), rfl,
              List.nil_prefix⟩
      | binary usual others =>
          have hl : usual ∈ k.shape.links := by
            rw [hk']
            exact List.mem_cons_self
          obtain ⟨s', hderivation, hs', -⟩ := exists_derivation_of_link hk hl
            (separates_blank ['0']) (.number spellsNumber_zero) hzero (by decide : Blanks [' '])
            (List.nil_append _).symm
          have hfirst : Plain [' ', '0', ' '] := by decide
          refine ⟨[' ', '0', ' '] ++ (usual.word ++ [' ']), s',
            hfirst.append ((plain_word k hk usual hl).append hblank), ?_, hs', List.nil_prefix⟩
          rw [List.append_assoc, ← List.append_assoc]
          exact hderivation
  | @link k _ l _ _ _ _ missing _ hk hl hgap hfirst ha hbefore hword hkeyword hoperands =>
      obtain ⟨s', hderivation, hs', hoperands'⟩ :=
        exists_derivation_of_link hk hl hgap hfirst ha hbefore hword
      have hmissing : Plain missing := (hword ▸ plain_word k hk l hl).of_append
      refine ⟨missing ++ [' '], s', hmissing.append hblank, hderivation, ?_, ?_⟩
      · rw [hs', hkeyword]
      · rw [hoperands, hoperands']
        exact ⟨[.zero], rfl⟩

theorem Unfinished.ne_nil {core : List Char} {s : Statement} (h : Unfinished core s) :
    core ≠ [] := by
  cases h with
  | keyword hk _ _ _ | link hk _ _ _ _ _ _ _ _ =>
      obtain ⟨c, cs, hphrase, -⟩ := eq_cons_of_any_head? (head?_phrase _ hk)
      simp [hphrase]

/-! ## Sources of one line -/

/-- A line with a soft problem is a statement, and has the problem from its own text. -/
theorem readStatement_of_soft {number statementsBefore : Nat} {line : List Char} {l : SourceLine}
    {p : Problem} (h : readLine number statementsBefore line = l) (hproblem : l.problem = some p)
    (hsoft : p.isSoft = true) :
    ∃ s, l.content = .statement s ∧ readStatement (trim line) = (s, some p) := by
  unfold readLine at h
  split at h
  · cases h
    cases hproblem
  · cases h
    cases hproblem
  · cases h
    simp only [readDescription] at hproblem
    split at hproblem
    · cases hproblem
      cases hsoft
    · split at hproblem
      · cases hproblem
        cases hsoft
      · cases hproblem
  · cases h
    refine ⟨_, rfl, Prod.ext rfl ?_⟩
    rcases Option.or_eq_some_iff.mp hproblem with hown | ⟨-, hlong⟩
    · exact hown
    · split at hlong
      · cases hlong
      · cases hlong
        cases hsoft

theorem lineFeed_not_mem_trim {line : List Char} (h : '\n' ∉ line) : '\n' ∉ trim line := by
  obtain ⟨before, behind, -, -, hline⟩ := exists_blanks_trim line
  intro hmem
  apply h
  rw [hline]
  exact List.mem_append_right before (List.mem_append_left behind hmem)

/-- A trimmed line with more text behind it is trimmed, unless that ends with a blank. -/
theorem trim_trim_append {line ending : List Char} {c : Char} (hne : trim line ≠ [])
    (hc : isBlank c = false) :
    trim (trim line ++ (ending ++ [c])) = trim line ++ (ending ++ [c]) := by
  refine trim_blanks_append (List.forall_mem_nil _) ?_ ?_
  · obtain ⟨d, ds, htrim⟩ := List.exists_cons_of_ne_nil hne
    simp [htrim, head?_trim_not_isBlank htrim]
  · simp [hc]

/-- A line whose problem is soft can be typed on, from its last character that is not blank, until
it is a statement without a problem. It has the keyword that was known, and the operands that were.
-/
theorem soft_problem_cured {source : String} {line : List Char} {l : SourceLine} {p : Problem}
    (hsource : lines source.toList = [line]) (hl : l ∈ (read source).lines)
    (hproblem : l.problem = some p) (hsoft : p.isSoft = true) :
    ∃ s ending s', l.content = .statement s ∧
      (read (String.ofList (trim line ++ ending))).lines =
        [⟨1, trim line ++ ending, .statement s', none⟩] ∧
      s'.keyword = s.keyword ∧ s.operands <+: s'.operands := by
  have hline : l = readLine 1 0 line := by
    have hmem := (dropPadding_sublist _).subset hl
    rw [hsource] at hmem
    exact List.mem_singleton.mp hmem
  obtain ⟨s, hs, hread⟩ := readStatement_of_soft hline.symm hproblem hsoft
  obtain ⟨core, rest, hlower, hunfinished, hblanks⟩ :=
    exists_unfinished_of_readStatement hread hsoft
  obtain rfl := eq_nil_of_map_toLower_trim hblanks hlower
  rw [List.append_nil] at hlower
  obtain ⟨typed, s', hplain, hderivation, hkeyword, hoperands⟩ := hunfinished.exists_derivation
  have hne : trim line ≠ [] := by
    intro hnil
    exact hunfinished.ne_nil (by rw [← hlower, hnil, List.map_nil])
  have htrim : trim (trim line ++ (typed ++ ['0'])) = trim line ++ (typed ++ ['0']) :=
    trim_trim_append hne (by decide)
  have hlf : '\n' ∉ trim line ++ (typed ++ ['0']) := by
    have hnumber : Plain ['0'] := by decide
    have hline : '\n' ∉ line :=
      lineFeed_not_mem_of_mem_lines (hsource ▸ List.mem_singleton_self line)
    intro hmem
    rcases List.mem_append.mp hmem with hmem | hmem
    · exact lineFeed_not_mem_trim hline hmem
    · exact ((hplain.append hnumber) _ hmem).2 rfl
  have hwhole : Derivation ["*"] ((trim line ++ (typed ++ ['0'])).map Char.toLower) s' := by
    rw [List.map_append, hlower, List.map_append, hplain.map_toLower]
    exact hderivation
  have haccepted := lines_read_of_readStatement hlf (htrim.symm ▸ hwhole.readStatement_eq rfl)
  rw [htrim] at haccepted
  exact ⟨s, typed ++ ['0'], s', hs, haccepted, hkeyword, hoperands⟩

theorem soft_problem_cured_write :
    lines " Write 1 t\n".toList = [" Write 1 t".toList] ∧
      (read " Write 1 t\n").lines =
        [⟨1, "Write 1 t".toList, .statement ⟨.write, [⟨0, 1⟩], "write", none⟩,
          some (.missingSecondArgument "write" "to address")⟩] ∧
      ∃ s ending s', LineContent.statement ⟨.write, [⟨0, 1⟩], "write", none⟩ = .statement s ∧
        (read (String.ofList (trim " Write 1 t".toList ++ ending))).lines =
          [⟨1, trim " Write 1 t".toList ++ ending, .statement s', none⟩] ∧
        s'.keyword = s.keyword ∧ s.operands <+: s'.operands := by
  have hlines : lines " Write 1 t\n".toList = [" Write 1 t".toList] := by decide +kernel
  have hread : (read " Write 1 t\n").lines =
      [⟨1, "Write 1 t".toList, .statement ⟨.write, [⟨0, 1⟩], "write", none⟩,
        some (.missingSecondArgument "write" "to address")⟩] := by
    decide +kernel
  exact ⟨hlines, hread, soft_problem_cured hlines (hread ▸ List.mem_cons_self) rfl rfl⟩

end CoreArena.Source
