import CoreArena.Proofs.Source.Derivability
import CoreArena.Proofs.Source.Reading

/-! # Accepted lines

A line that is derivable with stars before its second operand is read as it is derived:
`derivable_line_accepted`. A statement line without a problem is derivable as a whole, unless it has
text behind a keyword that stands alone, which is overlooked: `accepted_line_derivable`. -/

namespace CoreArena.Source

open Text

/-! ## Letter case -/

theorem toLower_eq_or (c : Char) :
    c.toLower = c ∨ 97 ≤ c.toLower.toNat ∧ c.toLower.toNat ≤ 122 := by
  by_cases hcapital : c.val ≥ 'A'.val ∧ c.val ≤ 'Z'.val
  · have hlow : 65 ≤ c.val.toNat := UInt32.le_iff_toNat_le.mp hcapital.1
    have hhigh : c.val.toNat ≤ 90 := UInt32.le_iff_toNat_le.mp hcapital.2
    have hval : c.toLower.toNat = (c.val + 32).toNat := congrArg Char.toNat (dif_pos hcapital)
    rw [UInt32.toNat_add, show (32 : UInt32).toNat = 32 from rfl] at hval
    omega
  · exact .inl (dif_neg hcapital)

theorem isBlank_of_isBlank_toLower {c : Char} (h : isBlank c.toLower = true) :
    isBlank c = true := by
  rcases toLower_eq_or c with heq | hletter
  · rwa [heq] at h
  · simp [isBlank] at h
    omega

/-! ## Lines that hold statements -/

theorem holdsStatement_of_keyword {text rest : List Char} {k : Keyword} (hk : k ∈ keywords)
    (hline : (trim text).map Char.toLower = k.phrase.toList ++ rest) :
    holdsStatement text = true := by
  obtain ⟨d, ds, hd, hopen⟩ := eq_cons_of_any_head? (head?_phrase k hk)
  rw [hd] at hline
  obtain ⟨c, cs, htext, rfl, -⟩ := List.map_eq_cons_iff.mp hline
  have hcomment : c ≠ '#' := by
    rintro rfl
    cases hopen
  have hdescription : c ≠ '@' := by
    rintro rfl
    cases hopen
  exact holdsStatement_of_head?_trim (by simp [htext, hcomment, hdescription])

theorem lines_read_of_readStatement {text : List Char} {s : Statement} (hlf : '\n' ∉ text)
    (h : readStatement (trim text) = (s, none)) :
    (read (String.ofList text)).lines = [⟨1, trim text, .statement s, none⟩] := by
  have hholds : holdsStatement text = true := by
    cases hkeyword : readKeyword? ((trim text).map Char.toLower) with
    | none =>
        simp only [readStatement, hkeyword] at h
        cases h
    | some found =>
        obtain ⟨hk, hline, -⟩ := eq_append_of_readKeyword? hkeyword
        exact holdsStatement_of_keyword hk hline
  rw [lines_read_single hlf hholds, h]

/-- A line with a statement without a problem is what was read from its text. -/
theorem readStatement_of_readLine {number statementsBefore : Nat} {line : List Char}
    {l : SourceLine} {s : Statement} (h : readLine number statementsBefore line = l)
    (hcell : l.isStatement = true) (hs : l.content = .statement s) (hproblem : l.problem = none) :
    l.text = trim line ∧ readStatement (trim line) = (s, none) := by
  unfold readLine at h
  split at h
  · cases h
    cases hcell
  · cases h
    cases hs
  · cases h
    cases hs
  · cases h
    cases hs
    exact ⟨rfl, Prod.ext rfl (Option.or_eq_none_iff.mp hproblem).1⟩

theorem exists_readLine {l : SourceLine} {number statementsBefore : Nat} {ls : List (List Char)}
    (h : l ∈ readLines number statementsBefore ls) :
    ∃ number statementsBefore line, l = readLine number statementsBefore line := by
  induction ls generalizing number statementsBefore with
  | nil => cases h
  | cons line ls ih =>
      rcases List.mem_cons.mp h with rfl | h
      · exact ⟨_, _, line, rfl⟩
      · exact ih h

/-- A trimmed line does not end with blanks, in whatever letter case. -/
theorem eq_nil_of_map_toLower_trim {line core rest : List Char} (hrest : Blanks rest)
    (h : (trim line).map Char.toLower = core ++ rest) : rest = [] := by
  by_contra hne
  have hlast : (trim line).getLast?.map Char.toLower = some (rest.getLast hne) := by
    rw [← List.getLast?_map, h, List.getLast?_append_of_ne_nil core hne,
      List.getLast?_eq_some_getLast hne]
  obtain ⟨c, hc, hlower⟩ := Option.map_eq_some_iff.mp hlast
  have hblank : isBlank c = true :=
    isBlank_of_isBlank_toLower (hlower ▸ hrest _ (List.getLast_mem hne))
  have htrim : trim line ≠ [] := by
    intro hnil
    simp [hnil] at hc
  rw [List.getLast?_eq_some_getLast htrim, Option.some.injEq] at hc
  exact List.rdropWhile_last_not isBlank (trimStart line) htrim (hc ▸ hblank)

/-! ## The language of statements -/

/-- Every derivable line without a line feed is read as it is derived, in any letter case, if its
second operand takes only stars. -/
theorem derivable_line_accepted {text : List Char} {s : Statement} (hlf : '\n' ∉ text)
    (h : Derivation ["*"] ((trim text).map Char.toLower) s) :
    (read (String.ofList text)).lines = [⟨1, trim text, .statement s, none⟩] :=
  lines_read_of_readStatement hlf (h.readStatement_eq rfl)

theorem derivable_line_accepted_add :
    '\n' ∉ "ADD\tThe Value At *+05To The Value At  *-7".toList ∧
      Derivation ["*"] ((trim "ADD\tThe Value At *+05To The Value At  *-7".toList).map Char.toLower)
        ⟨.add, [⟨2, 5⟩, ⟨1, -7⟩], "add", some "to the value at"⟩ ∧
      (read (String.ofList "ADD\tThe Value At *+05To The Value At  *-7".toList)).lines =
        [⟨1, trim "ADD\tThe Value At *+05To The Value At  *-7".toList,
          .statement ⟨.add, [⟨2, 5⟩, ⟨1, -7⟩], "add", some "to the value at"⟩, none⟩] := by
  have hlf : '\n' ∉ "ADD\tThe Value At *+05To The Value At  *-7".toList := by decide +kernel
  have hfive : SpellsNumber (['+'] ++ ['0', '5']) 5 :=
    .intro (by decide) (by decide) (List.all_eq_true.mp rfl)
  have hseven : SpellsNumber (['-'] ++ ['7']) (-7) :=
    .intro (by decide) (by decide) (List.all_eq_true.mp rfl)
  have hfirst : Spells indicators
      ("the value at ".toList ++ ([] ++ ("*".toList ++ ([] ++ (['+'] ++ ['0', '5']))))) ⟨2, 5⟩ :=
    .indicator (by decide) (by decide) (.indicator (by decide) (by decide) (.number hfive))
  have hsecond : Spells ["*"] ("*".toList ++ ([] ++ (['-'] ++ ['7']))) ⟨1, -7⟩ :=
    .indicator (by decide) (by decide) (.number hseven)
  have hjoins : Sentence.Joins ["*"]
      ⟨⟨"add", .binary ⟨"to the value at ", .add⟩ (linksTo .add ["to ", ","])⟩, ['\t'], _, [],
        ⟨"to the value at ", .add⟩, [' '], _⟩ ⟨2, 5⟩ ⟨1, -7⟩ :=
    ⟨by decide, by decide, ⟨by decide, nofun⟩, hfirst, by decide, by decide, hsecond⟩
  have hderivation : Derivation ["*"]
      ((trim "ADD\tThe Value At *+05To The Value At  *-7".toList).map Char.toLower)
      ⟨.add, [⟨2, 5⟩, ⟨1, -7⟩], "add", some "to the value at"⟩ :=
    Eq.subst (motive := (Derivation ["*"] · _)) (by decide +kernel)
      (Derivation.binary hjoins (by decide) (by decide))
  exact ⟨hlf, hderivation, derivable_line_accepted hlf hderivation⟩

/-- A line that holds a statement without a problem is derivable up to what is overlooked behind a
keyword that stands alone, and as a whole unless there is such text. -/
theorem accepted_line_derivable {source : String} {l : SourceLine} {s : Statement}
    (hl : l ∈ (read source).lines) (hcell : l.isStatement = true) (hs : l.content = .statement s)
    (hproblem : l.problem = none) :
    (∃ core ignored, l.text.map Char.toLower = core ++ ignored ∧
      Derivation indicators core s ∧ (ignored = [] ∨ Overlooked core ignored)) ∧
    (Derivation indicators (l.text.map Char.toLower) s ↔
      ¬ ∃ core ignored, l.text.map Char.toLower = core ++ ignored ∧ ignored ≠ [] ∧
        Overlooked core ignored) := by
  obtain ⟨number, statementsBefore, line, hline⟩ :=
    exists_readLine ((dropPadding_sublist _).subset hl)
  obtain ⟨htext, hread⟩ := readStatement_of_readLine hline.symm hcell hs hproblem
  obtain ⟨core, rest, hlower, hderivation, hrest⟩ := exists_derivation_of_readStatement hread
  rw [htext]
  have hignored : rest = [] ∨ Overlooked core rest :=
    hrest.imp_left fun hblanks => eq_nil_of_map_toLower_trim hblanks hlower
  refine ⟨⟨core, rest, hlower, hderivation, hignored⟩, ?_, ?_⟩
  · rintro hwhole ⟨core, ignored, heq, hne, hoverlooked⟩
    exact hoverlooked.not_derivable hne (heq ▸ hwhole)
  · intro hnone
    obtain rfl : rest = [] := by
      by_contra hne
      exact hnone ⟨core, rest, hlower, hne, hignored.resolve_left hne⟩
    rwa [hlower, List.append_nil]

theorem accepted_line_derivable_jump :
    (read "JUMP *3").lines =
        [⟨1, "JUMP *3".toList, .statement ⟨.jump, [⟨1, 3⟩], "jump", none⟩, none⟩] ∧
      (∃ core ignored, "JUMP *3".toList.map Char.toLower = core ++ ignored ∧
        Derivation indicators core ⟨.jump, [⟨1, 3⟩], "jump", none⟩ ∧
        (ignored = [] ∨ Overlooked core ignored)) ∧
      (Derivation indicators ("JUMP *3".toList.map Char.toLower)
          ⟨.jump, [⟨1, 3⟩], "jump", none⟩ ↔
        ¬ ∃ core ignored, "JUMP *3".toList.map Char.toLower = core ++ ignored ∧ ignored ≠ [] ∧
          Overlooked core ignored) := by
  have hjump : (read "JUMP *3").lines =
      [⟨1, "JUMP *3".toList, .statement ⟨.jump, [⟨1, 3⟩], "jump", none⟩, none⟩] := by
    decide +kernel
  exact ⟨hjump, accepted_line_derivable (hjump ▸ List.mem_cons_self) rfl rfl rfl⟩

/-- A line that is accepted although no derivation has the whole of it. -/
theorem overlooked_line_not_derivable :
    (read "nop garbage").lines =
        [⟨1, "nop garbage".toList, .statement ⟨.noop, [], "nop", none⟩, none⟩] ∧
      ¬ ∃ s, Derivation indicators ("nop garbage".toList.map Char.toLower) s := by
  have hnop : Overlooked "nop".toList " garbage".toList :=
    ⟨⟨"nop", .bare .noop⟩, by decide, .noop, rfl, rfl, rfl⟩
  refine ⟨by decide +kernel, ?_⟩
  rintro ⟨s, h⟩
  have hline : "nop garbage".toList.map Char.toLower = "nop".toList ++ " garbage".toList := by
    decide +kernel
  exact hnop.not_derivable (by decide) (hline ▸ h)

end CoreArena.Source
