import CoreArena.Proofs.Admission.HiddenTerm

/-! # Listed words as names

Of a listed word only the letters and digits are looked for, but in a name everything that stands
between them has to be read. So a listed word may itself pass as a name: for `gr!ef` the letters
`gref` are looked for, and the sign is neither a separator nor one of them again. A word is rejected
as a name, in any case of its letters, if all that stands between them can be read over, and else
only by accident: `rejects_own_line`. -/

namespace CoreArena.Admission

open Text

/-- Whether what stands between two letters can be read over: more of the first letter, separators,
and more of the second. -/
def bridges (a b : Char) (signs : List Char) : Bool :=
  ((signs.dropWhile (readsAs a)).dropWhile isSeparator).all (readsAs b)

/-- Whether a text can be read on to its last letter, from a letter that some signs follow. -/
def isJoinedAfter (a : Char) (signs : List Char) : List Char → Bool
  | [] => true
  | c :: cs =>
    if isAlphanumeric c then bridges a c signs && isJoinedAfter c [] cs
    else isJoinedAfter a (signs ++ [c]) cs

/-- Whether a text has letters and can be read from the first of them to the last. -/
def isJoined (text : List Char) : Bool :=
  match text.dropWhile (!isAlphanumeric ·) with
  | [] => false
  | c :: cs => isJoinedAfter c [] cs

variable {a b c : Char} {ls cs signs text hidden : List Char}

/-! ## Signs that can be read over -/

theorem readsAs_self (l : Char) : readsAs l l = true := by
  have hself : l ∈ lookAlikes l := by
    unfold lookAlikes
    split <;> simp
  exact readsAs_iff.mpr ⟨l, hself, rfl⟩

theorem exists_of_bridges (h : bridges a b signs = true) :
    ∃ again gap ahead, signs = again ++ (gap ++ ahead) ∧ (∀ c ∈ again, readsAs a c = true) ∧
      Separators gap ∧ ∀ c ∈ ahead, readsAs b c = true := by
  refine ⟨signs.takeWhile (readsAs a), (signs.dropWhile (readsAs a)).takeWhile isSeparator,
    (signs.dropWhile (readsAs a)).dropWhile isSeparator, ?_, ?_, ?_, ?_⟩
  · rw [List.takeWhile_append_dropWhile, List.takeWhile_append_dropWhile]
  · exact fun c hc => List.mem_takeWhile_imp hc
  · exact fun c hc => List.mem_takeWhile_imp hc
  · exact List.all_eq_true.mp h

theorem bridges_of_separators (h : Separators signs) : bridges a b signs = true := by
  have hnil : (signs.dropWhile (readsAs a)).dropWhile isSeparator = [] :=
    List.dropWhile_eq_nil_iff.mpr fun c hc => h c ((List.dropWhile_sublist _).subset hc)
  rw [bridges, hnil]
  rfl

/-- The first run of a disguise may be longer. -/
theorem Disguise.append_run (h : Disguise (a :: ls) hidden) {run : List Char}
    (hrun : ∀ c ∈ run, readsAs a c = true) : Disguise (a :: ls) (run ++ hidden) := by
  have hlonger {more : List Char} (hmore : Repeats a more) : Repeats a (run ++ more) := by
    refine ⟨List.append_ne_nil_of_right_ne_nil _ hmore.ne_nil, fun c hc => ?_⟩
    rcases List.mem_append.mp hc with hc | hc
    · exact readsAs_iff.mp (hrun c hc)
    · exact hmore.alike c hc
  cases h with
  | last hmore => exact .last (hlonger hmore)
  | more hmore hgap hrest =>
      rw [← List.append_assoc]
      exact .more (hlonger hmore) hgap hrest

/-- A text that can be read to its last letter begins with a disguise of its letters. -/
theorem exists_disguise_of_isJoinedAfter (h : isJoinedAfter a signs cs = true) :
    ∃ hidden, hidden <+: a :: (signs ++ cs) ∧ Disguise (a :: cs.filter isAlphanumeric) hidden := by
  have hself (more : List Char) (hmore : ∀ c ∈ more, readsAs a c = true) :
      Repeats a (a :: more) :=
    repeats_cons (readsAs_self a) hmore
  induction cs generalizing a signs with
  | nil => exact ⟨[a], List.prefix_append [a] _, .last (hself [] (List.forall_mem_nil _))⟩
  | cons c cs ih =>
      rw [isJoinedAfter] at h
      cases hc : isAlphanumeric c with
      | false =>
          rw [hc, if_neg Bool.false_ne_true] at h
          rw [List.filter_cons_of_neg (ne_true_of_eq_false hc)]
          simpa using ih h hself
      | true =>
          rw [hc, if_pos rfl, Bool.and_eq_true] at h
          obtain ⟨hbridges, hrest⟩ := h
          obtain ⟨again, gap, ahead, rfl, hagain, hgap, hahead⟩ := exists_of_bridges hbridges
          obtain ⟨hidden, hprefix, hhidden⟩ := ih hrest
            fun more hmore => repeats_cons (readsAs_self c) hmore
          refine ⟨(a :: again) ++ (gap ++ (ahead ++ hidden)), ?_, ?_⟩
          · simpa using hprefix
          · rw [List.filter_cons_of_pos hc]
            exact .more (hself again hagain) hgap (hhidden.append_run hahead)

/-- What stands before the first letter is no letter. -/
theorem filter_isAlphanumeric_dropWhile (text : List Char) :
    (text.dropWhile (!isAlphanumeric ·)).filter isAlphanumeric = text.filter isAlphanumeric := by
  have hnone : (text.takeWhile (!isAlphanumeric ·)).filter isAlphanumeric = [] := by
    rw [List.filter_eq_nil_iff]
    intro c hc
    simpa using List.mem_takeWhile_imp hc
  conv_rhs => rw [← List.takeWhile_append_dropWhile (p := (!isAlphanumeric ·)) (l := text)]
  rw [List.filter_append, hnone, List.nil_append]

theorem contains_of_isJoined (h : isJoined text = true) :
    contains (text.filter isAlphanumeric) text = true := by
  unfold isJoined at h
  split at h
  · cases h
  · rename_i c cs hdrop
    have hc : isAlphanumeric c = true := by
      have hfirst := List.head?_dropWhile_not (!isAlphanumeric ·) text
      rw [hdrop] at hfirst
      simpa using hfirst
    obtain ⟨hidden, hprefix, hhidden⟩ := exists_disguise_of_isJoinedAfter h
    have hsuffix : c :: cs <:+ text := hdrop ▸ List.dropWhile_suffix _
    rw [← filter_isAlphanumeric_dropWhile, hdrop, List.filter_cons_of_pos hc]
    exact contains_iff.mpr ⟨hidden, hprefix.isInfix.trans hsuffix.isInfix, hhidden⟩

/-! ## Signs that cannot be read over -/

/-- No sign of a text stands for one of its letters. -/
def Plain (text : List Char) : Prop :=
  ∀ l ∈ text, ∀ c ∈ text, isAlphanumeric l = true → readsAs l c = true → isAlphanumeric c = true

instance : DecidablePred Plain := fun text =>
  have (l : Char) : Decidable (∀ c ∈ text, isAlphanumeric l = true → readsAs l c = true →
      isAlphanumeric c = true) := List.decidableBAll _ text
  List.decidableBAll _ text

/-- Where no sign stands for a letter, a disguise has a letter for each one that it hides, and
separators between them. -/
theorem Disguise.length_le (h : Disguise ls hidden)
    (hplain : ∀ l ∈ ls, ∀ c ∈ hidden, readsAs l c = true → isAlphanumeric c = true) :
    ls.length ≤ (hidden.filter isAlphanumeric).length ∧
      ∀ c ∈ hidden, isAlphanumeric c = true ∨ isSeparator c = true := by
  induction h with
  | @last l run hrun =>
      have hall : ∀ c ∈ run, isAlphanumeric c = true := fun c hc =>
        hplain l List.mem_cons_self c hc (hrun.readsAs c hc)
      refine ⟨?_, fun c hc => .inl (hall c hc)⟩
      rw [List.filter_eq_self.mpr hall, List.length_singleton]
      exact List.length_pos_iff.mpr hrun.ne_nil
  | @more l ls run gap rest hrun hgap hrest ih =>
      have hall : ∀ c ∈ run, isAlphanumeric c = true := fun c hc =>
        hplain l List.mem_cons_self c (List.mem_append_left _ hc) (hrun.readsAs c hc)
      obtain ⟨hlength, hbetween⟩ := ih fun l hl c hc =>
        hplain l (List.mem_cons_of_mem _ hl) c
          (List.mem_append_right _ (List.mem_append_right _ hc))
      have hpos := List.length_pos_iff.mpr hrun.ne_nil
      constructor
      · rw [List.filter_append, List.filter_append, List.filter_eq_self.mpr hall,
          List.length_append, List.length_append, List.length_cons]
        omega
      · intro c hc
        simp only [List.mem_append] at hc
        rcases hc with hc | hc | hc
        · exact .inl (hall c hc)
        · exact .inr (hgap c hc)
        · exact hbetween c hc

theorem isJoinedAfter_of_separators (hsigns : Separators signs)
    (hcs : ∀ c ∈ cs, isAlphanumeric c = true ∨ isSeparator c = true) {back : List Char}
    (hback : back.filter isAlphanumeric = []) : isJoinedAfter a signs (cs ++ back) = true := by
  induction cs generalizing a signs with
  | nil =>
      rw [List.nil_append]
      clear hsigns
      induction back generalizing signs with
      | nil => rfl
      | cons c back ih =>
          rw [List.filter_eq_nil_iff, List.forall_mem_cons] at hback
          rw [isJoinedAfter, if_neg hback.1]
          exact ih (List.filter_eq_nil_iff.mpr hback.2)
  | cons c cs ih =>
      obtain ⟨hc, hcs⟩ := List.forall_mem_cons.mp hcs
      rw [List.cons_append, isJoinedAfter]
      split
      · rw [bridges_of_separators hsigns, Bool.true_and]
        exact ih (List.forall_mem_nil _) hcs
      · rename_i hsign
        refine ih (fun d hd => ?_) hcs
        rcases List.mem_append.mp hd with hd | hd
        · exact hsigns d hd
        · rw [List.mem_singleton.mp hd]
          exact hc.resolve_left hsign

theorem Disguise.exists_cons (h : Disguise ls hidden) :
    ∃ l ∈ ls, ∃ c rest, hidden = c :: rest ∧ readsAs l c = true := by
  obtain ⟨l, run, rest, hl, hrun, rfl⟩ :
      ∃ l run rest, l ∈ ls ∧ Repeats l run ∧ hidden = run ++ rest := by
    cases h with
    | last hrun => exact ⟨_, _, [], List.mem_cons_self, hrun, (List.append_nil _).symm⟩
    | more hrun => exact ⟨_, _, _, List.mem_cons_self, hrun, rfl⟩
  obtain ⟨c, run, rfl⟩ := List.exists_cons_of_ne_nil hrun.ne_nil
  exact ⟨l, hl, c, run ++ rest, rfl, hrun.readsAs c List.mem_cons_self⟩

/-- A text that hides its own letters can be read from the first to the last: the disguise has to
have all of them. -/
theorem isJoined_of_contains (hplain : Plain text)
    (h : contains (text.filter isAlphanumeric) text = true) : isJoined text = true := by
  obtain ⟨hidden, ⟨front, back, htext⟩, hhidden⟩ := contains_iff.mp h
  have hpart : ∀ c ∈ hidden, c ∈ text := by
    rw [← htext]
    exact fun c hc => List.mem_append_left _ (List.mem_append_right _ hc)
  have hletter : ∀ l ∈ text.filter isAlphanumeric, ∀ c ∈ hidden, readsAs l c = true →
      isAlphanumeric c = true := by
    intro l hl c hc
    obtain ⟨hmem, hl⟩ := List.mem_filter.mp hl
    exact hplain l hmem c (hpart c hc) hl
  obtain ⟨hlength, hbetween⟩ := hhidden.length_le hletter
  obtain ⟨hfront, hback⟩ : front.filter isAlphanumeric = [] ∧ back.filter isAlphanumeric = [] := by
    rw [← htext, List.filter_append, List.filter_append, List.length_append,
      List.length_append] at hlength
    rw [← List.length_eq_zero_iff, ← List.length_eq_zero_iff]
    omega
  obtain ⟨l, hl, c, rest, rfl, hreads⟩ := hhidden.exists_cons
  have hc : isAlphanumeric c = true := hletter l hl c List.mem_cons_self hreads
  have hdrop : text.dropWhile (!isAlphanumeric ·) = c :: (rest ++ back) := by
    rw [← htext, List.append_assoc, List.dropWhile_append_of_pos, List.cons_append,
      List.dropWhile_cons_of_neg (by simp [hc])]
    intro d hd
    simpa using List.filter_eq_nil_iff.mp hfront d hd
  rw [isJoined, hdrop]
  exact isJoinedAfter_of_separators (List.forall_mem_nil _)
    (fun d hd => hbetween d (List.mem_cons_of_mem c hd)) hback

/-! ## Letter case -/

/-- Where lower case makes no difference in ASCII, it makes none at all. -/
theorem apply_toLower {α : Type} {f : Char → α}
    (hascii : ∀ n < 0x80, f (Char.ofNat n).toLower = f (Char.ofNat n)) (c : Char) :
    f c.toLower = f c := by
  by_cases hc : c.toNat < 0x80
  · have hsame := hascii c.toNat hc
    rwa [Char.ofNat_toNat] at hsame
  · have hcapital : ¬ (c.val ≥ 'A'.val ∧ c.val ≤ 'Z'.val) := by
      rintro ⟨-, hle⟩
      have hcode : c.toNat ≤ 'Z'.toNat := UInt32.le_iff_toNat_le.mp hle
      exact hc (Nat.lt_of_le_of_lt hcode (by decide))
    have hsame : c.toLower = c := dif_neg hcapital
    rw [hsame]

theorem toLower_toLower (c : Char) : c.toLower.toLower = c.toLower :=
  apply_toLower (f := Char.toLower) (by decide +kernel) c

theorem fold_toLower (c : Char) : fold c.toLower = fold c :=
  apply_toLower (by decide +kernel) c

theorem isSeparator_toLower (c : Char) : isSeparator c.toLower = isSeparator c :=
  apply_toLower (by decide +kernel) c

theorem isBlank_toLower (c : Char) : isBlank c.toLower = isBlank c :=
  apply_toLower (by decide +kernel) c

theorem readsAs_toLower (l c : Char) : readsAs l c.toLower = readsAs l c := by
  rw [readsAs, fold_toLower, readsAs]

theorem step_toLower (c : Char) (p : Progress) : p.step c.toLower = p.step c := by
  simp only [Progress.step, readsAs_toLower, isSeparator_toLower]

theorem readsThrough_map_toLower (ls : List Char) (ps : List Progress) (cs : List Char) :
    readsThrough ls ps (cs.map Char.toLower) = readsThrough ls ps cs := by
  induction cs generalizing ps with
  | nil => rfl
  | cons c cs ih =>
      have hways : ways ls ps c.toLower = ways ls ps c := by
        rw [ways, ways, funext (step_toLower c)]
      rw [List.map_cons, readsThrough_cons, readsThrough_cons, hways, ih]

/-- Names that differ in the case of their letters contain the same. -/
theorem contains_map_toLower (ls cs : List Char) :
    contains ls (cs.map Char.toLower) = contains ls cs := by
  rw [contains, contains, readsThrough_map_toLower]

/-- A text of ASCII characters. -/
def IsAscii (cs : List Char) : Prop :=
  ∀ c ∈ cs, c.toNat < 0x80

instance : DecidablePred IsAscii := fun cs =>
  List.decidableBAll _ cs

theorem IsAscii.map_toLower (h : IsAscii cs) : IsAscii (cs.map Char.toLower) := by
  intro c hc
  obtain ⟨d, hd, rfl⟩ := List.mem_map.mp hc
  have hsame : decide (d.toLower.toNat < 0x80) = decide (d.toNat < 0x80) :=
    apply_toLower (f := fun c => decide (c.toNat < 0x80)) (by decide +kernel) d
  exact (decide_eq_decide.mp hsame).mpr (h d hd)

theorem IsAscii.lowerAfter_eq (h : IsAscii cs) (before : List Char) :
    lowerAfter before cs = cs.map Char.toLower := by
  induction cs generalizing before with
  | nil => rfl
  | cons c cs ih =>
      obtain ⟨hc, hcs⟩ := List.forall_mem_cons.mp h
      have hsigma : c ≠ 'Σ' := by
        rintro rfl
        exact absurd hc (by decide)
      have hdotted : c ≠ 'İ' := by
        rintro rfl
        exact absurd hc (by decide)
      rw [lowerAfter, if_neg hsigma, if_neg hdotted, lowerChar, if_pos hc, ih hcs]
      rfl

theorem trim_map_toLower (cs : List Char) :
    trim (cs.map Char.toLower) = (trim cs).map Char.toLower := by
  have hblank : isBlank ∘ Char.toLower = isBlank := funext isBlank_toLower
  simp only [trim, trimEnd, trimStart, List.dropWhile_map, ← List.map_reverse, hblank]

theorem map_toLower_map_toLower (cs : List Char) :
    (cs.map Char.toLower).map Char.toLower = cs.map Char.toLower := by
  rw [List.map_map]
  exact List.map_congr_left fun c _ => toLower_toLower c

/-- In ASCII, the letters of a term are as they are in its lower case. -/
theorem IsAscii.letters_listed {line : String} (h : IsAscii (trim line.toList)) :
    letters (NameMatcher.listed line) =
      ((trim line.toList).map Char.toLower).filter isAlphanumeric := by
  have hlower : lower (trim line.toList) = (trim line.toList).map Char.toLower :=
    h.lowerAfter_eq []
  rw [letters, NameMatcher.listed, String.toList_ofList, hlower, trim_map_toLower,
    Source.trim_trim, lower, h.map_toLower.lowerAfter_eq, map_toLower_map_toLower]

/-! ## Words that are caught themselves -/

namespace NameMatcher

theorem contains_letters_listed {line name : String} (hascii : IsAscii (trim line.toList))
    (hname : name.toList.map Char.toLower = (trim line.toList).map Char.toLower) :
    contains (letters (listed line)) name.toList =
      contains ((name.toList.map Char.toLower).filter isAlphanumeric)
        (name.toList.map Char.toLower) := by
  rw [hascii.letters_listed, ← hname, contains_map_toLower]

/-- A name that is a line of the word list in any case of its letters is rejected if everything that
stands between two of its letters can be read over. Where no sign of the line stands for one of its
letters, it is else rejected on account of another term only. -/
theorem rejects_own_line (words line : String) (hline : line ∈ linesOf words)
    (hascii : IsAscii (trim line.toList)) (name : String)
    (hname : name.toList.map Char.toLower = (trim line.toList).map Char.toLower) :
    (isJoined (name.toList.map Char.toLower) = true → (ofWordList words).rejects name = true) ∧
      (Plain (name.toList.map Char.toLower) →
        ((ofWordList words).rejects name = true ↔
          isJoined (name.toList.map Char.toLower) = true ∨
            ∃ term ∈ (ofWordList words).terms, term ≠ listed line ∧
              contains (letters term) name.toList = true)) := by
  have hown := contains_letters_listed hascii hname
  have hrejects : isJoined (name.toList.map Char.toLower) = true →
      (ofWordList words).rejects name = true := by
    intro hjoined
    have hcontains : contains (letters (listed line)) name.toList = true :=
      hown.trans (contains_of_isJoined hjoined)
    have hne : listed line ≠ "" := by
      intro hempty
      rw [hempty] at hcontains
      cases hcontains
    exact List.any_eq_true.mpr
      ⟨listed line, mem_terms_ofExtra_iff.mpr (.inr ⟨line, hline, hne, rfl⟩), hcontains⟩
  refine ⟨hrejects, fun hplain => ⟨fun hrejected => ?_, ?_⟩⟩
  · obtain ⟨term, hterm, hcontains⟩ := List.any_eq_true.mp hrejected
    by_cases hlisted : term = listed line
    · left
      rw [hlisted, hown] at hcontains
      exact isJoined_of_contains hplain hcontains
    · exact .inr ⟨term, hterm, hlisted, hcontains⟩
  · rintro (hjoined | ⟨term, hterm, -, hcontains⟩)
    · exact hrejects hjoined
    · exact List.any_eq_true.mpr ⟨term, hterm, hcontains⟩

/-- A name that is a listed word is rejected where its signs are a separator and a repeated letter,
and not where another sign stands between its letters. -/
theorem rejects_own_line_signs :
    " h.i!s" ∈ linesOf " h.i!s\ngr!ef" ∧ "gr!ef" ∈ linesOf " h.i!s\ngr!ef" ∧
      (ofWordList " h.i!s\ngr!ef").rejects "H.I!s" = true ∧
      ¬ (ofWordList " h.i!s\ngr!ef").rejects "Gr!ef" = true := by
  have hfirst : " h.i!s" ∈ linesOf " h.i!s\ngr!ef" := by decide +kernel
  have hsecond : "gr!ef" ∈ linesOf " h.i!s\ngr!ef" := by decide +kernel
  have hjoined := rejects_own_line " h.i!s\ngr!ef" " h.i!s" hfirst (by decide +kernel) "H.I!s"
    (by decide +kernel)
  have hbroken := rejects_own_line " h.i!s\ngr!ef" "gr!ef" hsecond (by decide +kernel) "Gr!ef"
    (by decide +kernel)
  refine ⟨hfirst, hsecond, hjoined.1 (by decide +kernel), ?_⟩
  rw [hbroken.2 (by decide +kernel)]
  decide +kernel

/-- A word is not caught itself if a sign between its letters is no separator. -/
theorem own_sign_not_read :
    "gr!ef" ∈ linesOf "gr!ef" ∧ trimmed "gr!ef" = "gr!ef" ∧
      (ofWordList "gr!ef").rejects "gr!ef" = false := by
  decide +kernel

end NameMatcher

end CoreArena.Admission
