import CoreArena.Proofs.Admission.Disguise
import Mathlib.Data.List.Infix

/-! # Terms hidden in names

Letters are disguised as runs of look-alikes of each of them, in order, with separators between the
runs. A text is read one character at a time, in all ways at once; a path is one of these ways. The
paths to the end of some letters are those that pass a disguise of them:
`Progress.Path.of_disguise`, `Progress.Path.exists_disguise`. So a name is rejected exactly if a
disguise of some term is part of it: `rejects_iff_disguised`. -/

namespace CoreArena.Admission

open Text

/-- One or more characters that may be written for a letter, in any case. -/
structure Repeats (letter : Char) (run : List Char) : Prop where
  ne_nil : run ≠ []
  alike : ∀ c ∈ run, ∃ l ∈ lookAlikes letter, fold l = fold c

/-- Blanks and other characters that may stand between letters, or nothing. -/
def Separators (cs : List Char) : Prop :=
  ∀ c ∈ cs, isSeparator c = true

/-- The texts that letters are disguised as. No letters have no disguise. -/
inductive Disguise : List Char → List Char → Prop
  | last {l : Char} {run : List Char} (hrun : Repeats l run) : Disguise [l] run
  | more {l : Char} {ls run gap rest : List Char} (hrun : Repeats l run) (hgap : Separators gap)
      (hrest : Disguise ls rest) : Disguise (l :: ls) (run ++ (gap ++ rest))

theorem Disguise.ne_nil {ls text : List Char} (h : Disguise ls text) : text ≠ [] := by
  cases h with
  | last hrun => exact hrun.ne_nil
  | more hrun => exact List.append_ne_nil_of_left_ne_nil hrun.ne_nil _

theorem readsAs_iff {letter c : Char} :
    readsAs letter c = true ↔ ∃ l ∈ lookAlikes letter, fold l = fold c := by
  simp [readsAs]

theorem Repeats.readsAs {letter : Char} {run : List Char} (h : Repeats letter run) :
    ∀ c ∈ run, Admission.readsAs letter c = true :=
  fun c hc => readsAs_iff.mpr (h.alike c hc)

theorem repeats_cons {letter c : Char} {run : List Char} (hc : readsAs letter c = true)
    (hrun : ∀ c ∈ run, readsAs letter c = true) : Repeats letter (c :: run) :=
  ⟨List.cons_ne_nil c run, List.forall_mem_cons.mpr
    ⟨readsAs_iff.mp hc, fun d hd => readsAs_iff.mp (hrun d hd)⟩⟩

/-! ## Paths -/

namespace Progress

/-- Some way to read one more character. -/
inductive Reads : Progress → Char → Progress → Prop
  | again {l c : Char} {ls : List Char} (hc : readsAs l c = true) :
      Reads ⟨some l, ls⟩ c ⟨some l, ls⟩
  | next {repeating : Option Char} {l c : Char} {ls : List Char} (hc : readsAs l c = true) :
      Reads ⟨repeating, l :: ls⟩ c ⟨some l, ls⟩
  | separator {repeating : Option Char} {c : Char} {ls : List Char} (hc : isSeparator c = true) :
      Reads ⟨repeating, ls⟩ c ⟨none, ls⟩

theorem mem_step_iff {p q : Progress} {c : Char} : q ∈ p.step c ↔ p.Reads c q := by
  obtain ⟨repeating, ahead⟩ := p
  rw [step, List.mem_append, List.mem_append]
  constructor
  · rintro ((hagain | hnext) | hseparator)
    · cases repeating with
      | none => cases hagain
      | some l =>
          obtain ⟨hc, rfl⟩ : readsAs l c = true ∧ q = ⟨some l, ahead⟩ := by simpa using hagain
          exact .again hc
    · cases ahead with
      | nil => cases hnext
      | cons l ls =>
          obtain ⟨hc, rfl⟩ : readsAs l c = true ∧ q = ⟨some l, ls⟩ := by simpa using hnext
          exact .next hc
    · obtain ⟨hc, rfl⟩ : isSeparator c = true ∧ q = ⟨none, ahead⟩ := by simpa using hseparator
      exact .separator hc
  · intro h
    cases h with
    | again hc => simp [hc]
    | next hc => simp [hc]
    | separator hc => simp [hc]

/-- A way to read a text, one character after the other. -/
inductive Path : Progress → List Char → Progress → Prop
  | refl (p : Progress) : Path p [] p
  | head {p q r : Progress} {c : Char} {cs : List Char} (hstep : p.Reads c q) (h : Path q cs r) :
      Path p (c :: cs) r

namespace Path

variable {p q r : Progress} {cs ds : List Char} {l : Char} {ls : List Char}

theorem append (h : p.Path cs q) (h' : q.Path ds r) : p.Path (cs ++ ds) r := by
  induction h with
  | refl => exact h'
  | head hstep _ ih => exact .head hstep (ih h')

theorem again (hcs : ∀ c ∈ cs, readsAs l c = true) : Path ⟨some l, ls⟩ cs ⟨some l, ls⟩ := by
  induction cs with
  | nil => exact .refl _
  | cons c cs ih =>
      obtain ⟨hc, hcs⟩ := List.forall_mem_cons.mp hcs
      exact .head (.again hc) (ih hcs)

/-- A run of look-alikes of the next letter. -/
theorem run (hrun : Repeats l cs) (repeating : Option Char) :
    Path ⟨repeating, l :: ls⟩ cs ⟨some l, ls⟩ := by
  obtain ⟨c, cs, rfl⟩ := List.exists_cons_of_ne_nil hrun.ne_nil
  obtain ⟨hc, hcs⟩ := List.forall_mem_cons.mp hrun.readsAs
  exact .head (.next hc) (again hcs)

/-- Behind separators the letters still to come are the same. -/
theorem exists_gap (hcs : Separators cs) (repeating : Option Char) :
    ∃ repeating', Path ⟨repeating, ls⟩ cs ⟨repeating', ls⟩ := by
  induction cs generalizing repeating with
  | nil => exact ⟨repeating, .refl _⟩
  | cons c cs ih =>
      obtain ⟨hc, hcs⟩ := List.forall_mem_cons.mp hcs
      obtain ⟨repeating', h⟩ := ih hcs none
      exact ⟨repeating', .head (.separator hc) h⟩

/-- Every disguise of the letters still to come is read to its end. -/
theorem of_disguise {text : List Char} (h : Disguise ls text) (repeating : Option Char) :
    ∃ l, Path ⟨repeating, ls⟩ text ⟨some l, []⟩ := by
  induction h generalizing repeating with
  | @last l run hrun => exact ⟨l, Path.run hrun repeating⟩
  | @more l ls run gap rest hrun hgap _ ih =>
      obtain ⟨repeating', hskip⟩ := exists_gap hgap (some l)
      obtain ⟨l', hrest⟩ := ih repeating'
      exact ⟨l', (Path.run hrun repeating).append (hskip.append hrest)⟩

/-- A path to the end of the letters repeats the last one, passes separators and then a disguise of
the letters still to come. -/
theorem exists_disguise (h : p.Path cs q) (hdone : q.ahead = []) (hahead : p.ahead ≠ []) :
    ∃ run gap hidden rest, cs = run ++ (gap ++ (hidden ++ rest)) ∧
      (∀ c ∈ run, ∃ l, p.repeating = some l ∧ readsAs l c = true) ∧ Separators gap ∧
        Disguise p.ahead hidden := by
  induction h with
  | refl => exact absurd hdone hahead
  | @head p q r c cs hstep h ih =>
      have ih := ih hdone
      cases hstep with
      | @again l c ls hc =>
          obtain ⟨run, gap, hidden, rest, rfl, hrun, hgap, hhidden⟩ := ih hahead
          exact ⟨c :: run, gap, hidden, rest, rfl, List.forall_mem_cons.mpr ⟨⟨l, rfl, hc⟩, hrun⟩,
            hgap, hhidden⟩
      | @next repeating l c ls hc =>
          cases ls with
          | nil =>
              refine ⟨[], [], [c], cs, rfl, by simp, by simp [Separators], ?_⟩
              exact .last (repeats_cons hc (by simp))
          | cons l' ls =>
              obtain ⟨run, gap, hidden, rest, rfl, hrun, hgap, hhidden⟩ :=
                ih (List.cons_ne_nil l' ls)
              have hagain : ∀ c ∈ run, readsAs l c = true := by
                intro c hc
                obtain ⟨l₁, hl, hreads⟩ := hrun c hc
                rwa [Option.some.inj hl]
              refine ⟨[], [], (c :: run) ++ (gap ++ hidden), rest, by simp, by simp,
                by simp [Separators], ?_⟩
              exact .more (repeats_cons hc hagain) hgap hhidden
      | @separator repeating c ls hc =>
          obtain ⟨run, gap, hidden, rest, rfl, hrun, hgap, hhidden⟩ := ih hahead
          have hnone : run = [] := by
            refine List.eq_nil_iff_forall_not_mem.mpr fun d hd => ?_
            obtain ⟨l, hl, -⟩ := hrun d hd
            cases hl
          subst hnone
          exact ⟨[], c :: gap, hidden, rest, rfl, by simp, List.forall_mem_cons.mpr ⟨hc, hgap⟩,
            hhidden⟩

end Path

end Progress

open Progress

/-! ## Reading -/

/-- A path leads to the end of the letters before the text ends. -/
def Progress.ReadsOut (p : Progress) (text : List Char) : Prop :=
  ∃ part q, part ≠ [] ∧ part <+: text ∧ p.Path part q ∧ q.isDone = true

theorem Progress.not_readsOut_nil (p : Progress) : ¬ p.ReadsOut [] := by
  rintro ⟨part, q, hne, hprefix, -⟩
  exact hne (List.prefix_nil.mp hprefix)

theorem Progress.readsOut_cons_iff {p : Progress} {c : Char} {cs : List Char} :
    p.ReadsOut (c :: cs) ↔ ∃ q, p.Reads c q ∧ (q.isDone = true ∨ q.ReadsOut cs) := by
  constructor
  · rintro ⟨part, r, hne, hprefix, hpath, hdone⟩
    cases hpath with
    | refl => exact absurd rfl hne
    | @head p q r c' part hstep hpath =>
        obtain ⟨rfl, hrest⟩ := List.cons_prefix_cons.mp hprefix
        refine ⟨q, hstep, ?_⟩
        cases hpath with
        | refl => exact .inl hdone
        | head hnext hpath =>
            exact .inr ⟨_, r, List.cons_ne_nil _ _, hrest, .head hnext hpath, hdone⟩
  · rintro ⟨q, hstep, hdone | ⟨part, r, -, hprefix, hpath, hdone⟩⟩
    · exact ⟨[c], q, List.cons_ne_nil c [], by simp, .head hstep (.refl q), hdone⟩
    · exact ⟨c :: part, r, List.cons_ne_nil c part, List.cons_prefix_cons.mpr ⟨rfl, hprefix⟩,
        .head hstep hpath, hdone⟩

section Reading

variable {ls text : List Char} {ps : List Progress}

/-- The letters can be read from some of the ways so far, or from some place on. -/
theorem readsThrough_iff :
    readsThrough ls ps text = true ↔
      (∃ p ∈ ps, p.ReadsOut text) ∨ ∃ rest, rest <:+ text ∧ (start ls).ReadsOut rest := by
  induction text generalizing ps with
  | nil => simp [readsThrough, not_readsOut_nil]
  | cons c cs ih =>
      have hways : (∃ q ∈ ways ls ps c, q.isDone = true ∨ q.ReadsOut cs) ↔
          ∃ p ∈ start ls :: ps, p.ReadsOut (c :: cs) := by
        simp only [mem_ways, mem_step_iff, readsOut_cons_iff]
        constructor
        · rintro ⟨q, ⟨p, hp, hstep⟩, hq⟩
          exact ⟨p, hp, q, hstep, hq⟩
        · rintro ⟨p, hp, q, hstep, hq⟩
          exact ⟨q, ⟨p, hp, hstep⟩, hq⟩
      calc
        _ ↔ (∃ q ∈ ways ls ps c, q.isDone = true ∨ q.ReadsOut cs) ∨
              ∃ rest, rest <:+ cs ∧ (start ls).ReadsOut rest := by
          rw [readsThrough_cons, Bool.or_eq_true, List.any_eq_true, ih, ← or_assoc, ← exists_or]
          simp only [and_or_left]
        _ ↔ (∃ p ∈ ps, p.ReadsOut (c :: cs)) ∨ ((start ls).ReadsOut (c :: cs) ∨
              ∃ rest, rest <:+ cs ∧ (start ls).ReadsOut rest) := by
          rw [hways, List.exists_mem_cons_iff, or_assoc, or_left_comm]
        _ ↔ _ := by
          refine or_congr_right ?_
          simp only [List.suffix_cons_iff, or_and_right, exists_or, exists_eq_left]

/-- Letters are found in a text exactly if one of their disguises is part of it. -/
theorem contains_iff :
    contains ls text = true ↔ ∃ hidden, hidden <:+: text ∧ Disguise ls hidden := by
  rw [contains, Bool.and_eq_true, readsThrough_iff]
  constructor
  · rintro ⟨hne, ⟨p, hp, -⟩ | ⟨rest, hrest, part, q, -, hpart, hpath, hdone⟩⟩
    · cases hp
    · have hahead : (start ls).ahead ≠ [] := by simpa [start] using hne
      obtain ⟨run, gap, hidden, behind, rfl, -, -, hhidden⟩ :=
        hpath.exists_disguise (List.isEmpty_iff.mp hdone) hahead
      refine ⟨hidden, ?_, hhidden⟩
      have hinfix : hidden <:+: run ++ (gap ++ (hidden ++ behind)) :=
        ⟨run ++ gap, behind, by simp⟩
      exact hinfix.trans (hpart.isInfix.trans hrest.isInfix)
  · rintro ⟨hidden, ⟨front, back, rfl⟩, hhidden⟩
    obtain ⟨l, hpath⟩ := Path.of_disguise hhidden none
    refine ⟨?_, .inr ⟨hidden ++ back, ?_, hidden, _, hhidden.ne_nil, ?_, hpath, rfl⟩⟩
    · cases hhidden <;> rfl
    · exact ⟨front, (List.append_assoc ..).symm⟩
    · exact List.prefix_append hidden back

end Reading

/-! ## Terms -/

namespace NameMatcher

variable {m m' : NameMatcher} {name term : String}

/-- A term as it is listed. -/
def listed (term : String) : String :=
  String.ofList (lower (trim term.toList))

theorem insert_eq (m : NameMatcher) (term : String) :
    m.insert term =
      if (listed term).isEmpty || m.terms.contains (listed term) then m
      else ⟨m.terms ++ [listed term]⟩ := rfl

theorem mem_terms_insert_iff {new : String} :
    term ∈ (m.insert new).terms ↔ term ∈ m.terms ∨ listed new ≠ "" ∧ term = listed new := by
  rw [insert_eq]
  by_cases hempty : listed new = ""
  · simp [hempty]
  · have hsome : (listed new).isEmpty = false := by simpa using hempty
    by_cases hknown : listed new ∈ m.terms
    · rw [if_pos (by simp [hknown]), and_iff_right hempty]
      exact (or_iff_left_of_imp fun hterm => hterm ▸ hknown).symm
    · rw [if_neg (by simp [hsome, hknown]), and_iff_right hempty]
      simp

/-- The terms of a list are the ones that every list starts with, and the further ones that are not
blank. -/
theorem mem_terms_ofExtra_iff {extra : List String} :
    term ∈ (ofExtra extra).terms ↔
      term ∈ builtinTerms ∨ ∃ new ∈ extra, listed new ≠ "" ∧ term = listed new := by
  have hfold (m : NameMatcher) : term ∈ (extra.foldl insert m).terms ↔
      term ∈ m.terms ∨ ∃ new ∈ extra, listed new ≠ "" ∧ term = listed new := by
    induction extra generalizing m with
    | nil => simp
    | cons new extra ih =>
        rw [List.foldl_cons, ih, mem_terms_insert_iff, or_assoc, List.exists_mem_cons_iff]
  exact hfold builtin

theorem rejects_iff :
    m.rejects name = true ↔
      ∃ term ∈ m.terms, ∃ hidden, hidden <:+: name.toList ∧ Disguise (letters term) hidden := by
  simp only [rejects, List.any_eq_true, contains_iff]

theorem rejects_mono (h : m.terms ⊆ m'.terms) (hm : m.rejects name = true) :
    m'.rejects name = true := by
  obtain ⟨term, hterm, hhidden⟩ := rejects_iff.mp hm
  exact rejects_iff.mpr ⟨term, h hterm, hhidden⟩

theorem terms_ofExtra_mono {extra extra' : List String} (h : extra ⊆ extra') :
    (ofExtra extra).terms ⊆ (ofExtra extra').terms := by
  intro term hterm
  rw [mem_terms_ofExtra_iff] at hterm ⊢
  exact hterm.imp_right fun ⟨new, hnew, hlisted⟩ => ⟨new, h hnew, hlisted⟩

/-- A name is rejected exactly if part of it is a disguise of the letters of some term. So terms
that are added, one by one or as lines of a word list, let no name pass that was rejected. -/
theorem rejects_iff_disguised (m : NameMatcher) (name : String) :
    (m.rejects name = true ↔
        ∃ term ∈ m.terms, ∃ hidden, hidden <:+: name.toList ∧ Disguise (letters term) hidden) ∧
      (∀ term, m.rejects name = true → (m.insert term).rejects name = true) ∧
      (∀ extra extra', extra ⊆ extra' →
        (ofExtra extra).rejects name = true → (ofExtra extra').rejects name = true) ∧
      ∀ words words', linesOf words ⊆ linesOf words' →
        (ofWordList words).rejects name = true → (ofWordList words').rejects name = true := by
  refine ⟨rejects_iff, fun term => rejects_mono fun t ht => ?_,
    fun extra extra' h => rejects_mono (terms_ofExtra_mono h),
    fun words words' h => rejects_mono (terms_ofExtra_mono h)⟩
  exact mem_terms_insert_iff.mpr (.inl ht)

theorem rejects_iff_disguised_grief :
    (ofWordList " Grief").rejects "a GRr1|. eEF" = true ∧
      (∃ term ∈ (ofWordList " Grief").terms, ∃ hidden, hidden <:+: "a GRr1|. eEF".toList ∧
        Disguise (letters term) hidden) ∧
      (ofWordList "spam\n Grief\n").rejects "a GRr1|. eEF" = true ∧
      ¬ ∃ term ∈ (ofWordList " Grief").terms, ∃ hidden, hidden <:+: "a GR1.xEF".toList ∧
        Disguise (letters term) hidden := by
  have hcaught : (ofWordList " Grief").rejects "a GRr1|. eEF" = true := by decide +kernel
  have hpasses : (ofWordList " Grief").rejects "a GR1.xEF" = false := by decide +kernel
  refine ⟨hcaught, (rejects_iff_disguised _ _).1.mp hcaught,
    (rejects_iff_disguised builtin _).2.2.2 " Grief" _ (by decide +kernel) hcaught, ?_⟩
  rw [← (rejects_iff_disguised _ _).1, hpasses]
  exact Bool.false_ne_true

end NameMatcher

end CoreArena.Admission
