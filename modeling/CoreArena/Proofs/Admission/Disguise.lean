import CoreArena.Admission.Disguise
import CoreArena.Proofs.Source.Blanks

/-! # Blanks around names

No blank is a look-alike of a letter, so that it makes no difference to the terms in a name whether
blanks stand around it: `rejects_trimmed`. -/

namespace CoreArena

namespace Text

/-- The numbers of the blank characters. -/
def blankCodes : List Nat :=
  [9, 10, 11, 12, 13, 0x20, 0x85, 0xA0, 0x1680, 0x2000, 0x2001, 0x2002, 0x2003, 0x2004, 0x2005,
    0x2006, 0x2007, 0x2008, 0x2009, 0x200A, 0x2028, 0x2029, 0x202F, 0x205F, 0x3000]

theorem mem_blankCodes_of_isBlank {c : Char} (h : isBlank c = true) : c.toNat ∈ blankCodes := by
  simp only [isBlank, Bool.or_eq_true, Bool.and_eq_true, decide_eq_true_eq, beq_iff_eq] at h
  simp only [blankCodes, List.mem_cons]
  omega

theorem fold_of_isBlank {c : Char} (h : isBlank c = true) : fold c = c := by
  have hall : ∀ n ∈ blankCodes, fold (Char.ofNat n) = Char.ofNat n := by
    decide +kernel
  have hcode := hall c.toNat (mem_blankCodes_of_isBlank h)
  rwa [Char.ofNat_toNat] at hcode

theorem not_isAlphanumeric_of_isBlank {c : Char} (h : isBlank c = true) :
    isAlphanumeric c = false := by
  have hall : ∀ n ∈ blankCodes, isAlphanumeric (Char.ofNat n) = false := by
    decide +kernel
  have hcode := hall c.toNat (mem_blankCodes_of_isBlank h)
  rwa [Char.ofNat_toNat] at hcode

/-- No character of a range without blanks is blank. -/
theorem not_isBlank_ofNat {m n k : Nat} (hrange : ∀ b ∈ blankCodes, ¬ (m ≤ b ∧ b ≤ n))
    (hm : m ≤ k) (hn : k ≤ n) : isBlank (Char.ofNat k) = false := by
  by_contra hblank
  have hmem := mem_blankCodes_of_isBlank (eq_true_of_ne_false hblank)
  by_cases hvalid : k.isValidChar
  · have hcode : (Char.ofNat k).toNat = k := by
      rw [Char.ofNat, dif_pos hvalid]
      rfl
    rw [hcode] at hmem
    exact hrange k hmem ⟨hm, hn⟩
  · rw [Char.ofNat, dif_neg hvalid] at hmem
    revert hmem
    decide

/-- No capital has a blank for its lower case. -/
theorem isBlank_of_isBlank_lowerChar {c : Char} (h : isBlank (lowerChar c) = true) :
    isBlank c = true := by
  unfold lowerChar at h
  split at h
  · rename_i hascii
    have hall : ∀ n < 0x80, isBlank (Char.ofNat n).toLower = true →
        isBlank (Char.ofNat n) = true := by
      decide +kernel
    have hlower := hall c.toNat hascii
    rw [Char.ofNat_toNat] at hlower
    exact hlower h
  · cases hshifted : shifted? Table.lower c.toNat with
    | none => rwa [hshifted] at h
    | some n =>
        rw [hshifted] at h
        obtain ⟨shift, hfound, rfl⟩ := Option.map_eq_some_iff.mp hshifted
        have hcovered := List.find?_some hfound
        simp only [Bool.and_eq_true, decide_eq_true_eq] at hcovered
        have hall : ∀ shift ∈ Table.lower, ∀ b ∈ blankCodes,
            ¬ (((shift.first : Int) + shift.distance).toNat ≤ b ∧
              b ≤ ((shift.last : Int) + shift.distance).toNat) := by
          decide +kernel
        have hnone : isBlank (Char.ofNat ((c.toNat : Int) + shift.distance).toNat) = false :=
          not_isBlank_ofNat (hall shift (List.mem_of_find?_eq_some hfound)) (by omega) (by omega)
        exact absurd h (ne_true_of_eq_false hnone)

theorem isBlank_of_isBlank_fold {c : Char} (h : isBlank (fold c) = true) : isBlank c = true := by
  unfold fold at h
  dsimp only at h
  split at h
  · rename_i hascii
    refine isBlank_of_isBlank_lowerChar ?_
    rwa [lowerChar, if_pos hascii]
  · split at h
    · rename_i m hlookup
      obtain ⟨before, behind, htable, -⟩ := List.lookup_eq_some_iff.mp hlookup
      have hall : ∀ entry ∈ Table.foldExceptions, isBlank (Char.ofNat entry.2) = false := by
        decide +kernel
      have hm := hall (c.toNat, m) (htable ▸ List.mem_append_right _ List.mem_cons_self)
      rw [hm] at h
      cases h
    · split at h
      · exact h
      · split at h
        · rename_i hcode
          simp only [Bool.and_eq_true, decide_eq_true_eq] at hcode
          have hnone : isBlank (Char.ofNat (c.toNat - 8)) = false :=
            not_isBlank_ofNat (m := 0x13F0) (n := 0x13F5) (by decide) (by omega) (by omega)
          exact absurd h (ne_true_of_eq_false hnone)
        · split at h
          · rename_i hcode
            simp only [Bool.and_eq_true, decide_eq_true_eq] at hcode
            have hnone : isBlank (Char.ofNat (c.toNat - 0x97D0)) = false :=
              not_isBlank_ofNat (m := 0x13A0) (n := 0x13EF) (by decide) (by omega) (by omega)
            exact absurd h (ne_true_of_eq_false hnone)
          · split at h
            · exact h
            · exact isBlank_of_isBlank_lowerChar h

end Text

namespace Admission

open Source Text

variable {ls : List Char} {ps qs : List Progress} {p q : Progress}

/-- No blank can be read as one of the letters. -/
def Legible (ls : List Char) : Prop :=
  ∀ l ∈ ls, ∀ c, isBlank c = true → readsAs l c = false

theorem readsAs_of_isBlank {l c : Char} (hl : isAlphanumeric l = true) (hc : isBlank c = true) :
    readsAs l c = false := by
  have hl : isBlank l = false := by
    by_contra hblank
    have hnone := not_isAlphanumeric_of_isBlank (eq_true_of_ne_false hblank)
    exact absurd hl (ne_true_of_eq_false hnone)
  have halike : (lookAlikes l).all (!isBlank ·) = true := by
    unfold lookAlikes
    split
    case h_11 => simpa using hl
    all_goals rfl
  rw [readsAs, List.any_eq_false]
  intro x hx hsame
  rw [fold_of_isBlank hc, beq_iff_eq] at hsame
  have hx := List.all_eq_true.mp halike x hx
  rw [← hsame] at hc
  rw [isBlank_of_isBlank_fold hc] at hx
  cases hx

theorem legible_letters (term : String) : Legible (letters term) := by
  intro l hl c hc
  exact readsAs_of_isBlank (List.mem_filter.mp hl).2 hc

/-! ## Reading through -/

namespace Progress

/-- A blank is read as a separator, or as a repeated letter. -/
theorem eq_of_mem_step_of_isBlank {c : Char} (hls : Legible p.ahead) (hc : isBlank c = true)
    (hq : q ∈ p.step c) : q = p ∨ q = ⟨none, p.ahead⟩ := by
  rw [step, List.mem_append, List.mem_append] at hq
  rcases hq with (hrepeated | hread) | hseparator
  · left
    split at hrepeated
    · split at hrepeated
      · exact List.mem_singleton.mp hrepeated
      · cases hrepeated
    · cases hrepeated
  · split at hread
    · rename_i l rest hahead
      rw [hls l (hahead ▸ List.mem_cons_self) c hc] at hread
      cases hread
    · cases hread
  · right
    split at hseparator
    · exact List.mem_singleton.mp hseparator
    · cases hseparator

theorem ahead_subset_of_mem_step {c : Char} (hq : q ∈ p.step c) : q.ahead ⊆ p.ahead := by
  rw [step, List.mem_append, List.mem_append] at hq
  rcases hq with (hrepeated | hread) | hseparator
  · split at hrepeated
    · split at hrepeated
      · rw [List.mem_singleton.mp hrepeated]
        exact List.Subset.refl _
      · cases hrepeated
    · cases hrepeated
  · split at hread
    · rename_i l rest hahead
      split at hread
      · rw [List.mem_singleton.mp hread, hahead]
        exact List.subset_cons_self l rest
      · cases hread
    · cases hread
  · split at hseparator
    · rw [List.mem_singleton.mp hseparator]
      exact List.Subset.refl _
    · cases hseparator

/-- Some of the letters are still to come. -/
def Pending (ls : List Char) (p : Progress) : Prop :=
  p.ahead ≠ [] ∧ p.ahead ⊆ ls

theorem Pending.isDone (h : p.Pending ls) : p.isDone = false := by
  simpa [Progress.isDone] using h.1

end Progress

open Progress

/-- The ways to have read a text and one more character. -/
def ways (ls : List Char) (ps : List Progress) (c : Char) : List Progress :=
  ((start ls :: ps).flatMap (step c)).eraseDups

theorem mem_ways {c : Char} : q ∈ ways ls ps c ↔ ∃ p ∈ start ls :: ps, q ∈ p.step c := by
  rw [ways, List.mem_eraseDups, List.mem_flatMap]

theorem readsThrough_cons (ls : List Char) (ps : List Progress) (c : Char) (cs : List Char) :
    readsThrough ls ps (c :: cs) =
      ((ways ls ps c).any isDone || readsThrough ls (ways ls ps c) cs) := rfl

/-- It only counts which ways to have read a text there are. -/
theorem readsThrough_congr (h : ∀ p, p ∈ start ls :: ps ↔ p ∈ start ls :: qs) (cs : List Char) :
    readsThrough ls ps cs = readsThrough ls qs cs := by
  induction cs generalizing ps qs with
  | nil => rfl
  | cons c cs ih =>
      have hways (q : Progress) : q ∈ ways ls ps c ↔ q ∈ ways ls qs c := by
        rw [mem_ways, mem_ways]
        exact exists_congr fun p => and_congr_left' (h p)
      have hdone : (ways ls ps c).any isDone = (ways ls qs c).any isDone := by
        rw [Bool.eq_iff_iff, List.any_eq_true, List.any_eq_true]
        exact exists_congr fun p => and_congr_left' (hways p)
      rw [readsThrough_cons, readsThrough_cons, hdone]
      refine congrArg _ (ih fun p => ?_)
      rw [List.mem_cons, List.mem_cons, hways]

theorem readsThrough_blanks_append (hls : Legible ls) (hne : ls ≠ []) {blanks : List Char}
    (hblanks : Blanks blanks) (cs : List Char) :
    readsThrough ls [] (blanks ++ cs) = readsThrough ls [] cs := by
  induction blanks with
  | nil => rfl
  | cons b blanks ih =>
      obtain ⟨hb, hrest⟩ := List.forall_mem_cons.mp hblanks
      have hstart : ∀ q ∈ ways ls [] b, q = start ls := by
        intro q hq
        obtain ⟨p, hp, hstep⟩ := mem_ways.mp hq
        obtain rfl := List.mem_singleton.mp hp
        exact (eq_of_mem_step_of_isBlank hls hb hstep).elim id id
      have hdone : (ways ls [] b).any isDone = false := by
        rw [List.any_eq_false]
        intro q hq
        rw [hstart q hq]
        simpa [start, isDone] using hne
      rw [List.cons_append, readsThrough_cons, hdone, Bool.false_or, ← ih hrest]
      refine readsThrough_congr (fun p => ?_) _
      rw [List.mem_cons, List.mem_singleton]
      exact or_iff_left_of_imp (hstart p)

theorem readsThrough_blanks (hls : Legible ls) (hne : ls ≠ []) {blanks : List Char}
    (hblanks : Blanks blanks) (hps : ∀ p ∈ ps, p.Pending ls) :
    readsThrough ls ps blanks = false := by
  induction blanks generalizing ps with
  | nil => rfl
  | cons b blanks ih =>
      obtain ⟨hb, hrest⟩ := List.forall_mem_cons.mp hblanks
      have hpending : ∀ q ∈ ways ls ps b, q.Pending ls := by
        intro q hq
        obtain ⟨p, hp, hstep⟩ := mem_ways.mp hq
        have hp : p.Pending ls := by
          rcases List.mem_cons.mp hp with rfl | hp
          · exact ⟨hne, List.Subset.refl ls⟩
          · exact hps p hp
        have hlegible : Legible p.ahead := fun l hl => hls l (hp.2 hl)
        rcases eq_of_mem_step_of_isBlank hlegible hb hstep with rfl | rfl
        · exact hp
        · exact hp
      have hdone : (ways ls ps b).any isDone = false := by
        rw [List.any_eq_false]
        intro q hq
        rw [(hpending q hq).isDone]
        exact Bool.false_ne_true
      rw [readsThrough_cons, hdone, Bool.false_or, ih hrest hpending]

theorem readsThrough_append_blanks (hls : Legible ls) (hne : ls ≠ []) {blanks : List Char}
    (hblanks : Blanks blanks) (hps : ∀ p ∈ ps, p.Pending ls) (cs : List Char) :
    readsThrough ls ps (cs ++ blanks) = readsThrough ls ps cs := by
  induction cs generalizing ps with
  | nil => exact readsThrough_blanks hls hne hblanks hps
  | cons c cs ih =>
      rw [List.cons_append, readsThrough_cons, readsThrough_cons]
      cases hdone : (ways ls ps c).any isDone with
      | true => rfl
      | false =>
          refine congrArg _ (ih fun q hq => ?_)
          obtain ⟨p, hp, hstep⟩ := mem_ways.mp hq
          have hahead : p.ahead ⊆ ls := by
            rcases List.mem_cons.mp hp with rfl | hp
            · exact List.Subset.refl ls
            · exact (hps p hp).2
          have hopen := List.any_eq_false.mp hdone q hq
          exact ⟨by simpa [isDone] using hopen,
            List.Subset.trans (ahead_subset_of_mem_step hstep) hahead⟩

/-- Blanks around a text hide no letters, and show none. -/
theorem contains_trim (hls : Legible ls) (cs : List Char) :
    contains ls (trim cs) = contains ls cs := by
  obtain ⟨before, behind, hbefore, hbehind, hcs⟩ := exists_blanks_trim cs
  rw [contains, contains]
  by_cases hne : ls = []
  · rw [hne]
    rfl
  · conv_rhs => rw [hcs]
    rw [readsThrough_blanks_append hls hne hbefore,
      readsThrough_append_blanks hls hne hbehind fun p hp => absurd hp List.not_mem_nil]

theorem NameMatcher.rejects_trimmed (m : NameMatcher) (name : String) :
    m.rejects (trimmed name) = m.rejects name := by
  rw [rejects, rejects, trimmed, String.toList_ofList]
  congr 1
  funext term
  exact contains_trim (legible_letters term) name.toList

end Admission

end CoreArena
