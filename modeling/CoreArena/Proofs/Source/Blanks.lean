import CoreArena.Source.Reading
import Mathlib.Data.List.DropRight

/-! # Blanks around texts

Blanks at the start of a text are all that trimming takes from it there: `exists_blanks_trimStart`,
`trimStart_blanks_append`; and nothing but blanks leaves nothing: `trim_eq_nil_iff`. -/

namespace CoreArena.Source

open Text

/-- Any number of blanks. -/
def Blanks (cs : List Char) : Prop :=
  ∀ c ∈ cs, isBlank c = true

instance : DecidablePred Blanks := fun cs =>
  List.decidableBAll (isBlank · = true) cs

theorem Blanks.nil : Blanks [] :=
  nofun

theorem Blanks.append {cs ds : List Char} (hcs : Blanks cs) (hds : Blanks ds) :
    Blanks (cs ++ ds) := by
  intro c hc
  exact (List.mem_append.mp hc).elim (hcs c) (hds c)

theorem exists_blanks_trimStart (cs : List Char) :
    ∃ blanks, Blanks blanks ∧ cs = blanks ++ trimStart cs :=
  ⟨cs.takeWhile isBlank, fun _ => List.mem_takeWhile_imp, List.takeWhile_append_dropWhile.symm⟩

theorem exists_blanks_trim (cs : List Char) :
    ∃ before behind, Blanks before ∧ Blanks behind ∧ cs = before ++ (trim cs ++ behind) := by
  obtain ⟨before, hbefore, hcs⟩ := exists_blanks_trimStart cs
  refine ⟨before, (trimStart cs).rtakeWhile isBlank, hbefore,
    fun _ => List.mem_rtakeWhile_imp, ?_⟩
  have hends : trim cs ++ (trimStart cs).rtakeWhile isBlank = trimStart cs :=
    List.rdropWhile_append_rtakeWhile
  rw [hends]
  exact hcs

theorem trim_eq_nil_iff {cs : List Char} : trim cs = [] ↔ Blanks cs := by
  constructor
  · intro h
    obtain ⟨before, behind, hbefore, hbehind, hcs⟩ := exists_blanks_trim cs
    rw [hcs, h, List.nil_append]
    exact hbefore.append hbehind
  · intro h
    rw [trim, trimStart, List.dropWhile_eq_nil_iff.mpr h]
    rfl

/-- Trimming keeps a first character that is not blank. -/
theorem head?_trim {c : Char} (hblank : isBlank c = false) (cs : List Char) :
    (trim (c :: cs)).head? = some c := by
  obtain ⟨before, behind, hbefore, hbehind, hsplit⟩ := exists_blanks_trim (c :: cs)
  cases htrim : trim (c :: cs) with
  | nil =>
      have hblanks := trim_eq_nil_iff.mp htrim c List.mem_cons_self
      simp [hblank] at hblanks
  | cons d ds =>
      rw [htrim] at hsplit
      cases before with
      | nil => exact congrArg some (List.cons.inj hsplit).1.symm
      | cons b bs =>
          obtain ⟨rfl, -⟩ := List.cons.inj hsplit
          simp [hbefore c List.mem_cons_self] at hblank

theorem head?_trim_not_isBlank {cs : List Char} {c : Char} {rest : List Char}
    (h : trim cs = c :: rest) : isBlank c = false := by
  obtain ⟨more, hmore⟩ : trim cs <+: trimStart cs := List.rdropWhile_prefix isBlank _
  rw [h] at hmore
  exact not_isBlank_of_trimStart hmore.symm

@[simp] theorem trim_trim (cs : List Char) : trim (trim cs) = trim cs := by
  have hstart : trimStart (trim cs) = trim cs := by
    cases h : trim cs with
    | nil => rfl
    | cons c rest => exact List.dropWhile_cons_of_neg (by simp [head?_trim_not_isBlank h])
  rw [trim, hstart]
  exact List.rdropWhile_idempotent isBlank (trimStart cs)

theorem trailing?_eq_none_iff {cs : List Char} : trailing? cs = none ↔ Blanks cs := by
  rw [← trim_eq_nil_iff]
  simp [trailing?]

theorem eq_cons_of_any_head? {p : Char → Bool} {cs : List Char} (h : cs.head?.any p) :
    ∃ c rest, cs = c :: rest ∧ p c = true := by
  cases cs with
  | nil => cases h
  | cons c rest => exact ⟨c, rest, rfl, h⟩

theorem any_head?_append {p : Char → Bool} {cs : List Char} (h : cs.head?.any p)
    (ds : List Char) : (cs ++ ds).head?.any p := by
  obtain ⟨c, rest, rfl, hc⟩ := eq_cons_of_any_head? h
  exact hc

theorem trimStart_of_any_head? {cs : List Char} (h : cs.head?.any (!isBlank ·)) :
    trimStart cs = cs := by
  obtain ⟨c, rest, rfl, hc⟩ := eq_cons_of_any_head? h
  exact List.dropWhile_cons_of_neg (by simpa using hc)

theorem trimStart_blanks_append {blanks cs : List Char} (hblanks : Blanks blanks)
    (h : cs.head?.any (!isBlank ·)) : trimStart (blanks ++ cs) = cs := by
  rw [trimStart_append_of_blank hblanks, trimStart_of_any_head? h]

/-- Blanks before a text that neither opens nor ends with one are trimmed away. -/
theorem trim_blanks_append {blanks cs : List Char} (hblanks : Blanks blanks)
    (hfirst : cs.head?.any (!isBlank ·)) (hlast : cs.getLast?.any (!isBlank ·)) :
    trim (blanks ++ cs) = cs := by
  rw [trim, trimStart_blanks_append hblanks hfirst]
  refine List.rdropWhile_eq_self_iff.mpr fun hne => ?_
  simpa [List.getLast?_eq_some_getLast hne] using hlast

end CoreArena.Source
