import CoreArena.Text.Blank

/-! # Texts and their lines

The lines of a text that is put together are the lines of its parts, as far as each part but the
last is closed by a line feed: `lines_append`. No line holds a line feed. -/

namespace CoreArena.Text

variable {text : List Char}

/-- A character in front of a text stands in front of its first line, unless it is part of a line
end. -/
theorem lines_cons {c : Char} {cs : List Char} (hlf : c ≠ '\n')
    (hcr : c = '\r' → cs.head? ≠ some '\n') :
    lines (c :: cs) = match lines cs with
      | [] => [[c]]
      | l :: ls => (c :: l) :: ls := by
  have hbroken : ∀ ds, c = '\r' → cs = '\n' :: ds → False := by
    rintro ds rfl rfl
    exact hcr rfl rfl
  exact lines.eq_4 c cs hlf hbroken

theorem lines_of_no_lineFeed (hne : text ≠ []) (hlf : '\n' ∉ text) : lines text = [text] := by
  induction text with
  | nil => contradiction
  | cons c cs ih =>
      obtain ⟨hc, hcs⟩ := not_or.mp (mt List.mem_cons.mpr hlf)
      rw [lines_cons (Ne.symm hc) fun _ hhead => hcs (List.mem_of_mem_head? hhead)]
      cases cs with
      | nil => rfl
      | cons d ds => rw [ih (List.cons_ne_nil d ds) hcs]

/-- Characters other than line ends in front of a text stand in front of its first line. -/
theorem lines_append_of_plain {front : List Char} (hfront : ∀ c ∈ front, c ≠ '\n' ∧ c ≠ '\r')
    {l : List Char} {ls : List (List Char)} (h : lines text = l :: ls) :
    lines (front ++ text) = (front ++ l) :: ls := by
  induction front with
  | nil => exact h
  | cons c front ih =>
      obtain ⟨⟨hlf, hcr⟩, hrest⟩ := List.forall_mem_cons.mp hfront
      rw [List.cons_append, lines_cons hlf fun hc => absurd hc hcr, ih hrest]
      rfl

theorem lines_ne_nil (h : text ≠ []) : lines text ≠ [] := by
  fun_cases lines text with
  | case1 => contradiction
  | case2 | case3 | case4 | case5 => exact List.cons_ne_nil _ _

/-- What follows a line feed is cut into lines on its own. -/
theorem lines_append (text rest : List Char) :
    lines (text ++ '\n' :: rest) = lines (text ++ ['\n']) ++ lines rest := by
  have hcons {c : Char} {cs : List Char} (hlf : c ≠ '\n')
      (hbroken : ∀ ds, c = '\r' → cs = '\n' :: ds → False)
      (ih : lines (cs ++ '\n' :: rest) = lines (cs ++ ['\n']) ++ lines rest) :
      lines (c :: (cs ++ '\n' :: rest)) = lines (c :: (cs ++ ['\n'])) ++ lines rest := by
    by_cases hreturn : c = '\r' ∧ cs = []
    · obtain ⟨rfl, rfl⟩ := hreturn
      rfl
    · have hhead (more : List Char) (hc : c = '\r') : (cs ++ '\n' :: more).head? ≠ some '\n' := by
        obtain ⟨d, ds, rfl⟩ := List.exists_cons_of_ne_nil fun h => hreturn ⟨hc, h⟩
        rw [List.cons_append, List.head?_cons]
        rintro ⟨⟩
        exact hbroken ds hc rfl
      rw [lines_cons hlf (hhead rest), lines_cons hlf (hhead []), ih]
      obtain ⟨l, ls, hlines⟩ := List.exists_cons_of_ne_nil
        (lines_ne_nil (List.append_ne_nil_of_right_ne_nil cs (List.cons_ne_nil '\n' [])))
      rw [hlines]
      rfl
  fun_induction lines text with
  | case1 => rfl
  | case2 cs ih => exact congrArg ([] :: ·) ih
  | case3 cs ih => exact congrArg ([] :: ·) ih
  | case4 c cs hlf hbroken _ ih => exact hcons hlf hbroken ih
  | case5 c cs hlf hbroken _ _ _ ih => exact hcons hlf hbroken ih

/-- A line feed behind a text closes its last line, unless that is closed already. -/
theorem lines_concat_lineFeed (hne : text ≠ []) (hlf : text.getLast? ≠ some '\n')
    (hcr : text.getLast? ≠ some '\r') : lines (text ++ ['\n']) = lines text := by
  have hrest (front : List Char) {cs : List Char} (hcs : cs ≠ []) :
      (front ++ cs).getLast? = cs.getLast? := by
    rw [List.getLast?_append, List.getLast?_eq_some_getLast hcs, Option.some_or]
  fun_induction lines text with
  | case1 => contradiction
  | case2 cs ih =>
      have hcs : cs ≠ [] := by
        rintro rfl
        exact hlf rfl
      rw [← hrest ['\n'] hcs] at ih
      exact congrArg ([] :: ·) (ih hcs hlf hcr)
  | case3 cs ih =>
      have hcs : cs ≠ [] := by
        rintro rfl
        exact hlf rfl
      rw [← hrest ['\r', '\n'] hcs] at ih
      exact congrArg ([] :: ·) (ih hcs hlf hcr)
  | case4 c cs hc hbroken hlines ih =>
      obtain rfl : cs = [] := Decidable.byContradiction fun hcs => lines_ne_nil hcs hlines
      rw [List.singleton_append, lines_cons hc fun hreturn => absurd (congrArg some hreturn) hcr]
      rfl
  | case5 c cs hc hbroken l ls hlines ih =>
      have hcs : cs ≠ [] := by
        rintro rfl
        cases hlines
      obtain ⟨d, ds, rfl⟩ := List.exists_cons_of_ne_nil hcs
      have hhead (hreturn : c = '\r') : (d :: ds ++ ['\n']).head? ≠ some '\n' := by
        rw [List.cons_append, List.head?_cons]
        rintro ⟨⟩
        exact hbroken ds hreturn rfl
      rw [← hrest [c] hcs, hlines] at ih
      rw [List.cons_append, lines_cons hc hhead, ih hcs hlf hcr]

/-- The lines of texts that are joined by line feeds are those of the one text after the other, if
none of them is empty or ends in a line end. -/
theorem lines_intercalate_eq_flatMap {ls : List (List Char)}
    (h : ∀ l ∈ ls, l ≠ [] ∧ l.getLast? ≠ some '\n' ∧ l.getLast? ≠ some '\r') :
    lines (['\n'].intercalate ls) = ls.flatMap lines := by
  induction ls with
  | nil => rfl
  | cons l ls ih =>
      obtain ⟨⟨hne, hlf, hcr⟩, hls⟩ := List.forall_mem_cons.mp h
      cases ls with
      | nil => simp
      | cons l' ls =>
          rw [List.intercalate_cons_cons, List.append_assoc, List.singleton_append, lines_append,
            lines_concat_lineFeed hne hlf hcr, ih hls, List.flatMap_cons (x := l)]

/-- Lines without line ends are the lines of the text that joins them. -/
theorem lines_intercalate {ls : List (List Char)}
    (h : ∀ l ∈ ls, l ≠ [] ∧ '\n' ∉ l ∧ l.getLast? ≠ some '\r') :
    lines (['\n'].intercalate ls) = ls := by
  have hself : ∀ l ∈ ls, lines l = [l] := fun l hl => lines_of_no_lineFeed (h l hl).1 (h l hl).2.1
  rw [lines_intercalate_eq_flatMap, List.flatMap_def, List.map_congr_left hself, ← List.flatMap_def,
    List.flatMap_singleton']
  intro l hl
  obtain ⟨hne, hlf, hcr⟩ := h l hl
  exact ⟨hne, fun hlast => hlf (List.mem_of_getLast? hlast), hcr⟩

/-- Lines that are closed by line feeds are the lines of the text that they make. -/
theorem lines_flatMap_lineFeed {ls : List (List Char)}
    (h : ∀ l ∈ ls, '\n' ∉ l ∧ l.getLast? ≠ some '\r') :
    lines (ls.flatMap (· ++ ['\n'])) = ls := by
  induction ls with
  | nil => rfl
  | cons l ls ih =>
      obtain ⟨⟨hlf, hcr⟩, hls⟩ := List.forall_mem_cons.mp h
      have hclosed : lines (l ++ ['\n']) = [l] := by
        by_cases hne : l = []
        · subst hne
          rfl
        · rw [lines_concat_lineFeed hne (fun hlast => hlf (List.mem_of_getLast? hlast)) hcr,
            lines_of_no_lineFeed hne hlf]
      rw [List.flatMap_cons, List.append_assoc, List.singleton_append, lines_append, hclosed,
        ih hls]
      rfl

theorem lineFeed_not_mem_of_mem_lines {l : List Char} (h : l ∈ lines text) : '\n' ∉ l := by
  fun_induction lines text generalizing l with
  | case1 => cases h
  | case2 cs ih =>
      rcases List.mem_cons.mp h with rfl | h
      · exact List.not_mem_nil
      · exact ih h
  | case3 cs ih =>
      rcases List.mem_cons.mp h with rfl | h
      · exact List.not_mem_nil
      · exact ih h
  | case4 c cs hlf _ hlines ih =>
      rw [List.mem_singleton.mp h, List.mem_singleton]
      exact Ne.symm hlf
  | case5 c cs hlf _ first ls hlines ih =>
      rw [hlines] at ih
      rcases List.mem_cons.mp h with rfl | h
      · rw [List.mem_cons, not_or]
        exact ⟨Ne.symm hlf, ih List.mem_cons_self⟩
      · exact ih (List.mem_cons_of_mem _ h)

end CoreArena.Text
