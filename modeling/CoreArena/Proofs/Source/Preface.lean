import CoreArena.Proofs.Source.Reading

/-! # Lines in front of a text

A program is the same behind lines that take no cell and have no problem, which are comments and
descriptions that have a key. Any other line changes the words or is wrong, except that blank lines
may stand in front of a text without statements: `exists_assemble_preface_iff`. -/

namespace CoreArena.Source

open Text

/-- A comment, or a description that has a key. -/
def isAside (line : List Char) : Bool :=
  match trim line with
  | '#' :: _ => true
  | '@' :: cs => !(trim cs).isEmpty
  | _ => false

/-- The statement of a line that takes a cell. -/
def statementOf? (line : List Char) : Option Statement :=
  (readLine 1 0 line).statement?

/-- The statements of the lines that take a cell, up to the last one that is not blank. -/
def cells (ls : List (List Char)) : List Statement :=
  (ls.rdropWhile fun line => !holdsStatement line).filterMap statementOf?

/-- No line has a problem. -/
def Sound (ls : List (List Char)) : Prop :=
  ∀ l ∈ readLines 1 0 ls, l.problem = none

variable {line : List Char} {ls pre : List (List Char)}

/-! ## Single lines -/

/-- What stands before a line changes its number and at most its problem. -/
theorem statement?_readLine (number statementsBefore : Nat) (line : List Char) :
    (readLine number statementsBefore line).statement? = statementOf? line := by
  unfold statementOf? readLine
  split <;> rfl

theorem problem_readLine (number number' statementsBefore : Nat) (line : List Char) :
    (readLine number statementsBefore line).problem =
      (readLine number' statementsBefore line).problem := by
  unfold readLine
  split <;> rfl

theorem isSome_statementOf? (line : List Char) : (statementOf? line).isSome = takesCell line :=
  (readFrom_readLine 1 0 line).isSome_statement?

theorem holdsStatement_eq_false_of_takesCell (h : takesCell line = false) :
    holdsStatement line = false := by
  rw [holdsStatement, h, Bool.false_and]

theorem holdsStatement_eq_false_of_blank (h : trim line = []) : holdsStatement line = false := by
  rw [holdsStatement, h, List.isEmpty_nil, Bool.not_true, Bool.and_false]

theorem blank_of_takesCell (hcell : takesCell line = true) (h : holdsStatement line = false) :
    trim line = [] := by
  rw [holdsStatement, hcell, Bool.true_and] at h
  simpa using h

/-- A description has a key if there is anything behind its sign. -/
theorem problem_readDescription_eq_none_iff (number : Nat) (text body : List Char) :
    (readDescription number 0 text body).problem = none ↔ trim body ≠ [] := by
  have hkey : ((trim body).takeWhile fun c => !isBlank c) = [] ↔ trim body = [] := by
    cases hbody : trim body with
    | nil => simp
    | cons c cs => simp [head?_trim_not_isBlank hbody]
  simp [readDescription, hkey]

/-- The lines that take no cell and have no problem. -/
theorem isAside_iff (line : List Char) :
    isAside line = true ↔ takesCell line = false ∧ (readLine 1 0 line).problem = none := by
  unfold isAside takesCell readLine
  split
  · rename_i cs htext
    simp [htext]
  · rename_i cs htext
    simp [htext, problem_readDescription_eq_none_iff]
  · rename_i hcomment hdescription
    refine iff_of_false Bool.false_ne_true fun h => ?_
    cases htext : trim line with
    | nil => simp [htext] at h
    | cons c cs =>
        have hc : c ≠ '#' := fun hc => hcomment cs (hc ▸ htext)
        have hc' : c ≠ '@' := fun hc => hdescription cs (hc ▸ htext)
        simp [htext, hc, hc'] at h

theorem isAside_comment (cs : List Char) : isAside ('#' :: cs) = true := by
  have hhead : (trim ('#' :: cs)).head? = some '#' := head?_trim (by decide) cs
  obtain ⟨rest, htext⟩ := List.head?_eq_some_iff.mp hhead
  simp [isAside, htext]

/-! ## Cells -/

theorem cells_append_of_exists (pre : List (List Char))
    (h : ∃ line ∈ ls, holdsStatement line = true) :
    cells (pre ++ ls) = pre.filterMap statementOf? ++ cells ls := by
  rw [cells, rdropWhile_append_of_exists pre (by simpa using h), List.filterMap_append]
  rfl

theorem cells_append_of_forall (pre : List (List Char))
    (h : ∀ line ∈ ls, holdsStatement line = false) : cells (pre ++ ls) = cells pre := by
  have hall : ∀ line ∈ ls.reverse, (!holdsStatement line) = true := by
    simpa using h
  rw [cells, List.rdropWhile, List.reverse_append, List.dropWhile_append_of_pos hall]
  rfl

theorem mem_rdropWhile {α : Type} {p : α → Bool} {a : α} {as : List α} (ha : a ∈ as)
    (hp : p a = false) : a ∈ as.rdropWhile p := by
  rw [← List.rdropWhile_append_rtakeWhile (p := p) (l := as)] at ha
  rcases List.mem_append.mp ha with ha | ha
  · exact ha
  · rw [List.mem_rtakeWhile_imp ha] at hp
    cases hp

/-- A text without statements has no cells, however many blank lines it has. -/
theorem cells_eq_nil_iff : cells ls = [] ↔ ∀ line ∈ ls, holdsStatement line = false := by
  constructor
  · intro h line hline
    by_contra hholds
    rw [Bool.not_eq_false] at hholds
    have hkept : line ∈ ls.rdropWhile fun line => !holdsStatement line :=
      mem_rdropWhile hline (by rw [hholds, Bool.not_true])
    have hnone : statementOf? line = none := List.filterMap_eq_nil_iff.mp h line hkept
    have hcell := isSome_statementOf? line
    rw [hnone] at hcell
    rw [holdsStatement_eq_false_of_takesCell hcell.symm] at hholds
    cases hholds
  · intro h
    exact (cells_append_of_forall [] h).trans rfl

theorem exists_holdsStatement (h : cells ls ≠ []) : ∃ line ∈ ls, holdsStatement line = true := by
  simpa [cells_eq_nil_iff] using h

/-- A line that was read has the statement of the line. -/
structure SameStatement (line : List Char) (l : SourceLine) : Prop where
  isStatement_eq : holdsStatement line = l.isStatement
  statement?_eq : statementOf? line = l.statement?

theorem forall₂_sameStatement (number statementsBefore : Nat) (ls : List (List Char)) :
    List.Forall₂ SameStatement ls (readLines number statementsBefore ls) := by
  induction ls generalizing number statementsBefore with
  | nil => exact .nil
  | cons line ls ih =>
      exact .cons ⟨(readFrom_readLine number statementsBefore line).isStatement_eq.symm,
        (statement?_readLine number statementsBefore line).symm⟩ (ih _ _)

theorem filterMap_of_forall₂_sameStatement {as : List SourceLine}
    (h : List.Forall₂ SameStatement ls as) :
    ls.filterMap statementOf? = as.filterMap SourceLine.statement? := by
  induction h with
  | nil => rfl
  | cons hsame _ ih => rw [List.filterMap_cons, List.filterMap_cons, hsame.statement?_eq, ih]

/-- The statements of a text are its cells. -/
theorem statements_read (source : String) :
    (read source).statements = cells (lines source.toList) := by
  obtain ⟨rest, hlines, hrest⟩ := dropPadding_eq_append (readLines 1 0 (lines source.toList))
  have hupTo := forall₂_rdropWhile (p := fun line => !holdsStatement line)
    (q := fun l => !l.isStatement) (fun _ _ h => congrArg not h.isStatement_eq)
    (forall₂_sameStatement 1 0 (lines source.toList))
  show (dropPadding _).filterMap _ = _
  rw [hlines, List.filterMap_append, List.filterMap_eq_nil_iff.mpr hrest, List.append_nil, cells,
    filterMap_of_forall₂_sameStatement hupTo]

/-! ## Problems -/

theorem ReadFrom.problem_of_isBlank {line : List Char × Nat} {l : SourceLine}
    (h : ReadFrom line l) (hblank : l.isBlank = true) : l.problem = none := by
  have htext : l.text = [] := List.isEmpty_iff.mp (Bool.and_eq_true_iff.mp hblank).1
  rw [h.blank (h.text_eq ▸ htext)]
  rfl

/-- A text is judged by all its lines: only blank ones are dropped, and these have no problem. -/
theorem forall_problem_read_iff (source : String) :
    (∀ l ∈ (read source).lines, l.problem = none) ↔ Sound (lines source.toList) := by
  constructor
  · intro h l hl
    obtain ⟨line, hread⟩ := exists_readFrom_of_mem hl
    rcases mem_dropPadding_or_isBlank hl with hkept | hblank
    · exact h l hkept
    · exact hread.problem_of_isBlank hblank
  · intro h l hl
    exact h l ((dropPadding_sublist _).subset hl)

/-- The words that a text assembles to. -/
theorem exists_assemble_iff {source : String} {ws : List Word} :
    (∃ a, assemble source = .ok a ∧ a.words = ws) ↔
      Sound (lines source.toList) ∧
        (cells (lines source.toList)).map (fun s => s.instruction.encode) = ws := by
  rw [← forall_problem_read_iff, ← statements_read]
  constructor
  · rintro ⟨a, ha, rfl⟩
    obtain ⟨hsound, rfl⟩ := sound_of_assemble ha
    exact ⟨hsound, rfl⟩
  · rintro ⟨hsound, rfl⟩
    exact ⟨_, assemble_of_sound hsound, rfl⟩

theorem readLines_append (number statementsBefore : Nat) (pre ls : List (List Char)) :
    readLines number statementsBefore (pre ++ ls) =
      readLines number statementsBefore pre ++
        readLines (number + pre.length) (statementsBefore + pre.countP holdsStatement) ls := by
  induction pre generalizing number statementsBefore with
  | nil => rfl
  | cons line pre ih =>
      have hstatement := (readFrom_readLine number statementsBefore line).isStatement_eq
      rw [List.cons_append, readLines, readLines, ih, hstatement, List.length_cons,
        List.countP_cons, List.cons_append, Nat.add_right_comm, Nat.add_assoc number,
        Nat.add_comm (List.countP _ _), Nat.add_assoc]

theorem map_problem_readLines (number number' statementsBefore : Nat) (ls : List (List Char)) :
    (readLines number statementsBefore ls).map SourceLine.problem =
      (readLines number' statementsBefore ls).map SourceLine.problem := by
  induction ls generalizing number number' statementsBefore with
  | nil => rfl
  | cons line ls ih =>
      have hstatement := (readFrom_readLine number statementsBefore line).isStatement_eq
      have hstatement' := (readFrom_readLine number' statementsBefore line).isStatement_eq
      rw [readLines, readLines, List.map_cons, List.map_cons, hstatement, hstatement',
        problem_readLine number number', ih (number + 1) (number' + 1)]

theorem sound_append_iff (h : ∀ line ∈ pre, holdsStatement line = false) :
    Sound (pre ++ ls) ↔ Sound pre ∧ Sound ls := by
  have hcount : pre.countP holdsStatement = 0 := by
    simpa using h
  have hmoved : (∀ l ∈ readLines (1 + pre.length) 0 ls, l.problem = none) ↔ Sound ls := by
    have hproblems := map_problem_readLines (1 + pre.length) 1 0 ls
    rw [Sound, ← List.forall_mem_map (P := (· = none)), hproblems, List.forall_mem_map]
  rw [Sound, readLines_append, hcount, List.forall_mem_append]
  exact and_congr_right fun _ => hmoved

/-- Lines without statements are judged one by one. -/
theorem sound_iff_of_forall (h : ∀ line ∈ ls, holdsStatement line = false) :
    Sound ls ↔ ∀ line ∈ ls, (readLine 1 0 line).problem = none := by
  induction ls with
  | nil => simp [Sound, readLines]
  | cons line ls ih =>
      obtain ⟨hline, hls⟩ := List.forall_mem_cons.mp h
      have hsingle : Sound [line] ↔ (readLine 1 0 line).problem = none := by
        simp [Sound, readLines]
      rw [← List.singleton_append, sound_append_iff (by simpa using hline), ih hls, hsingle,
        List.forall_mem_append, List.forall_mem_singleton]

/-! ## Prefaces -/

/-- Some lines make no difference to the cells of what follows: each takes no cell, or it is blank
and no statement follows. -/
def AddsNoCell (pre ls : List (List Char)) : Prop :=
  ∀ line ∈ pre, takesCell line = false ∨ trim line = [] ∧ cells ls = []

theorem AddsNoCell.holdsStatement_eq_false (h : AddsNoCell pre ls) :
    ∀ line ∈ pre, holdsStatement line = false := by
  intro line hline
  rcases h line hline with hcell | ⟨hblank, -⟩
  · exact holdsStatement_eq_false_of_takesCell hcell
  · exact holdsStatement_eq_false_of_blank hblank

theorem AddsNoCell.cells_append (h : AddsNoCell pre ls) : cells (pre ++ ls) = cells ls := by
  by_cases hnil : cells ls = []
  · rw [cells_append_of_forall pre (cells_eq_nil_iff.mp hnil), hnil]
    exact cells_eq_nil_iff.mpr h.holdsStatement_eq_false
  · have hnone : pre.filterMap statementOf? = [] := by
      refine List.filterMap_eq_nil_iff.mpr fun line hline => ?_
      have hcell : takesCell line = false :=
        (h line hline).resolve_right fun hblank => hnil hblank.2
      rw [← Option.not_isSome_iff_eq_none, isSome_statementOf?, hcell]
      exact Bool.false_ne_true
    rw [cells_append_of_exists pre (exists_holdsStatement hnil), hnone, List.nil_append]

/-- As a line that adds a cell takes none away, their number tells. -/
theorem addsNoCell_of_length (h : (cells (pre ++ ls)).length = (cells ls).length) :
    AddsNoCell pre ls := by
  intro line hline
  by_cases hnil : cells ls = []
  · rw [hnil, List.length_nil, List.length_eq_zero_iff] at h
    have hnone := cells_eq_nil_iff.mp h line (List.mem_append_left ls hline)
    cases hcell : takesCell line with
    | true => exact .inr ⟨blank_of_takesCell hcell hnone, hnil⟩
    | false => exact .inl rfl
  · rw [cells_append_of_exists pre (exists_holdsStatement hnil), List.length_append,
      Nat.add_eq_right, List.length_eq_zero_iff] at h
    rw [← isSome_statementOf?, List.filterMap_eq_nil_iff.mp h line hline]
    exact .inl rfl

/-- A sound text has the same words behind some lines exactly if each of them is an aside, or blank
and the text has no words. -/
theorem exists_assemble_preface_iff {source text : String} {a : Assembled}
    (ha : assemble source = .ok a) (hlines : lines text.toList = pre ++ lines source.toList) :
    (∃ b, assemble text = .ok b ∧ b.words = a.words) ↔
      ∀ line ∈ pre, isAside line = true ∨ trim line = [] ∧ a.words = [] := by
  obtain ⟨hsource, hwords⟩ := exists_assemble_iff.mp ⟨a, ha, rfl⟩
  generalize lines source.toList = ls at hlines hsource hwords
  rw [exists_assemble_iff, hlines, ← hwords, List.map_eq_nil_iff]
  constructor
  · rintro ⟨hsound, hcells⟩ line hline
    have hlength := congrArg List.length hcells
    rw [List.length_map, List.length_map] at hlength
    have hadds := addsNoCell_of_length hlength
    -- Where no statement stands in front, neither part changes the problems of the other.
    have hpre := hadds.holdsStatement_eq_false
    have hproblem := (sound_iff_of_forall hpre).mp ((sound_append_iff hpre).mp hsound).1 line hline
    exact (hadds line hline).imp_left fun hcell => (isAside_iff line).mpr ⟨hcell, hproblem⟩
  · intro h
    have hadds : AddsNoCell pre ls := fun line hline =>
      (h line hline).imp_left fun haside => ((isAside_iff line).mp haside).1
    have hpre := hadds.holdsStatement_eq_false
    refine ⟨(sound_append_iff hpre).mpr ⟨(sound_iff_of_forall hpre).mpr fun line hline => ?_,
      hsource⟩, congrArg _ hadds.cells_append⟩
    rcases h line hline with haside | ⟨hblank, -⟩
    · exact ((isAside_iff line).mp haside).2
    · rw [(readFrom_readLine 1 0 line).blank hblank]
      rfl

end CoreArena.Source
