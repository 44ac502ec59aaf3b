import CoreArena.Proofs.Source.Reading
import CoreArena.Proofs.Source.Wording

/-! # Texts of statements

A text each of whose lines states an instruction, no more of them than a program may have,
assembles to the words of these instructions in their order: `assemble_of_states`. -/

namespace CoreArena.Source

open Text

/-- A line is a statement of an instruction, without blanks around it. -/
structure States (line : List Char) (i : Instruction) : Prop where
  opens : line.head?.any fun c => !isBlank c && c != '#' && c != '@'
  ends : line.getLast?.any (!isBlank ·)
  single : line.all fun c => c != '\n' && c != '\r'
  read : ∃ s, readStatement line = (s, none) ∧ s.instruction = i

theorem Wording.states {cs : List Char} {i : Instruction} (h : Wording cs i) : States cs i :=
  ⟨h.any_head?, h.any_getLast?,
    List.all_eq_true.mpr fun c hc => by simpa using h.ne_lineEnd c hc, h.readStatement_eq⟩

/-- A derivable line that ends with an operand as operands are listed is a statement. -/
theorem Derivation.states {front : List Char} {o : Operand} {s : Statement}
    (h : Derivation ["*"] (front ++ o.text) s)
    (hopens : front.head?.any fun c => !isBlank c && c != '#' && c != '@')
    (hfront : front.all fun c => c.toLower == c && (c != '\n' && c != '\r')) :
    States (front ++ o.text) s.instruction := by
  have hoperand : o.text.all fun c => c.toLower == c && (c != '\n' && c != '\r') := by
    refine List.all_eq_true.mpr fun c hc => ?_
    have hchar := isOperandChar_of_mem_text hc
    have hne : c ≠ '\n' ∧ c ≠ '\r' := by
      constructor <;> (rintro rfl; cases hchar)
    simpa [toLower_of_isOperandChar hchar] using hne
  have hall : ∀ c ∈ front ++ o.text, c.toLower = c ∧ (c != '\n' && c != '\r') = true := by
    have hboth : (front ++ o.text).all fun c => c.toLower == c && (c != '\n' && c != '\r') := by
      rw [List.all_append, hfront, hoperand]
      rfl
    exact fun c hc => (Bool.and_eq_true_iff.mp (List.all_eq_true.mp hboth c hc)).imp_left eq_of_beq
  have hlower : (front ++ o.text).map Char.toLower = front ++ o.text :=
    (List.map_congr_left fun c hc => (hall c hc).1).trans (List.map_id _)
  exact ⟨any_head?_append hopens _, any_getLast?_append_text front o,
    List.all_eq_true.mpr fun c hc => (hall c hc).2, s, h.readStatement_eq hlower, rfl⟩

namespace States

variable {line : List Char} {i : Instruction}

theorem exists_eq_cons (h : States line i) :
    ∃ c cs, line = c :: cs ∧ isBlank c = false ∧ c ≠ '#' ∧ c ≠ '@' := by
  obtain ⟨c, cs, rfl, hc⟩ := eq_cons_of_any_head? h.opens
  simp only [Bool.and_eq_true, Bool.not_eq_true', bne_iff_ne] at hc
  exact ⟨c, cs, rfl, hc.1.1, hc.1.2, hc.2⟩

theorem ne_nil (h : States line i) : line ≠ [] := by
  obtain ⟨c, cs, rfl, -⟩ := h.exists_eq_cons
  exact List.cons_ne_nil c cs

theorem ne_lineEnd (h : States line i) : ∀ c ∈ line, c ≠ '\n' ∧ c ≠ '\r' := by
  intro c hc
  simpa using List.all_eq_true.mp h.single c hc

theorem trim_eq (h : States line i) : trim line = line := by
  obtain ⟨c, cs, rfl, hblank, -⟩ := h.exists_eq_cons
  exact trim_blanks_append .nil (by simp [hblank]) h.ends

/-- What is read from a statement is too long a program if there are enough already. -/
theorem readLine_eq (h : States line i) (number statementsBefore : Nat) :
    readLine number statementsBefore line =
      ⟨number, line, .statement (readStatement line).1,
        if statementsBefore < maxStatements then none else some .programTooLong⟩ := by
  obtain ⟨s, hs, -⟩ := h.read
  have htrim := h.trim_eq
  obtain ⟨c, cs, rfl, -, hcomment, hdescription⟩ := h.exists_eq_cons
  unfold readLine
  rw [htrim]
  split
  · contradiction
  · rename_i heq
    cases heq
    contradiction
  · rename_i heq
    cases heq
    contradiction
  · simp [hs]

end States

/-! ## Lines -/

theorem dropPadding_of_no_blank {ls : List SourceLine} (h : ∀ l ∈ ls, l.isBlank = false) :
    dropPadding ls = ls := by
  induction ls with
  | nil => rfl
  | cons l ls ih =>
      obtain ⟨hl, hls⟩ := List.forall_mem_cons.mp h
      rw [dropPadding_cons, hl, ih hls]
      rfl

/-- What is read from a statement that has so many lines before it, all of them statements. -/
def statedLine (line : List Char × Nat) : SourceLine :=
  ⟨line.2 + 1, line.1, .statement (readStatement line.1).1,
    if line.2 < maxStatements then none else some .programTooLong⟩

theorem problem_statedLine_eq_none_iff {line : List Char × Nat} :
    (statedLine line).problem = none ↔ line.2 < maxStatements := by
  simp [statedLine]

theorem readLines_of_states {ls : List (List Char)} (h : ∀ l ∈ ls, ∃ i, States l i)
    (before : Nat) :
    readLines (before + 1) before ls = (ls.zipIdx before).map statedLine := by
  induction ls generalizing before with
  | nil => rfl
  | cons l ls ih =>
      obtain ⟨⟨i, hl⟩, hls⟩ := List.forall_mem_cons.mp h
      obtain ⟨c, cs, rfl, -⟩ := hl.exists_eq_cons
      rw [readLines, hl.readLine_eq, List.zipIdx_cons, List.map_cons, ← ih hls]
      rfl

/-! ## Texts -/

section Texts

variable {source : String} {ls : List (List Char)}

theorem lines_read_of_states (hsource : source.toList = ['\n'].intercalate ls)
    (h : ∀ l ∈ ls, ∃ i, States l i) : (read source).lines = ls.zipIdx.map statedLine := by
  have hlines : lines source.toList = ls := by
    rw [hsource]
    refine lines_intercalate fun l hl => ?_
    obtain ⟨i, hi⟩ := h l hl
    refine ⟨hi.ne_nil, fun hlf => (hi.ne_lineEnd _ hlf).1 rfl, fun hlast => ?_⟩
    exact (hi.ne_lineEnd _ (List.mem_of_getLast? hlast)).2 rfl
  show dropPadding (readLines 1 0 (lines source.toList)) = _
  rw [hlines, readLines_of_states h 0]
  refine dropPadding_of_no_blank fun l hl => ?_
  obtain ⟨⟨cs, k⟩, hline, rfl⟩ := List.mem_map.mp hl
  obtain ⟨i, hi⟩ := h cs (List.fst_mem_of_mem_zipIdx hline)
  simp [SourceLine.isBlank, statedLine, hi.ne_nil]

theorem mem_lines_read_of_states (hsource : source.toList = ['\n'].intercalate ls)
    (h : ∀ l ∈ ls, ∃ i, States l i) {l : SourceLine} :
    l ∈ (read source).lines ↔ ∃ k line, ls[k]? = some line ∧ l = statedLine (line, k) := by
  rw [lines_read_of_states hsource h, List.mem_map]
  constructor
  · rintro ⟨⟨line, k⟩, hline, rfl⟩
    exact ⟨k, line, List.mk_mem_zipIdx_iff_getElem?.mp hline, rfl⟩
  · rintro ⟨k, line, hline, rfl⟩
    exact ⟨(line, k), List.mk_mem_zipIdx_iff_getElem?.mpr hline, rfl⟩

theorem exists_states {is : List Instruction} (h : List.Forall₂ States ls is) :
    ∀ l ∈ ls, ∃ i, States l i := by
  intro l hl
  obtain ⟨k, hk, rfl⟩ := List.mem_iff_getElem.mp hl
  exact ⟨_, h.get hk (h.length_eq ▸ hk)⟩

theorem wellFormed_of_states {is : List Instruction} (h : List.Forall₂ States ls is) :
    ∀ i ∈ is, i.WellFormed 3 := by
  intro i hi
  obtain ⟨k, hk, rfl⟩ := List.mem_iff_getElem.mp hi
  obtain ⟨s, hs, hinstruction⟩ := (h.get (h.length_eq ▸ hk) hk).read
  rw [List.get_eq_getElem] at hinstruction
  rw [← hinstruction]
  exact (expressible_of_readStatement hs).wellFormed.mono (by decide)

/-- The statements of a text are those of its lines. -/
theorem instructions_read_of_states {is : List Instruction}
    (hsource : source.toList = ['\n'].intercalate ls) (h : List.Forall₂ States ls is) :
    (read source).statements.map Statement.instruction = is := by
  have hsome : SourceLine.statement? ∘ statedLine =
      some ∘ fun line => (readStatement line.1).1 := rfl
  calc
    _ = (ls.zipIdx.map fun line => (readStatement line.1).1).map Statement.instruction := by
      rw [Reading.statements, lines_read_of_states hsource (exists_states h),
        List.filterMap_map, hsome, List.filterMap_eq_map]
    _ = (ls.zipIdx.map Prod.fst).map fun line => (readStatement line).1.instruction := by
      simp only [List.map_map, Function.comp_def]
    _ = ls.map fun line => (readStatement line).1.instruction := by rw [List.zipIdx_map_fst]
    _ = is := by
      clear hsource
      induction h with
      | nil => rfl
      | cons hl _ ih =>
          obtain ⟨s, hs, hinstruction⟩ := hl.read
          rw [List.map_cons, hs, hinstruction, ih]

/-- Statements of no more instructions than a program may have assemble to their words. -/
theorem assemble_of_states {is : List Instruction} (hsource : source.toList = ['\n'].intercalate ls)
    (h : List.Forall₂ States ls is) (hlength : is.length ≤ maxStatements) :
    ∃ a, assemble source = .ok a ∧ a.words = is.map Instruction.encode := by
  have hsound : ∀ l ∈ (read source).lines, l.problem = none := by
    intro l hl
    obtain ⟨k, line, hline, rfl⟩ := (mem_lines_read_of_states hsource (exists_states h)).mp hl
    have hk : k < ls.length := (List.getElem?_eq_some_iff.mp hline).1
    exact problem_statedLine_eq_none_iff.mpr (by have := h.length_eq; omega)
  refine ⟨_, assemble_of_sound hsound, ?_⟩
  rw [← instructions_read_of_states hsource h, List.map_map]
  rfl

/-- Statements of more instructions are refused for the first one that is too many. -/
theorem assemble_of_states_of_lt (hsource : source.toList = ['\n'].intercalate ls)
    (h : ∀ l ∈ ls, ∃ i, States l i) (hlength : maxStatements < ls.length) :
    assemble source = .error (.badLine (maxStatements + 1) .programTooLong) := by
  have hexcess : statedLine (ls[maxStatements], maxStatements) ∈ (read source).lines :=
    (mem_lines_read_of_states hsource h).mpr ⟨_, _, List.getElem?_eq_getElem hlength, rfl⟩
  have hproblem : (statedLine (ls[maxStatements], maxStatements)).problem ≠ none :=
    fun hnone => Nat.lt_irrefl _ (problem_statedLine_eq_none_iff.mp hnone)
  cases hresult : assemble source with
  | ok a => exact absurd ((sound_of_assemble hresult).1 _ hexcess) hproblem
  | error error =>
      obtain ⟨l, hl, problem, hsome, rfl, hfirst⟩ := exists_first_of_assemble hresult
      obtain ⟨k, line, hline, rfl⟩ := (mem_lines_read_of_states hsource h).mp hl
      have hle : k + 1 ≤ maxStatements + 1 := hfirst _ hexcess hproblem
      have hge : ¬ k < maxStatements := fun hlt => by
        rw [problem_statedLine_eq_none_iff.mpr hlt] at hsome
        cases hsome
      obtain rfl : k = maxStatements := by omega
      obtain rfl : Problem.programTooLong = problem := by simpa [statedLine] using hsome
      rfl

end Texts

end CoreArena.Source
