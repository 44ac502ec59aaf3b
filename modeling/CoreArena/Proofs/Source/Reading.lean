import CoreArena.Proofs.Source.Statement
import CoreArena.Proofs.Text.Lines
import CoreArena.Source.Assembly
import Mathlib.Data.List.DropRight
import Mathlib.Data.List.Forall2

/-! # Lines and cells

The lines of a text that take a cell are those up to its last statement that are neither comments
nor descriptions. A text that has words has one for each of them, in order, and each decodes as the
instruction that was read from its line; a text without words has a line to blame:
`assembly_faithful`. -/

namespace CoreArena.Source

open Text

/-! ## Kinds of lines -/

/-- A line is neither a comment nor a description. -/
def takesCell (line : List Char) : Bool :=
  (trim line).head?.all fun c => c != '#' && c != '@'

/-- A line that takes a cell and is not blank. -/
def holdsStatement (line : List Char) : Bool :=
  takesCell line && !(trim line).isEmpty

/-- The lines of a text, with their numbers. -/
def numberedLines (source : String) : List (List Char × Nat) :=
  (lines source.toList).zipIdx 1

/-- The lines up to the last statement that take a cell, with their numbers. -/
def addressedLines (source : String) : List (List Char × Nat) :=
  ((numberedLines source).rdropWhile fun line => !holdsStatement line.1).filter
    fun line => takesCell line.1

/-- What was read from the line with a number. -/
def Reading.lineAt? (r : Reading) (number : Nat) : Option SourceLine :=
  r.lines.find? (·.number == number)

/-- A word decodes as the instruction that was read from a numbered line, and is the one that idles
if the line is blank. -/
def Reading.Assigns (r : Reading) (line : List Char × Nat) (w : Word) : Prop :=
  ∃ l s, r.lineAt? line.2 = some l ∧ l.text = trim line.1 ∧ l.content = .statement s ∧
    Instruction.decode w = s.instruction ∧ (trim line.1 = [] → w = Instruction.noop.encode)

/-! ## Single lines -/

/-- What there is to know of a line that was read, problems aside. -/
structure ReadFrom (line : List Char × Nat) (l : SourceLine) : Prop where
  number_eq : l.number = line.2
  text_eq : l.text = trim line.1
  isSome_statement? : l.statement?.isSome = takesCell line.1
  blank : trim line.1 = [] → l = .blank line.2
  expressible : l.problem = none → ∀ s, l.content = .statement s → s.instruction.Expressible

theorem ReadFrom.isStatement_eq {line : List Char × Nat} {l : SourceLine} (h : ReadFrom line l) :
    l.isStatement = holdsStatement line.1 := by
  rw [SourceLine.isStatement, h.text_eq, h.isSome_statement?, holdsStatement, Bool.and_comm]

theorem expressible_noop : Instruction.noop.Expressible :=
  ⟨nofun, Instruction.wellFormed_noop _⟩

/-- Reading a line keeps its number and its kind. -/
theorem readFrom_readLine (number statementsBefore : Nat) (line : List Char) :
    ReadFrom (line, number) (readLine number statementsBefore line) := by
  unfold readLine
  split
  · rename_i htext
    refine ⟨rfl, htext.symm, by simp [takesCell, htext, SourceLine.blank, SourceLine.statement?],
      fun _ => rfl, fun _ s hs => ?_⟩
    cases hs
    exact expressible_noop
  · rename_i cs htext
    refine ⟨rfl, htext.symm, by simp [takesCell, htext, SourceLine.statement?], ?_, nofun⟩
    simp [htext]
  · rename_i cs htext
    refine ⟨rfl, htext.symm, by simp [takesCell, htext, SourceLine.statement?, readDescription],
      ?_, nofun⟩
    simp [htext]
  · rename_i text hempty hcomment hdescription
    have hcell : takesCell line = true := by
      cases htext : trim line with
      | nil => exact absurd htext hempty
      | cons c cs =>
          have hc : c ≠ '#' := fun h => hcomment cs (h ▸ htext)
          have hc' : c ≠ '@' := fun h => hdescription cs (h ▸ htext)
          simp [takesCell, htext, hc, hc']
    refine ⟨rfl, rfl, hcell.symm, fun h => absurd h hempty, fun hproblem s hs => ?_⟩
    obtain ⟨hnone, -⟩ := Option.or_eq_none_iff.mp hproblem
    cases hs
    exact expressible_of_readStatement (Prod.ext rfl hnone)

theorem forall₂_readLines (number statementsBefore : Nat) (ls : List (List Char)) :
    List.Forall₂ ReadFrom (ls.zipIdx number) (readLines number statementsBefore ls) := by
  induction ls generalizing number statementsBefore with
  | nil => exact .nil
  | cons line ls ih => exact .cons (readFrom_readLine number statementsBefore line) (ih _ _)

theorem exists_readFrom_of_mem {number statementsBefore : Nat} {ls : List (List Char)}
    {l : SourceLine} (h : l ∈ readLines number statementsBefore ls) : ∃ line, ReadFrom line l := by
  have hall := forall₂_readLines number statementsBefore ls
  obtain ⟨k, hk, rfl⟩ := List.mem_iff_getElem.mp h
  exact ⟨_, hall.get (hall.length_eq ▸ hk) hk⟩

/-! ## Padding -/

section Padding

variable (l : SourceLine) (ls : List SourceLine)

theorem dropPadding_cons :
    dropPadding (l :: ls) =
      if l.isBlank && !(dropPadding ls).any (·.isStatement) then dropPadding ls
      else l :: dropPadding ls := rfl

theorem dropPadding_sublist : (dropPadding ls).Sublist ls := by
  induction ls with
  | nil => exact .slnil
  | cons l ls ih =>
      rw [dropPadding_cons]
      split
      · exact ih.cons l
      · exact ih.cons_cons l

theorem mem_dropPadding_or_isBlank {l : SourceLine} {ls : List SourceLine} (h : l ∈ ls) :
    l ∈ dropPadding ls ∨ l.isBlank = true := by
  induction ls with
  | nil => cases h
  | cons l' ls ih =>
      rw [dropPadding_cons]
      split
      · rename_i hdropped
        rcases List.mem_cons.mp h with rfl | h
        · exact .inr (Bool.and_eq_true_iff.mp hdropped).1
        · exact ih h
      · rcases List.mem_cons.mp h with rfl | h
        · exact .inl List.mem_cons_self
        · exact (ih h).imp_left (List.mem_cons_of_mem l')

theorem SourceLine.isBlank_or_isStatement :
    (l.isBlank || l.isStatement) = l.statement?.isSome := by
  cases h : l.text.isEmpty <;> simp [isBlank, isStatement, h]

theorem SourceLine.isStatement_eq_false_of_isBlank (h : l.isBlank = true) :
    l.isStatement = false := by
  simp_all [isBlank, isStatement]

theorem any_isStatement_dropPadding :
    (dropPadding ls).any (·.isStatement) = ls.any (·.isStatement) := by
  induction ls with
  | nil => rfl
  | cons l ls ih =>
      rw [dropPadding_cons]
      split
      · rename_i h
        have hblank := l.isStatement_eq_false_of_isBlank (Bool.and_eq_true_iff.mp h).1
        simp [hblank, ih]
      · simp [ih]

end Padding

theorem rdropWhile_append_of_exists {α : Type} {p : α → Bool} (as : List α) {bs : List α}
    (h : ∃ b ∈ bs, p b = false) : (as ++ bs).rdropWhile p = as ++ bs.rdropWhile p := by
  have hrest : bs.reverse.dropWhile p ≠ [] := by
    simpa [List.dropWhile_eq_nil_iff] using h
  simp [List.rdropWhile, List.dropWhile_append, hrest]

theorem rdropWhile_cons_of_exists {α : Type} {p : α → Bool} (a : α) {as : List α}
    (h : ∃ b ∈ as, p b = false) : (a :: as).rdropWhile p = a :: as.rdropWhile p :=
  rdropWhile_append_of_exists [a] h

theorem rdropWhile_cons_of_forall {α : Type} {p : α → Bool} (a : α) {as : List α}
    (h : ∀ b ∈ as, p b = true) : (a :: as).rdropWhile p = if p a then [] else [a] := by
  have hrest : as.reverse.dropWhile p = [] := by
    simpa [List.dropWhile_eq_nil_iff] using h
  cases ha : p a <;> simp [List.rdropWhile, List.dropWhile_append, hrest, ha]

/-- What is left behind the last statement takes no cell. -/
theorem dropPadding_eq_append (ls : List SourceLine) :
    ∃ rest, dropPadding ls = (ls.rdropWhile fun l => !l.isStatement) ++ rest ∧
      ∀ l ∈ rest, l.statement? = none := by
  induction ls with
  | nil => exact ⟨[], rfl, nofun⟩
  | cons l ls ih =>
      obtain ⟨rest, heq, hrest⟩ := ih
      rw [dropPadding_cons, any_isStatement_dropPadding]
      by_cases hany : ∃ b ∈ ls, b.isStatement = true
      · have htrue : ls.any (·.isStatement) = true := by simpa using hany
        rw [rdropWhile_cons_of_exists l (by simpa using hany), htrue]
        exact ⟨rest, by simp [heq], hrest⟩
      · have hfalse : ls.any (·.isStatement) = false := by simpa using hany
        have hnone : ∀ b ∈ ls, (!b.isStatement) = true := by simpa using hany
        rw [List.rdropWhile_eq_nil_iff.mpr hnone, List.nil_append] at heq
        rw [rdropWhile_cons_of_forall l hnone, hfalse, heq]
        have hcell := l.isBlank_or_isStatement
        cases hl : l.isStatement with
        | true =>
            have hblank : l.isBlank = false := by
              by_contra hblank
              simp [l.isStatement_eq_false_of_isBlank (by simpa using hblank)] at hl
            exact ⟨rest, by simp [hblank], hrest⟩
        | false =>
            cases hblank : l.isBlank with
            | true => exact ⟨rest, by simp, hrest⟩
            | false =>
                rw [hblank, hl] at hcell
                refine ⟨l :: rest, by simp, ?_⟩
                simpa using ⟨by simpa using hcell.symm, hrest⟩

theorem forall₂_dropWhile {α β : Type} {R : α → β → Prop} {p : α → Bool} {q : β → Bool}
    (hpq : ∀ a b, R a b → p a = q b) {as : List α} {bs : List β} (h : List.Forall₂ R as bs) :
    List.Forall₂ R (as.dropWhile p) (bs.dropWhile q) := by
  induction h with
  | nil => exact .nil
  | @cons a b as bs hab hrest ih =>
      rw [List.dropWhile_cons, List.dropWhile_cons, hpq a b hab]
      split
      · exact ih
      · exact .cons hab hrest

theorem forall₂_rdropWhile {α β : Type} {R : α → β → Prop} {p : α → Bool} {q : β → Bool}
    (hpq : ∀ a b, R a b → p a = q b) {as : List α} {bs : List β} (h : List.Forall₂ R as bs) :
    List.Forall₂ R (as.rdropWhile p) (bs.rdropWhile q) :=
  List.forall₂_reverse_iff.mpr (forall₂_dropWhile hpq (List.forall₂_reverse_iff.mpr h))

/-! ## Readings -/

theorem ReadFrom.assigns {r : Reading} {line : List Char × Nat} {l : SourceLine} {s : Statement}
    (h : ReadFrom line l) (hline : r.lineAt? l.number = some l) (hproblem : l.problem = none)
    (hs : l.content = .statement s) : r.Assigns line s.instruction.encode := by
  have hform := (h.expressible hproblem s hs).wellFormed.mono (by decide : Operand.maxDepth ≤ 3)
  refine ⟨l, s, h.number_eq ▸ hline, h.text_eq, hs, Instruction.decode_encode hform, ?_⟩
  intro hblank
  rw [h.blank hblank] at hs
  cases hs
  rfl

theorem SourceLine.content_of_statement? {l : SourceLine} {s : Statement}
    (h : l.statement? = some s) : l.content = .statement s := by
  unfold statement? at h
  split at h
  · rename_i hcontent
    cases h
    exact hcontent
  · cases h

/-- Lines that are read without problems give one word for each that takes a cell. -/
theorem forall₂_assigns {r : Reading} {as : List (List Char × Nat)} {ls : List SourceLine}
    (h : List.Forall₂ ReadFrom as ls)
    (hls : ∀ l ∈ ls, r.lineAt? l.number = some l ∧ l.problem = none) :
    List.Forall₂ r.Assigns (as.filter fun line => takesCell line.1)
      ((ls.filterMap SourceLine.statement?).map fun s => s.instruction.encode) := by
  induction h with
  | nil => exact .nil
  | @cons line l as ls hread _ ih =>
      have hrest := ih fun l hl => hls l (List.mem_cons_of_mem _ hl)
      have hcell := hread.isSome_statement?
      cases hs : l.statement? with
      | none =>
          rw [hs] at hcell
          rw [List.filter_cons_of_neg (by simp [← hcell]), List.filterMap_cons_none hs]
          exact hrest
      | some s =>
          obtain ⟨hline, hproblem⟩ := hls l List.mem_cons_self
          rw [hs] at hcell
          rw [List.filter_cons_of_pos (by simp [← hcell]), List.filterMap_cons_some hs]
          exact .cons (hread.assigns hline hproblem (SourceLine.content_of_statement? hs)) hrest

section Readings

variable {source : String}

theorem map_number_of_forall₂ {as : List (List Char × Nat)} {ls : List SourceLine}
    (h : List.Forall₂ ReadFrom as ls) : ls.map SourceLine.number = as.map Prod.snd := by
  induction h with
  | nil => rfl
  | cons hread _ ih => simp [hread.number_eq, ih]

/-- The lines of a reading are numbered in ascending order. -/
theorem pairwise_lines (source : String) :
    (read source).lines.Pairwise fun l l' => l.number < l'.number := by
  have hnumbers := map_number_of_forall₂ (forall₂_readLines 1 0 (lines source.toList))
  rw [List.zipIdx_map_snd] at hnumbers
  have hall : (readLines 1 0 (lines source.toList)).Pairwise fun l l' => l.number < l'.number := by
    rw [← List.pairwise_map (R := (· < ·)), hnumbers]
    exact List.pairwise_lt_range' 1
  exact hall.sublist (dropPadding_sublist _)

theorem lineAt?_of_mem {l : SourceLine} (h : l ∈ (read source).lines) :
    (read source).lineAt? l.number = some l := by
  obtain ⟨front, back, hlines⟩ := List.append_of_mem h
  have hpairwise := pairwise_lines source
  rw [hlines, List.pairwise_append] at hpairwise
  refine List.find?_eq_some_iff_append.mpr ⟨by simp, front, back, hlines, fun l' hl' => ?_⟩
  have hlt := hpairwise.2.2 l' hl' l List.mem_cons_self
  simp [Nat.ne_of_lt hlt]

theorem exists_readFrom {l : SourceLine} (h : l ∈ (read source).lines) :
    ∃ line, ReadFrom line l :=
  exists_readFrom_of_mem ((dropPadding_sublist _).subset h)

theorem problems_eq_nil_iff :
    (read source).problems = [] ↔ ∀ l ∈ (read source).lines, l.problem = none := by
  simp [Reading.problems, List.filterMap_eq_nil_iff]

theorem mem_problems_iff {p : Nat × Problem} :
    p ∈ (read source).problems ↔
      ∃ l ∈ (read source).lines, l.problem = some p.2 ∧ l.number = p.1 := by
  obtain ⟨number, problem⟩ := p
  simp [Reading.problems]

theorem pairwise_problems (source : String) :
    (read source).problems.Pairwise fun p p' => p.1 < p'.1 := by
  refine List.Pairwise.filterMap _ (fun l l' hlt p hp p' hp' => ?_) (pairwise_lines source)
  obtain ⟨_, -, rfl⟩ := Option.map_eq_some_iff.mp hp
  obtain ⟨_, -, rfl⟩ := Option.map_eq_some_iff.mp hp'
  exact hlt

end Readings

/-! ## Assembly -/

deriving instance DecidableEq for Assembled

section Assembly

variable {source : String}

theorem assemble_of_sound (h : ∀ l ∈ (read source).lines, l.problem = none) :
    assemble source = .ok ⟨(read source).statements.map fun s => s.instruction.encode,
      (read source).descriptions⟩ := by
  unfold assemble Reading.assemble
  rw [problems_eq_nil_iff.mpr h]

theorem sound_of_assemble {a : Assembled} (h : assemble source = .ok a) :
    (∀ l ∈ (read source).lines, l.problem = none) ∧
      a = ⟨(read source).statements.map fun s => s.instruction.encode,
        (read source).descriptions⟩ := by
  unfold assemble Reading.assemble at h
  split at h
  · cases h
  · rename_i hproblems
    cases h
    exact ⟨problems_eq_nil_iff.mp hproblems, rfl⟩

/-- An assembly that fails names the first line with a problem. -/
theorem exists_first_of_assemble {error : AssemblyError} (h : assemble source = .error error) :
    ∃ l ∈ (read source).lines, ∃ problem, l.problem = some problem ∧
      error = .badLine l.number problem ∧
      ∀ l' ∈ (read source).lines, l'.problem ≠ none → l.number ≤ l'.number := by
  unfold assemble Reading.assemble at h
  split at h
  · rename_i number problem rest hproblems
    cases h
    have hmem := mem_problems_iff.mp (hproblems ▸ List.mem_cons_self)
    obtain ⟨l, hl, hproblem, rfl⟩ := hmem
    refine ⟨l, hl, problem, hproblem, rfl, fun l' hl' hsome => ?_⟩
    obtain ⟨problem', hproblem'⟩ := Option.ne_none_iff_exists'.mp hsome
    have hmem' : (l'.number, problem') ∈ (read source).problems :=
      mem_problems_iff.mpr ⟨l', hl', hproblem', rfl⟩
    have hpairwise := pairwise_problems source
    rw [hproblems] at hmem' hpairwise
    rcases List.mem_cons.mp hmem' with heq | hrest
    · exact Nat.le_of_eq (congrArg Prod.fst heq).symm
    · exact Nat.le_of_lt (List.rel_of_pairwise_cons hpairwise hrest)
  · cases h

/-- The words of a text stand for statements and hold nothing besides. -/
theorem expressible_of_assemble {a : Assembled} (h : assemble source = .ok a) :
    ∀ w ∈ a.words, (Instruction.decode w).Expressible ∧ (Instruction.decode w).encode = w := by
  obtain ⟨hsound, rfl⟩ := sound_of_assemble h
  intro w hw
  obtain ⟨s, hs, rfl⟩ := List.mem_map.mp hw
  obtain ⟨l, hl, hstatement⟩ := List.mem_filterMap.mp hs
  obtain ⟨line, hread⟩ := exists_readFrom hl
  have hexpressible := hread.expressible (hsound l hl) s
    (SourceLine.content_of_statement? hstatement)
  have hdecode : Instruction.decode s.instruction.encode = s.instruction :=
    Instruction.decode_encode (hexpressible.wellFormed.mono (by decide : Operand.maxDepth ≤ 3))
  rw [hdecode]
  exact ⟨hexpressible, rfl⟩

/-- The words of a text without problems are those of its lines that take a cell. -/
theorem forall₂_addressedLines (h : ∀ l ∈ (read source).lines, l.problem = none) :
    List.Forall₂ (read source).Assigns (addressedLines source)
      ((read source).statements.map fun s => s.instruction.encode) := by
  obtain ⟨rest, hlines, hrest⟩ := dropPadding_eq_append (readLines 1 0 (lines source.toList))
  have hread : List.Forall₂ ReadFrom (numberedLines source)
      (readLines 1 0 (lines source.toList)) := forall₂_readLines 1 0 _
  have hupTo := forall₂_rdropWhile (p := fun line => !holdsStatement line.1)
    (q := fun l => !l.isStatement) (fun _ _ h => congrArg not h.isStatement_eq.symm) hread
  have hstatements : (read source).statements =
      ((readLines 1 0 (lines source.toList)).rdropWhile fun l => !l.isStatement).filterMap
        SourceLine.statement? := by
    show (dropPadding _).filterMap _ = _
    rw [hlines, List.filterMap_append, List.filterMap_eq_nil_iff.mpr hrest, List.append_nil]
  rw [hstatements]
  refine forall₂_assigns hupTo fun l hl => ?_
  have hmem : l ∈ (read source).lines := by
    show l ∈ dropPadding _
    rw [hlines]
    exact List.mem_append_left rest hl
  exact ⟨lineAt?_of_mem hmem, h l hmem⟩

end Assembly

/-! ## Texts of a single line -/

section Single

variable {text : List Char}

theorem holdsStatement_of_head?_trim
    (h : (trim text).head?.any fun c => c != '#' && c != '@') : holdsStatement text = true := by
  cases htext : trim text with
  | nil => simp [htext] at h
  | cons c cs => simpa [holdsStatement, takesCell, htext] using h

/-- A line that holds a statement is read as that statement. -/
theorem readLine_of_holdsStatement (h : holdsStatement text = true) (number : Nat) :
    readLine number 0 text = ⟨number, trim text, .statement (readStatement (trim text)).1,
      (readStatement (trim text)).2⟩ := by
  simp only [holdsStatement, takesCell, Bool.and_eq_true] at h
  unfold readLine
  split
  · rename_i htext
    simp [htext] at h
  · rename_i htext
    simp [htext] at h
  · rename_i htext
    simp [htext] at h
  · have hroom : 0 < maxStatements := by decide
    simp [hroom]

theorem lines_read_single (hlf : '\n' ∉ text) (h : holdsStatement text = true) :
    (read (String.ofList text)).lines =
      [⟨1, trim text, .statement (readStatement (trim text)).1,
        (readStatement (trim text)).2⟩] := by
  have htrim : trim text ≠ [] := by
    intro hnil
    simp [holdsStatement, hnil] at h
  have hne : text ≠ [] := by
    rintro rfl
    exact htrim rfl
  show dropPadding (readLines 1 0 (lines (String.ofList text).toList)) = _
  rw [String.toList_ofList, lines_of_no_lineFeed hne hlf, readLines,
    readLine_of_holdsStatement h, readLines, dropPadding_cons]
  simp [SourceLine.isBlank, htrim, dropPadding]

/-- A text that is a single statement has one word or the problem of the statement. -/
theorem assemble_single (hlf : '\n' ∉ text) (h : holdsStatement text = true) :
    assemble (String.ofList text) = match readStatement (trim text) with
      | (s, none) => .ok ⟨[s.instruction.encode], []⟩
      | (_, some problem) => .error (.badLine 1 problem) := by
  have hlines := lines_read_single hlf h
  cases hread : readStatement (trim text) with
  | mk s problem =>
      rw [hread] at hlines
      cases problem with
      | none => simp [assemble, Reading.assemble, Reading.problems, Reading.statements,
          Reading.descriptions, hlines, SourceLine.statement?, SourceLine.description?]
      | some problem => simp [assemble, Reading.assemble, Reading.problems, hlines]

end Single

/-- A text that has words has one for each line up to its last statement that is no comment and no
description, in order, and each word decodes as the instruction read from its line. A text has no
words exactly if some line has a problem, and then the first such line is named. -/
theorem assembly_faithful (source : String) :
    (∀ a, assemble source = .ok a → ∃ ws, Bytecode.decode? a.bytecode = some ws ∧
      List.Forall₂ (read source).Assigns (addressedLines source) ws) ∧
    ((∃ error, assemble source = .error error) ↔ ∃ l ∈ (read source).lines, l.problem ≠ none) ∧
    ∀ error, assemble source = .error error →
      ∃ l ∈ (read source).lines, ∃ problem, l.problem = some problem ∧
        error = .badLine l.number problem ∧
        ∀ l' ∈ (read source).lines, l'.problem ≠ none → l.number ≤ l'.number := by
  refine ⟨fun a ha => ?_, ⟨?_, ?_⟩, fun _ => exists_first_of_assemble⟩
  · obtain ⟨hsound, rfl⟩ := sound_of_assemble ha
    exact ⟨_, Bytecode.decode?_encode _, forall₂_addressedLines hsound⟩
  · rintro ⟨error, herror⟩
    obtain ⟨l, hl, problem, hproblem, -⟩ := exists_first_of_assemble herror
    exact ⟨l, hl, by simp [hproblem]⟩
  · rintro ⟨l, hl, hproblem⟩
    cases h : assemble source with
    | error error => exact ⟨error, rfl⟩
    | ok a => exact absurd ((sound_of_assemble h).1 l hl) hproblem

theorem assembly_faithful_idle :
    assemble "@name x\n\n# idle\n nop\n\n" =
        .ok ⟨[Instruction.noop.encode, Instruction.noop.encode], [("name", "x")]⟩ ∧
      addressedLines "@name x\n\n# idle\n nop\n\n" = [([], 2), ([' ', 'n', 'o', 'p'], 4)] ∧
      (∃ ws, Bytecode.decode? (Bytecode.encode
          [Instruction.noop.encode, Instruction.noop.encode]) = some ws ∧
        List.Forall₂ (read "@name x\n\n# idle\n nop\n\n").Assigns
          (addressedLines "@name x\n\n# idle\n nop\n\n") ws) ∧
      assemble "nop\ncopy\nhalt" = .error (.badLine 2 (.missingArgument "copy")) ∧
      ∃ l ∈ (read "nop\ncopy\nhalt").lines, ∃ problem, l.problem = some problem ∧
        AssemblyError.badLine 2 (.missingArgument "copy") = .badLine l.number problem ∧
        ∀ l' ∈ (read "nop\ncopy\nhalt").lines, l'.problem ≠ none → l.number ≤ l'.number := by
  have hidle : assemble "@name x\n\n# idle\n nop\n\n" =
      .ok ⟨[Instruction.noop.encode, Instruction.noop.encode], [("name", "x")]⟩ := by rfl
  have hcopy : assemble "nop\ncopy\nhalt" = .error (.badLine 2 (.missingArgument "copy")) := by
    rfl
  exact ⟨hidle, by decide +kernel, (assembly_faithful _).1 _ hidle, hcopy,
    (assembly_faithful _).2.2 _ hcopy⟩

end CoreArena.Source
