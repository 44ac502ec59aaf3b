import CoreArena.Proofs.Admission.SelfCopy
import CoreArena.Proofs.Source.Sequence
import CoreArena.Proofs.World.Draw
import CoreArena.World.Bystander

/-! # What is made up

Every line of a bystander states an instruction that does not take the word of its own cell, and
there are at most seven of them. So the text assembles and passes the content filter, whatever is
drawn: `always_generate`. -/

namespace CoreArena

/-! ## Numbers in texts -/

theorem Text.toList_toString (n : Nat) : (toString n).toList = numeral n := by
  have hdigit : ∀ d < 10, Nat.digitChar d = digitChar d := by decide
  rw [Nat.toString_eq_ofList_toDigits, String.toList_ofList]
  fun_induction numeral n with
  | case1 n h => rw [Nat.toDigits_of_lt_base h, hdigit n h]
  | case2 n h ih =>
      rw [Nat.toDigits_eq_if (by decide), if_neg h, ih, hdigit _ (Nat.mod_lt n (by decide))]

namespace Operand

theorem text_direct (n : Nat) : (direct n).text = (toString n).toList := by
  rw [Text.toList_toString]
  rfl

theorem text_direct_neg {n : Nat} (h : 0 < n) :
    (direct (-n)).text = '-' :: (toString n).toList := by
  obtain ⟨m, rfl⟩ := Nat.exists_eq_succ_of_ne_zero (Nat.ne_of_gt h)
  rw [Text.toList_toString]
  rfl

theorem within_direct {v : Int} (h : InRange v) : (direct v).Within maxDepth :=
  ⟨Nat.zero_le _, h⟩

end Operand

namespace Bystander

open Source Text

/-! ## Lines -/

/-- A line of a bystander states an instruction that does not take the word of its own cell, and
data only in a suicidal one. -/
def IsFair (allowSuicidal : Bool) (line : String) : Prop :=
  ∃ i, States line.toList i ∧ (i.operation = .data → allowSuicidal = true) ∧
    ∀ distance, ¬ i.CopiesItself distance

section Lines

variable {allowSuicidal : Bool} {line : String}

/-- A word is not stored by an instruction whose first operand is another number than zero. -/
theorem not_copiesItself {op : Operation} {first second : Operand} (h : first.value ≠ 0)
    (distance : Int) : ¬ Instruction.CopiesItself ⟨op, some first, some second⟩ distance := by
  rintro ⟨⟩ <;> exact h rfl

/-- Two numbers joined by a link, the first of them not zero. -/
theorem isFair_joined (keyword link : String) (op : Operation) (first second : Int)
    (hphrases : ∃ k ∈ keywords, k.phrase = keyword ∧
      ∃ l ∈ k.shape.links, l.phrase = link ∧ l.operation = op)
    (hop : op ≠ .data) (hfirst : Operand.InRange first ∧ first ≠ 0)
    (hsecond : Operand.InRange second)
    (hline : line.toList = keyword.toList ++ ' ' :: ((Operand.direct first).text ++
      ' ' :: (link.toList ++ (Operand.direct second).text))) :
    IsFair allowSuicidal line := by
  obtain ⟨k, hk, rfl, l, hl, rfl, rfl⟩ := hphrases
  refine ⟨⟨l.operation, some (.direct first), some (.direct second)⟩, ?_,
    fun hdata => absurd hdata hop, not_copiesItself hfirst.2⟩
  rw [hline]
  have hwording := Wording.binary hk hl (Operand.within_direct hfirst.1)
    (Operand.within_direct hsecond)
  exact hwording.states

theorem isFair_jump (keyword : String) (hkeyword : ⟨keyword, .unary .jump⟩ ∈ keywords) {n : Nat}
    (hpos : 0 < n) (hle : n ≤ 2048)
    (hline : line.toList = keyword.toList ++ ' ' :: '-' :: (toString n).toList) :
    IsFair allowSuicidal line := by
  have hwithin : (Operand.direct (-n)).Within Operand.maxDepth :=
    Operand.within_direct (Operand.inRange_iff.mpr (by omega))
  refine ⟨⟨.jump, some (.direct (-n)), none⟩, ?_, ?_, ?_⟩
  · rw [hline, ← Operand.text_direct_neg hpos]
    exact (Wording.unary hkeyword rfl (by decide) hwithin).states
  · rintro ⟨⟩
  · rintro distance ⟨⟩

variable {n : Nat}

theorem isFair_goTo (hpos : 0 < n) (hle : n ≤ 2048) : IsFair allowSuicidal s!"go to -{n}" :=
  isFair_jump "go to" (by decide) hpos hle String.toList_append

theorem isFair_write (hpos : 0 < n) (hle : n ≤ 2048) :
    IsFair allowSuicidal s!"write -999 at -{n}" := by
  refine isFair_joined "write" "at " .write (-(999 : Nat)) (-n) (by decide) (by decide) (by decide)
    (Operand.inRange_iff.mpr (by omega)) ?_
  rw [Operand.text_direct_neg (by decide), Operand.text_direct_neg hpos]
  exact String.toList_append

theorem isFair_copy (hle : n ≤ 2047) : IsFair allowSuicidal s!"copy 1 to {n}" := by
  refine isFair_joined "copy" "to " .copy (1 : Nat) n (by decide) (by decide) (by decide)
    (Operand.inRange_iff.mpr (by omega)) ?_
  rw [Operand.text_direct, Operand.text_direct]
  exact String.toList_append

theorem isFair_copyBack (hpos : 0 < n) (hle : n ≤ 2048) :
    IsFair allowSuicidal s!"copy 2 to -{n}" := by
  refine isFair_joined "copy" "to " .copy (2 : Nat) (-n) (by decide) (by decide) (by decide)
    (Operand.inRange_iff.mpr (by omega)) ?_
  rw [Operand.text_direct, Operand.text_direct_neg hpos]
  exact String.toList_append

theorem isFair_count (hpos : 0 < n) (hle : n ≤ 2048) :
    IsFair allowSuicidal s!"add 1 to the value at -{n}" := by
  refine isFair_joined "add" "to the value at " .add (1 : Nat) (-n) (by decide) (by decide)
    (by decide) (Operand.inRange_iff.mpr (by omega)) ?_
  rw [Operand.text_direct, Operand.text_direct_neg hpos]
  exact String.toList_append

theorem isFair_add (hpos : 0 < n) (hle : n ≤ 2047) : IsFair allowSuicidal s!"add {n} to 10" := by
  refine isFair_joined "add" "to " .add n (10 : Nat) (by decide) (by decide)
    ⟨Operand.inRange_iff.mpr (by omega), by omega⟩ (by decide) ?_
  rw [Operand.text_direct, Operand.text_direct, String.toList_append, String.toList_append,
    List.append_assoc]
  rfl

/-- No wording spells an indicator of its second operand in words, so this line is read as it is. -/
theorem isFair_bomb : IsFair allowSuicidal "copy 3 to the address specified at 9" := by
  refine ⟨⟨.copy, some (.direct 3), some ⟨1, 9⟩⟩, ?_, ?_, not_copiesItself (by decide)⟩
  · refine ⟨by decide +kernel, by decide +kernel, by decide +kernel, ?_⟩
    exact ⟨⟨.copy, [.direct 3, ⟨1, 9⟩], "copy", some "to"⟩, by decide +kernel, rfl⟩
  · rintro ⟨⟩

theorem isFair_three : IsFair allowSuicidal "add 1 to 3" :=
  isFair_joined "add" "to " .add 1 3 (by decide) (by decide) (by decide) (by decide)
    (by decide +kernel)

theorem isFair_back : IsFair allowSuicidal "jump -2" :=
  isFair_jump "jump" (by decide) (n := 2) (by decide) (by decide) (by decide +kernel)

theorem isFair_data : IsFair true "data 0" := by
  refine ⟨⟨.data, some .zero, some (.direct 0)⟩, ?_, fun _ => rfl, ?_⟩
  · refine ⟨by decide +kernel, by decide +kernel, by decide +kernel, ?_⟩
    exact ⟨⟨.data, [.zero, .direct 0], "data", none⟩, by decide +kernel, rfl⟩
  · rintro distance ⟨⟩

theorem spells_looked_up : Spells indicators "the value at 2".toList ⟨1, 2⟩ := by
  have htext : "the value at 2".toList = "the value at ".toList ++ ([] ++ ([] ++ ['2'])) := by
    decide
  rw [htext]
  exact .indicator (by decide) .nil
    (.number (.intro (by decide) (by decide) (List.all_eq_true.mp rfl)))

/-- The first operand is looked up in words, which is derivable but no wording. -/
theorem isFair_skip (hle : n ≤ 2047) :
    IsFair allowSuicidal s!"skip if the value at 2 equals {n}" := by
  have hblank : Blanks [' '] := by decide
  have hn : (Operand.direct n).Within Operand.maxDepth :=
    Operand.within_direct (Operand.inRange_iff.mpr (by omega))
  obtain ⟨k, hk, hphrase, l, hl, hlink, hop⟩ : ∃ k ∈ keywords, k.phrase = "skip if" ∧
      ∃ l ∈ k.shape.links, l.phrase = "equals " ∧ l.operation = .skipIfEqual := by
    decide
  have hjoins : Sentence.Joins ["*"]
      ⟨k, [' '], "the value at 2".toList, [' '], l, [], (Operand.direct n).text⟩
      ⟨1, 2⟩ (.direct n) :=
    ⟨hk, hl, ⟨hblank, nofun⟩, spells_looked_up, hblank, .nil, spells_text (by decide) _⟩
  have hderivation := Derivation.binary hjoins (by decide) hn
  rw [Sentence.text, Sentence.tail, hphrase, hlink] at hderivation
  replace hderivation : Derivation ["*"]
      ("skip if the value at 2 equals ".toList ++ (Operand.direct n).text) _ := hderivation
  have hline : s!"skip if the value at 2 equals {n}".toList =
      "skip if the value at 2 equals ".toList ++ (Operand.direct n).text := by
    rw [Operand.text_direct]
    exact String.toList_append
  refine ⟨⟨l.operation, some ⟨1, 2⟩, some (.direct n)⟩, ?_, ?_, not_copiesItself (by decide)⟩
  · rw [hline]
    exact hderivation.states (by decide +kernel) (by decide +kernel)
  · rw [hop]
    rintro ⟨⟩

end Lines

/-! ## Draws -/

/-- One to seven lines, all of them fair. -/
structure IsWellMade (allowSuicidal : Bool) (lines : List String) : Prop where
  ne_nil : lines ≠ []
  length_le : lines.length ≤ 7
  fair : ∀ line ∈ lines, IsFair allowSuicidal line

section Draws

variable {γ : Type} [RandomSource γ]

theorem always_wall (allowSuicidal : Bool) :
    Draw.Always (wall (γ := γ)) (IsWellMade allowSuicidal) := by
  refine (Draw.always_between (by decide)).bind fun length hlength => Draw.always_pure ?_
  refine ⟨by simp, by simp; omega, ?_⟩
  intro line hline
  rcases List.mem_append.mp hline with hline | hline
  · obtain ⟨i, hi, rfl⟩ := List.mem_map.mp hline
    have := List.mem_range.mp hi
    exact isFair_write (Nat.succ_pos i) (by omega)
  · rw [List.mem_singleton.mp hline]
    exact isFair_goTo (by omega) (by omega)

theorem always_scatter (allowSuicidal : Bool) (left : Nat) :
    Draw.Always (scatter (γ := γ) left) fun lines =>
      lines.length ≤ left ∧ ∀ line ∈ lines, IsFair allowSuicidal line := by
  induction left with
  | zero =>
      exact (Draw.always_true _).bind fun _ _ => Draw.always_pure ⟨Nat.le_refl 0, by simp⟩
  | succ left ih =>
      unfold scatter
      refine (Draw.always_true _).bind fun above _ => ?_
      split
      · refine (Draw.always_between (by decide)).bind fun target htarget => ?_
        refine ih.bind fun rest hrest => Draw.always_pure ⟨Nat.succ_le_succ hrest.1, ?_⟩
        exact List.forall_mem_cons.mpr ⟨isFair_copy (by omega), hrest.2⟩
      · exact Draw.always_pure ⟨Nat.zero_le _, by simp⟩

/-- The loop that adds one line for each draw above a threshold and raises the threshold by a
quarter each time, at most so often. -/
def scatterAbove (quarters : Nat) : Nat → Draw γ (List String)
  | 0 => return []
  | tries + 1 => do
    if ← Draw.aboveQuarters quarters then
      let target ← Draw.between 5 8
      let rest ← scatterAbove (quarters + 1) tries
      return s!"copy 1 to {target}" :: rest
    else
      return []

/-- The loop ends by itself: no draw is above four quarters. -/
theorem scatterAbove_eq {left tries : Nat} (hleft : left ≤ 4) (htries : left < tries) :
    scatterAbove (γ := γ) (4 - left) tries = scatter left := by
  induction left generalizing tries with
  | zero =>
      obtain ⟨tries, rfl⟩ := Nat.exists_eq_succ_of_ne_zero (Nat.ne_of_gt htries)
      funext g
      have hlow : (Draw.aboveQuarters (γ := γ) 4 g).1 = false := Draw.always_aboveQuarters_four g
      show (if (Draw.aboveQuarters 4 g).1 = true then _ else _ : Draw γ (List String)) _ = _
      rw [hlow]
      rfl
  | succ left ih =>
      obtain ⟨tries, rfl⟩ := Nat.exists_eq_succ_of_ne_zero (Nat.ne_of_gt (Nat.zero_lt_of_lt htries))
      have hnext : 4 - (left + 1) + 1 = 4 - left := by omega
      rw [scatterAbove, scatter, hnext, ih (by omega) (by omega)]

/-- What a bomber copies, and where to. -/
def bomb (allowSuicidal : Bool) : Draw γ String := do
  if ← Draw.chance oneInTwo then
    return "copy 3 to the address specified at 9"
  else
    let distance ← if allowSuicidal then Draw.between 1 10 else Draw.between 10 12
    return s!"copy 2 to -{distance}"

/-- What a bomber does besides. -/
def besides : Draw γ (List String) := do
  if ← Draw.chance oneInTwo then
    return [s!"add 1 to the value at -{← Draw.between 3 4}"]
  else
    scatter 4

theorem besides_bind {α : Type} (f : List String → Draw γ α) :
    (do
      if ← Draw.chance oneInTwo then
        let distance ← Draw.between 3 4
        f [s!"add 1 to the value at -{distance}"]
      else
        let rest ← scatter 4
        f rest) = besides >>= f := by
  refine (bind_congr fun half => ?_).trans (bind_assoc ..).symm
  cases half <;> rfl

/-- A bomber counts, copies, does something besides and starts again. -/
theorem bomber_eq (allowSuicidal : Bool) :
    bomber (γ := γ) allowSuicidal = do
      let n ← Draw.between 117 263
      let bomb ← bomb allowSuicidal
      let rest ← besides
      let body := s!"add {n} to 10" :: bomb :: rest
      return body ++ [s!"go to -{body.length}"] := by
  unfold bomber bomb
  refine bind_congr fun n => (bind_congr fun half => ?_).trans (bind_assoc ..).symm
  cases half with
  | true => exact besides_bind _
  | false =>
      cases allowSuicidal with
      | true => exact bind_congr fun distance => besides_bind _
      | false => exact bind_congr fun distance => besides_bind _

theorem always_bomb (allowSuicidal : Bool) :
    Draw.Always (bomb (γ := γ) allowSuicidal) (IsFair allowSuicidal) := by
  unfold bomb
  refine (Draw.always_true _).bind fun half _ => ?_
  cases half with
  | true => exact Draw.always_pure isFair_bomb
  | false =>
      cases allowSuicidal with
      | true =>
          refine (Draw.always_between (by decide)).bind fun distance hdistance => ?_
          exact Draw.always_pure (isFair_copyBack (by omega) (by omega))
      | false =>
          refine (Draw.always_between (by decide)).bind fun distance hdistance => ?_
          exact Draw.always_pure (isFair_copyBack (by omega) (by omega))

theorem always_besides (allowSuicidal : Bool) :
    Draw.Always (besides (γ := γ)) fun lines =>
      lines.length ≤ 4 ∧ ∀ line ∈ lines, IsFair allowSuicidal line := by
  unfold besides
  refine (Draw.always_true _).bind fun half _ => ?_
  cases half with
  | true =>
      refine (Draw.always_between (by decide)).bind fun distance hdistance => Draw.always_pure ?_
      exact ⟨by simp, List.forall_mem_singleton.mpr (isFair_count (by omega) (by omega))⟩
  | false => exact always_scatter allowSuicidal 4

theorem always_bomber (allowSuicidal : Bool) :
    Draw.Always (bomber (γ := γ) allowSuicidal) (IsWellMade allowSuicidal) := by
  rw [bomber_eq]
  refine (Draw.always_between (by decide)).bind fun n hn => ?_
  refine (always_bomb allowSuicidal).bind fun bomb hbomb => ?_
  refine (always_besides allowSuicidal).bind fun rest hrest => Draw.always_pure ?_
  obtain ⟨hlength, hfair⟩ := hrest
  refine ⟨List.cons_ne_nil _ _, by simp; omega, ?_⟩
  refine List.forall_mem_append.mpr ⟨?_, List.forall_mem_singleton.mpr (isFair_goTo ?_ ?_)⟩
  · exact List.forall_mem_cons.mpr
      ⟨isFair_add (by omega) (by omega), List.forall_mem_cons.mpr ⟨hbomb, hfair⟩⟩
  · simp
  · simp
    omega

theorem always_suicidal : Draw.Always (suicidal (γ := γ)) (IsWellMade true) := by
  refine (Draw.always_between (by decide)).bind fun limit hlimit => Draw.always_pure ?_
  refine ⟨List.cons_ne_nil _ _, by simp, ?_⟩
  simp only [List.forall_mem_cons]
  exact ⟨isFair_three, isFair_skip (by omega), isFair_back, isFair_data, by simp⟩

theorem always_lines (allowSuicidal : Bool) :
    Draw.Always (lines (γ := γ) allowSuicidal) (IsWellMade allowSuicidal) := by
  have hharmless : Draw.Always (γ := γ)
      (do if ← Draw.chance fourInTen then wall else bomber allowSuicidal)
      (IsWellMade allowSuicidal) := by
    refine (Draw.always_true _).bind fun built _ => ?_
    cases built with
    | true => exact always_wall allowSuicidal
    | false => exact always_bomber allowSuicidal
  cases allowSuicidal with
  | false => exact hharmless
  | true =>
      refine (Draw.always_true _).bind fun harmless _ => ?_
      cases harmless with
      | true => exact hharmless
      | false => exact always_suicidal

end Draws

/-! ## Words -/

/-- What the words of a bystander are: few, none of them data in a harmless one, and none that the
content filter objects to. -/
structure IsAdmissible (allowSuicidal : Bool) (a : Assembled) : Prop where
  length_pos : 1 ≤ a.words.length
  length_le : a.words.length ≤ 7
  data : ∀ w ∈ a.words, (Instruction.decode w).operation = .data → allowSuicidal = true
  verdict : Admission.verdict? a.bytecode = none

variable {allowSuicidal : Bool}

theorem exists_instructions {lines : List String} (h : ∀ line ∈ lines, IsFair allowSuicidal line) :
    ∃ is, List.Forall₂ States (lines.map String.toList) is ∧
      ∀ i ∈ is, (i.operation = .data → allowSuicidal = true) ∧
        ∀ distance, ¬ i.CopiesItself distance := by
  induction lines with
  | nil => exact ⟨[], .nil, by simp⟩
  | cons line lines ih =>
      obtain ⟨⟨i, hi, hfair⟩, hlines⟩ := List.forall_mem_cons.mp h
      obtain ⟨is, his, hall⟩ := ih hlines
      exact ⟨i :: is, .cons hi his, List.forall_mem_cons.mpr ⟨hfair, hall⟩⟩

/-- Well-made lines assemble to admissible words. -/
theorem IsWellMade.exists_assemble {lines : List String} (h : IsWellMade allowSuicidal lines) :
    ∃ a, assemble (source lines) = .ok a ∧ IsAdmissible allowSuicidal a := by
  obtain ⟨is, hstates, hfair⟩ := exists_instructions h.fair
  have hlength : lines.length = is.length := by simpa using hstates.length_eq
  have hpos : 0 < lines.length := List.length_pos_iff.mpr h.ne_nil
  have hle := h.length_le
  have hroom : is.length ≤ maxStatements := by
    show is.length ≤ 48
    omega
  have hsource : (source lines).toList = ['\n'].intercalate (lines.map String.toList) :=
    String.toList_intercalate
  obtain ⟨a, ha, hwords⟩ := assemble_of_states hsource hstates hroom
  have hdecode : ∀ w ∈ a.words, Instruction.decode w ∈ is := by
    rw [hwords]
    refine List.forall_mem_map.mpr fun i hi => ?_
    rwa [Instruction.decode_encode (wellFormed_of_states hstates i hi)]
  refine ⟨a, ha, ?_, ?_, fun w hw => (hfair _ (hdecode w hw)).1, ?_⟩
  · rw [hwords, List.length_map]
    omega
  · rw [hwords, List.length_map]
    omega
  · refine Admission.verdict?_eq_none_iff.mpr ⟨a.words, Bytecode.decode?_encode _, ?_⟩
    intro k w hw distance hself
    exact absurd hself ((hfair _ (hdecode w (List.mem_of_getElem? hw))).2 distance)

/-- Whatever is drawn, the text of a bystander assembles to admissible words. -/
theorem always_generate {γ : Type} [RandomSource γ] (allowSuicidal : Bool) :
    Draw.Always (generate (γ := γ) allowSuicidal) fun source =>
      ∃ a, assemble source = .ok a ∧ IsAdmissible allowSuicidal a :=
  (always_lines allowSuicidal).map fun _ h => h.exists_assemble

end Bystander

end CoreArena
