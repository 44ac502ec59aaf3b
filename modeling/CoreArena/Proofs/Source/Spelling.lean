import CoreArena.Proofs.Instruction.Encoding
import CoreArena.Proofs.Source.Blanks

/-! # Spellings of operands

A number is a sign, or none, before digits, and an operand is indicators before a number. It is read
exactly if it is spelled, and no further: `readOperand_eq_ok_iff`. A reader counts indicators up to
255 and reads numbers of 64 bits; its limits are well below both, so neither shows:
`readOperand_eq`. -/

namespace CoreArena.Source

open Text

/-! ## Numbers -/

/-- The signs that a number may have. -/
def signs : List (List Char) :=
  [[], ['-'], ['+']]

/-- A sign, or none, and at least one digit spell a number. -/
inductive SpellsNumber : List Char → Int → Prop where
  | intro {sign digits : List Char} (hsign : sign ∈ signs) (hne : digits ≠ [])
      (hdigits : ∀ d ∈ digits, d.isDigit = true) :
      SpellsNumber (sign ++ digits) (signedValue sign digits)

/-- The characters that a number opens with. -/
def opensNumber (c : Char) : Bool :=
  c == '-' || c == '+' || c.isDigit

theorem bounds_of_isDigit {c : Char} (h : c.isDigit = true) : 48 ≤ c.toNat ∧ c.toNat ≤ 57 := by
  simpa [Char.isDigit, UInt32.le_iff_toNat_le] using h

theorem bounds_of_opensNumber {c : Char} (h : opensNumber c = true) :
    c.toNat = 43 ∨ c.toNat = 45 ∨ 48 ≤ c.toNat ∧ c.toNat ≤ 57 := by
  simp only [opensNumber, Bool.or_eq_true, beq_iff_eq] at h
  rcases h with (rfl | rfl) | h
  · exact .inr (.inl rfl)
  · exact .inl rfl
  · exact .inr (.inr (bounds_of_isDigit h))

theorem not_isBlank_of_opensNumber {c : Char} (h : opensNumber c = true) : isBlank c = false := by
  have hc := bounds_of_opensNumber h
  simp [isBlank]
  omega

theorem ne_of_opensNumber {c : Char} (h : opensNumber c = true) : c ≠ '*' ∧ c ≠ 't' := by
  constructor <;> (rintro rfl; cases h)

theorem opensNumber_of_isDigit {c : Char} (h : c.isDigit = true) : opensNumber c = true := by
  simp [opensNumber, h]

theorem not_isDigit_of_isBlank {c : Char} (h : isBlank c = true) : c.isDigit = false := by
  by_contra hdigit
  have := not_isBlank_of_opensNumber (opensNumber_of_isDigit (by simpa using hdigit))
  simp [this] at h

theorem readSign_of_isDigit {c : Char} (h : c.isDigit = true) (cs : List Char) :
    readSign (c :: cs) = ([], c :: cs) := by
  unfold readSign
  split
  · rename_i heq
    cases heq
    cases h
  · rename_i heq
    cases heq
    cases h
  · rfl

/-- A sign is read up to the first digit. -/
theorem readSign_append {sign : List Char} (hsign : sign ∈ signs) {d : Char}
    (hd : d.isDigit = true) (ds : List Char) : readSign (sign ++ d :: ds) = (sign, d :: ds) := by
  simp only [signs, List.mem_cons, List.not_mem_nil, or_false] at hsign
  rcases hsign with rfl | rfl | rfl
  · exact readSign_of_isDigit hd ds
  · rfl
  · rfl

theorem readSign_spec (cs : List Char) :
    (readSign cs).1 ∈ signs ∧ cs = (readSign cs).1 ++ (readSign cs).2 := by
  unfold readSign
  split <;> simp [signs]

namespace SpellsNumber

variable {text : List Char} {v : Int}

theorem any_head? (h : SpellsNumber text v) : text.head?.any opensNumber := by
  obtain @⟨sign, digits, hsign, hne, hdigits⟩ := h
  obtain ⟨d, ds, rfl⟩ := List.exists_cons_of_ne_nil hne
  simp only [signs, List.mem_cons, List.not_mem_nil, or_false] at hsign
  rcases hsign with rfl | rfl | rfl
  · exact opensNumber_of_isDigit (hdigits d List.mem_cons_self)
  · rfl
  · rfl

theorem any_getLast? (h : SpellsNumber text v) : text.getLast?.any Char.isDigit := by
  obtain @⟨sign, digits, -, hne, hdigits⟩ := h
  rw [List.getLast?_append_of_ne_nil sign hne, List.getLast?_eq_some_getLast hne]
  exact hdigits _ (List.getLast_mem hne)

/-- A number is read up to what cannot belong to it. -/
theorem read_eq (h : SpellsNumber text v) {rest : List Char}
    (hrest : rest.head?.all (!·.isDigit)) :
    ∃ sign digits, readSign (text ++ rest) = (sign, digits ++ rest) ∧ digits ≠ [] ∧
      (digits ++ rest).takeWhile Char.isDigit = digits ∧
      (digits ++ rest).dropWhile Char.isDigit = rest ∧ signedValue sign digits = v := by
  obtain @⟨sign, digits, hsign, hne, hdigits⟩ := h
  have htake : rest.takeWhile Char.isDigit = [] := by
    cases rest with
    | nil => rfl
    | cons c cs => simpa using hrest
  have hdrop : rest.dropWhile Char.isDigit = rest := by
    cases rest with
    | nil => rfl
    | cons c cs => simpa using hrest
  refine ⟨sign, digits, ?_, hne, ?_, ?_, rfl⟩
  · obtain ⟨d, ds, rfl⟩ := List.exists_cons_of_ne_nil hne
    rw [List.append_assoc, List.cons_append, readSign_append hsign (hdigits d List.mem_cons_self)]
  · rw [List.takeWhile_append_of_pos hdigits, htake, List.append_nil]
  · rw [List.dropWhile_append_of_pos hdigits, hdrop]

end SpellsNumber

/-! ## Operands -/

/-- The texts that spell an operand with the given indicators: one for each lookup, with any
blanks behind it, and a number. -/
inductive Spells (phrases : List String) : List Char → Operand → Prop where
  | number {text : List Char} {v : Int} (h : SpellsNumber text v) :
      Spells phrases text (.direct v)
  | indicator {phrase : String} {blanks text : List Char} {o : Operand}
      (hphrase : phrase ∈ phrases) (hblanks : Blanks blanks) (h : Spells phrases text o) :
      Spells phrases (phrase.toList ++ (blanks ++ text)) ⟨o.depth + 1, o.value⟩

theorem head?_indicator :
    ∀ p ∈ indicators, p.toList.head?.any fun c => c == 't' || c == '*' := by
  decide +kernel

/-- An indicator does not open another one. -/
theorem not_indicator_prefix :
    ∀ p ∈ indicators, ∀ p' ∈ indicators.takeWhile (· ≠ p),
      ¬ p'.toList <+: p.toList ∧ ¬ p.toList <+: p'.toList := by
  decide +kernel

/-- What the first entry of a table that gives a result gives. -/
theorem findSome?_eq_of_first {α β : Type} [DecidableEq α] {as : List α} {f : α → Option β}
    {a : α} {b : β} (ha : a ∈ as) (hfa : f a = some b)
    (hfirst : ∀ a' ∈ as.takeWhile (· ≠ a), f a' = none) : as.findSome? f = some b := by
  induction as with
  | nil => cases ha
  | cons a' as ih =>
      by_cases heq : a' = a
      · rw [heq, List.findSome?_cons, hfa]
      · have htake : (a' :: as).takeWhile (· ≠ a) = a' :: as.takeWhile (· ≠ a) := by simp [heq]
        rw [htake, List.forall_mem_cons] at hfirst
        rw [List.findSome?_cons, hfirst.1]
        exact ih ((List.mem_cons.mp ha).resolve_left (Ne.symm heq)) hfirst.2

theorem afterPhrase?_eq_none_iff {phrase text : List Char} :
    afterPhrase? phrase text = none ↔ ¬ phrase <+: text := by
  rw [Option.eq_none_iff_forall_ne_some]
  simp only [ne_eq, afterPhrase?_eq_some_iff, List.IsPrefix, not_exists]
  exact forall_congr' fun rest => not_congr eq_comm

/-- A phrase that opens another one with something behind it is part of it or goes on behind it. -/
theorem prefix_append_cases {phrase text rest : List Char} (h : phrase <+: text ++ rest) :
    phrase <+: text ∨ ∃ more, phrase = text ++ more ∧ more <+: rest := by
  rcases List.prefix_or_prefix_of_prefix h (List.prefix_append text rest) with hleft | hright
  · exact .inl hleft
  · obtain ⟨more, rfl⟩ := hright
    exact .inr ⟨more, rfl, (List.prefix_append_right_inj text).mp h⟩

theorem afterIndicator?_append {p : String} (hp : p ∈ indicators) (rest : List Char) :
    afterIndicator? (p.toList ++ rest) = some rest := by
  refine findSome?_eq_of_first hp (afterPhrase?_eq_some_iff.mpr rfl) fun p' hp' => ?_
  refine afterPhrase?_eq_none_iff.mpr fun hopens => ?_
  obtain ⟨hnot, hnot'⟩ := not_indicator_prefix p hp p' hp'
  rcases prefix_append_cases hopens with h | ⟨more, h, -⟩
  · exact hnot h
  · exact hnot' ⟨more, h.symm⟩

theorem afterIndicator?_eq_none {cs : List Char}
    (h : cs.head?.any fun c => c != 't' && c != '*') : afterIndicator? cs = none := by
  obtain ⟨c, rest, rfl, hc⟩ := eq_cons_of_any_head? h
  refine List.findSome?_eq_none_iff.mpr fun p hp => afterPhrase?_eq_none_iff.mpr ?_
  rintro ⟨more, hmore⟩
  obtain ⟨d, ds, hd, hopen⟩ := eq_cons_of_any_head? (head?_indicator p hp)
  rw [hd] at hmore
  obtain ⟨rfl, -⟩ := List.cons.inj hmore
  rcases Bool.or_eq_true_iff.mp hopen with h | h <;> simp [eq_of_beq h] at hc

/-- How many indicators open a text, blanks after each, and what follows them. -/
def readIndicators (cs : List Char) : Nat × List Char :=
  match _h : afterIndicator? cs with
  | none => (0, cs)
  | some rest =>
    let (depth, rest) := readIndicators (trimStart rest)
    (depth + 1, rest)
termination_by cs.length
decreasing_by
  have := length_afterIndicator?_lt _h
  have := length_trimStart_le rest
  omega

theorem readIndicators_eq (cs : List Char) :
    readIndicators cs = match afterIndicator? cs with
      | none => (0, cs)
      | some rest =>
        ((readIndicators (trimStart rest)).1 + 1, (readIndicators (trimStart rest)).2) := by
  rw [readIndicators]
  split <;> simp [*]

theorem countIndicators_eq (count : Nat) (cs : List Char) :
    countIndicators count cs = match afterIndicator? cs with
      | none => (count, cs)
      | some rest => countIndicators (min 255 (count + 1)) (trimStart rest) := by
  rw [countIndicators]
  split <;> simp [*]

/-- A counter shows the number of indicators up to 255. -/
theorem countIndicators_eq_min {count : Nat} (hcount : count ≤ 255) (cs : List Char) :
    countIndicators count cs =
      (min 255 (count + (readIndicators cs).1), (readIndicators cs).2) := by
  fun_induction readIndicators cs generalizing count with
  | case1 cs hnone =>
      rw [countIndicators_eq, hnone]
      simp [Nat.min_eq_right hcount]
  | case2 cs after hafter depth rest hread ih =>
      rw [hread] at ih
      rw [countIndicators_eq, hafter]
      dsimp only
      rw [ih (Nat.min_le_left _ _)]
      simp only [Prod.mk.injEq, and_true]
      omega

/-- Operands are much smaller than a number of 64 bits. -/
theorem filter_readInt64? (sign digits : List Char) :
    (readInt64? sign digits).filter (fun value => decide (Operand.InRange value)) =
      if Operand.InRange (signedValue sign digits) then some (signedValue sign digits)
      else none := by
  rw [readInt64?]
  by_cases hrange : Operand.InRange (signedValue sign digits)
  · have hfits : Int64.minValue.toInt ≤ signedValue sign digits ∧
        signedValue sign digits ≤ Int64.maxValue.toInt := by
      simp only [Operand.InRange, Operand.minValue, Operand.maxValue] at hrange
      simp only [Int64.toInt_minValue, Int64.toInt_maxValue]
      omega
    rw [if_pos hfits]
    simp [hrange]
  · split <;> simp [hrange]

/-- A reader of operands does as if it counted all indicators and knew all numbers. -/
theorem readOperand_eq (cs : List Char) :
    readOperand cs =
      let (depth, rest) := readIndicators (trimStart cs)
      let (sign, afterSign) := readSign rest
      let digits := afterSign.takeWhile Char.isDigit
      let value := signedValue sign digits
      if depth > Operand.maxDepth then
        .error (.tooManyReferences (String.ofList (trim cs)))
      else if digits = [] then
        .error (.notAnInteger (String.ofList (firstWord rest)))
      else if Operand.InRange value then
        .ok (⟨depth, value⟩, afterSign.dropWhile Char.isDigit)
      else
        .error (.valueOutOfRange (String.ofList (sign ++ digits))) := by
  have hcount := countIndicators_eq_min (Nat.zero_le 255) (trimStart cs)
  simp only [readOperand, hcount, filter_readInt64?, Nat.zero_add]
  by_cases hdepth : (readIndicators (trimStart cs)).1 > Operand.maxDepth
  · rw [if_pos hdepth, if_pos (by simp only [Operand.maxDepth] at hdepth ⊢; omega)]
  · have hfew : min 255 (readIndicators (trimStart cs)).1 = (readIndicators (trimStart cs)).1 := by
      simp only [Operand.maxDepth] at hdepth
      omega
    rw [hfew, if_neg hdepth, if_neg hdepth]
    congr 1
    split <;> rename_i hvalue <;> split at hvalue <;> simp_all

namespace Spells

variable {phrases : List String} {text : List Char} {o : Operand}

theorem mono {phrases' : List String} (h : Spells phrases text o) (hsub : phrases ⊆ phrases') :
    Spells phrases' text o := by
  induction h with
  | number h => exact .number h
  | indicator hphrase hblanks _ ih => exact .indicator (hsub hphrase) hblanks ih

/-- An operand opens like a number or like one of its indicators. -/
theorem any_head? (h : Spells phrases text o) (hphrases : phrases ⊆ indicators) :
    text.head?.any fun c => opensNumber c || phrases.any (·.toList.head? == some c) := by
  cases h with
  | number h =>
      obtain ⟨c, rest, rfl, hc⟩ := eq_cons_of_any_head? h.any_head?
      simp [hc]
  | @indicator phrase _ _ _ hphrase =>
      obtain ⟨c, rest, hcs, -⟩ := eq_cons_of_any_head? (head?_indicator phrase (hphrases hphrase))
      have hany : phrases.any (·.toList.head? == some c) :=
        List.any_eq_true.mpr ⟨phrase, hphrase, by simp [hcs]⟩
      simp [hcs, hany]

theorem any_getLast? (h : Spells phrases text o) : text.getLast?.any Char.isDigit := by
  induction h with
  | number h => exact h.any_getLast?
  | @indicator phrase blanks text o _ _ _ ih =>
      have hne : text ≠ [] := by
        rintro rfl
        cases ih
      rw [← List.append_assoc, List.getLast?_append_of_ne_nil _ hne]
      exact ih

theorem any_head?_not_isBlank (h : Spells indicators text o) :
    text.head?.any (!isBlank ·) := by
  obtain ⟨c, rest, rfl, hc⟩ := eq_cons_of_any_head? (h.any_head? (List.Subset.refl _))
  rcases Bool.or_eq_true_iff.mp hc with hnumber | hphrase
  · simp [not_isBlank_of_opensNumber hnumber]
  · obtain ⟨p, hp, heq⟩ := List.any_eq_true.mp hphrase
    have hopen := head?_indicator p hp
    rw [eq_of_beq heq, Option.any_some, Bool.or_eq_true, beq_iff_eq, beq_iff_eq] at hopen
    rcases hopen with rfl | rfl <;> rfl

/-- The indicators of an operand are counted, and its number is left. -/
theorem readIndicators_eq (h : Spells indicators text o) (rest : List Char) :
    ∃ number, readIndicators (text ++ rest) = (o.depth, number ++ rest) ∧
      SpellsNumber number o.value := by
  induction h with
  | @number text v h =>
      refine ⟨text, ?_, h⟩
      have hnone : afterIndicator? (text ++ rest) = none := by
        obtain ⟨c, cs, rfl, hc⟩ := eq_cons_of_any_head? h.any_head?
        refine afterIndicator?_eq_none ?_
        simpa [and_comm] using ne_of_opensNumber hc
      rw [Source.readIndicators_eq, hnone]
      rfl
  | @indicator phrase blanks text o hphrase hblanks h ih =>
      obtain ⟨number, hread, hnumber⟩ := ih
      refine ⟨number, ?_, hnumber⟩
      have htrim : trimStart (blanks ++ (text ++ rest)) = text ++ rest :=
        trimStart_blanks_append hblanks (any_head?_append h.any_head?_not_isBlank rest)
      rw [List.append_assoc, List.append_assoc, Source.readIndicators_eq,
        afterIndicator?_append hphrase]
      simp only [htrim, hread]

end Spells

theorem all_head?_dropWhile (p : Char → Bool) (cs : List Char) :
    (cs.dropWhile p).head?.all (!p ·) := by
  have hhead := List.head?_dropWhile_not p cs
  cases h : (cs.dropWhile p).head? with
  | none => rfl
  | some c =>
      rw [h] at hhead
      simpa using hhead

/-- What is read as indicators before a number spells an operand. -/
theorem exists_spells_of_readIndicators {cs number rest : List Char} {v : Int}
    (h : (readIndicators cs).2 = number ++ rest) (hnumber : SpellsNumber number v) :
    ∃ text, cs = text ++ rest ∧ Spells indicators text ⟨(readIndicators cs).1, v⟩ := by
  fun_induction readIndicators cs with
  | case1 cs hnone => exact ⟨number, h, .number hnumber⟩
  | case2 cs after hafter depth rest' hread ih =>
      rw [hread] at ih
      obtain ⟨text, htext, hspells⟩ := ih h
      obtain ⟨phrase, hphrase, hopens⟩ := List.exists_of_findSome?_eq_some hafter
      obtain ⟨blanks, hblanks, hsplit⟩ := exists_blanks_trimStart after
      refine ⟨phrase.toList ++ (blanks ++ text), ?_, .indicator hphrase hblanks hspells⟩
      rw [afterPhrase?_eq_some_iff.mp hopens, hsplit, htext]
      simp

/-- An operand is read if it is spelled, and no further. -/
theorem readOperand_eq_ok_iff {cs rest : List Char} {o : Operand} :
    readOperand cs = .ok (o, rest) ↔
      o.Within Operand.maxDepth ∧ rest.head?.all (!·.isDigit) ∧
        ∃ text, Spells indicators text o ∧ trimStart cs = text ++ rest := by
  constructor
  · intro h
    rw [readOperand_eq] at h
    dsimp only at h
    split at h
    · cases h
    rename_i hdepth
    split at h
    · cases h
    rename_i hdigits
    split at h
    · rename_i hrange
      cases h
      obtain ⟨hsign, hsplit⟩ := readSign_spec (readIndicators (trimStart cs)).2
      rw [← List.takeWhile_append_dropWhile (p := Char.isDigit)
        (l := (readSign (readIndicators (trimStart cs)).2).2), ← List.append_assoc] at hsplit
      obtain ⟨text, htext, hspells⟩ := exists_spells_of_readIndicators hsplit
        (.intro hsign hdigits fun _ => List.mem_takeWhile_imp)
      exact ⟨⟨Nat.le_of_not_lt hdepth, hrange⟩, all_head?_dropWhile _ _, text, hspells, htext⟩
    · cases h
  · rintro ⟨hwithin, hrest, text, hspells, htext⟩
    obtain ⟨number, hread, hnumber⟩ := hspells.readIndicators_eq rest
    obtain ⟨sign, digits, hsign, hne, htake, hdrop, hvalue⟩ := hnumber.read_eq hrest
    simp only [readOperand_eq, htext, hread, hsign, htake, hdrop, hvalue]
    rw [if_neg (Nat.not_lt.mpr hwithin.1), if_neg hne, if_pos hwithin.2]

end CoreArena.Source
