import CoreArena.Proofs.Source.Keywords

/-! # The grammar of statements

A derivation puts a keyword, operands and the link between them one behind the other, with blanks
between them. Derivable statements are read as derived if no operand completes an earlier link of
the table: `Sentence.Joins.readStatement_eq`, and stars never do: `Derivation.readStatement_eq`. -/

namespace CoreArena.Source

open Text

/-! ## Derivations -/

/-- Two operands joined by a link behind a keyword, and the blanks between them. -/
structure Sentence where
  keyword : Keyword
  gap : List Char
  first : List Char
  before : List Char
  link : Link
  after : List Char
  second : List Char

namespace Sentence

/-- The link and the second operand. -/
def tail (x : Sentence) : List Char :=
  x.link.phrase.toList ++ (x.after ++ x.second)

def text (x : Sentence) : List Char :=
  x.keyword.phrase.toList ++ (x.gap ++ (x.first ++ (x.before ++ x.tail)))

/-- A sentence is made of a keyword, a link of its table and spellings of two operands. The second
operand takes only the given indicators. -/
structure Joins (phrases : List String) (x : Sentence) (a b : Operand) : Prop where
  keyword_mem : x.keyword ∈ keywords
  link_mem : x.link ∈ x.keyword.shape.links
  separates : Separates x.gap x.first
  spells_first : Spells indicators x.first a
  blanks_before : Blanks x.before
  blanks_after : Blanks x.after
  spells_second : Spells phrases x.second b

/-- What a sentence says of its operands. -/
def statement (x : Sentence) (a b : Operand) : Statement :=
  ⟨x.link.operation, [a, b], x.keyword.phrase, some (String.ofList x.link.word)⟩

end Sentence

/-- The lines that state something, in lower case, and what they state. Second operands take only
the given indicators. -/
inductive Derivation (phrases : List String) : List Char → Statement → Prop where
  | bare {k : Keyword} {op : Operation} (hk : k ∈ keywords) (hshape : k.shape = .bare op) :
      Derivation phrases k.phrase.toList ⟨op, [], k.phrase, none⟩
  | data {k : Keyword} {gap text : List Char} {v : Int} (hk : k ∈ keywords)
      (hshape : k.shape = .unary .data) (hgap : Separates gap text) (hv : Operand.InRange v)
      (htext : SpellsNumber text v) :
      Derivation phrases (k.phrase.toList ++ (gap ++ text))
        ⟨.data, [.zero, .direct v], k.phrase, none⟩
  | unary {k : Keyword} {op : Operation} {gap text : List Char} {o : Operand} (hk : k ∈ keywords)
      (hshape : k.shape = .unary op) (hop : op ≠ .data) (hgap : Separates gap text)
      (ho : o.Within Operand.maxDepth) (htext : Spells indicators text o) :
      Derivation phrases (k.phrase.toList ++ (gap ++ text)) ⟨op, [o], k.phrase, none⟩
  | binary {x : Sentence} {a b : Operand} (h : x.Joins phrases a b)
      (ha : a.Within Operand.maxDepth) (hb : b.Within Operand.maxDepth) :
      Derivation phrases x.text (x.statement a b)

/-! ## Derivable statements are read -/

theorem bounds_of_isAlphanum {c : Char} (h : c.isAlphanum = true) :
    48 ≤ c.toNat ∧ c.toNat ≤ 122 := by
  have hbounds {low high : UInt32} (hlow : low ≤ c.val) (hhigh : c.val ≤ high) :
      low.toNat ≤ c.toNat ∧ c.toNat ≤ high.toNat :=
    ⟨UInt32.le_iff_toNat_le.mp hlow, UInt32.le_iff_toNat_le.mp hhigh⟩
  rcases Bool.or_eq_true_iff.mp h with hletter | hdigit
  · rcases Bool.or_eq_true_iff.mp hletter with hupper | hlower
    · obtain ⟨hlow, hhigh⟩ := of_decide_eq_true hupper
      exact (hbounds hlow hhigh).imp (le_trans (by decide)) (le_trans · (by decide))
    · obtain ⟨hlow, hhigh⟩ := Bool.and_eq_true_iff.mp hlower
      exact (hbounds (of_decide_eq_true hlow) (of_decide_eq_true hhigh)).imp
        (le_trans (by decide)) id
  · exact (bounds_of_isDigit hdigit).imp_right (le_trans · (by decide))

theorem not_isAlphanum_of_isBlank {c : Char} (h : isBlank c = true) : c.isAlphanum = false := by
  refine Bool.eq_false_iff.mpr fun halnum => ?_
  have hbounds := bounds_of_isAlphanum halnum
  simp [isBlank] at h
  omega

theorem Spells.readOperand_append {text rest : List Char} {o : Operand}
    (h : Spells indicators text o) (ho : o.Within Operand.maxDepth)
    (hrest : rest.head?.all (!·.isDigit)) : readOperand (text ++ rest) = .ok (o, rest) :=
  readOperand_eq_ok_iff.mpr ⟨ho, hrest, text, h,
    trimStart_of_any_head? (any_head?_append h.any_head?_not_isBlank rest)⟩

theorem Spells.readOperand_eq {text : List Char} {o : Operand} (h : Spells indicators text o)
    (ho : o.Within Operand.maxDepth) : readOperand text = .ok (o, []) := by
  have hread : readOperand (text ++ []) = .ok (o, []) := h.readOperand_append ho rfl
  simpa using hread

theorem Spells.ne_nil {text : List Char} {o : Operand} (h : Spells indicators text o) :
    text ≠ [] := by
  rintro rfl
  cases h.any_head?_not_isBlank

theorem all_head?_separates {gap text : List Char} (h : Separates gap text) (hne : text ≠ [])
    (rest : List Char) : (gap ++ (text ++ rest)).head?.all (!·.isAlphanum) := by
  cases gap with
  | nil =>
      obtain ⟨c, cs, rfl⟩ := List.exists_cons_of_ne_nil hne
      exact h.2 rfl
  | cons b bs => simp [not_isAlphanum_of_isBlank (h.1 b List.mem_cons_self)]

section Statements

variable {k : Keyword} {op : Operation} {text : List Char}

theorem readStatement_bare (hk : k ∈ keywords) (hshape : k.shape = .bare op)
    {ignored : List Char} (hignored : ignored.head?.all (!·.isAlphanum))
    (hline : text.map Char.toLower = k.phrase.toList ++ ignored) :
    readStatement text = (⟨op, [], k.phrase, none⟩, none) := by
  rw [readStatement, hline, readKeyword?_append hk hignored (by simp [hshape])]
  simp only [hshape]
  rfl

/-- A keyword is read with the blanks behind it. -/
theorem readKeyword?_separates (hk : k ∈ keywords) {gap operand : List Char} {o : Operand}
    (hgap : Separates gap operand) (hspells : Spells indicators operand o) (rest : List Char) :
    readKeyword? (k.phrase.toList ++ (gap ++ (operand ++ rest))) =
        some (k, gap ++ (operand ++ rest)) ∧
      trimStart (gap ++ (operand ++ rest)) = operand ++ rest :=
  ⟨readKeyword?_append hk (all_head?_separates hgap hspells.ne_nil rest)
      fun _ => not_to_prefix hgap.1 hspells rest,
    trimStart_blanks_append hgap.1 (any_head?_append hspells.any_head?_not_isBlank rest)⟩

theorem readStatement_eq_readUnary (hk : k ∈ keywords) (hshape : k.shape = .unary op)
    {gap operand : List Char} {o : Operand} (hgap : Separates gap operand)
    (hspells : Spells indicators operand o)
    (hline : text.map Char.toLower = k.phrase.toList ++ (gap ++ operand)) :
    readStatement text = readUnary op k.phrase operand := by
  obtain ⟨hkeyword, htrim⟩ := readKeyword?_separates hk hgap hspells []
  rw [List.append_nil] at hkeyword htrim
  rw [readStatement, hline, hkeyword]
  simp only [hshape, htrim]

theorem readUnary_spelled (hop : op ≠ .data) (keyword : String) {o : Operand}
    (ho : o.Within Operand.maxDepth) (h : Spells indicators text o) :
    readUnary op keyword text = (⟨op, [o], keyword, none⟩, none) := by
  have htrailing : trailing? [] = none := rfl
  simp [readUnary, h.readOperand_eq ho, h.ne_nil, htrailing, hop, Statement.opening]

theorem readUnary_number (keyword : String) {v : Int} (hv : Operand.InRange v)
    (h : SpellsNumber text v) :
    readUnary .data keyword text = (⟨.data, [.zero, .direct v], keyword, none⟩, none) := by
  have hspells : Spells indicators text (.direct v) := .number h
  have hread := hspells.readOperand_eq ⟨Nat.zero_le _, hv⟩
  have htrailing : trailing? [] = none := rfl
  have hdepth : ¬ 0 < (Operand.direct v).depth := Nat.lt_irrefl 0
  simp [readUnary, hread, hspells.ne_nil, htrailing, hdepth, Statement.opening]

end Statements

theorem eq_binary_of_mem_links {shape : Shape} {l : Link} (h : l ∈ shape.links) :
    ∃ usual others, shape = .binary usual others ∧ shape.links = usual :: others := by
  cases shape with
  | bare op | unary op => cases h
  | binary usual others => exact ⟨usual, others, rfl, rfl⟩

namespace Sentence.Joins

variable {phrases : List String} {x : Sentence} {a b : Operand}

theorem mono {phrases' : List String} (h : x.Joins phrases a b) (hsub : phrases ⊆ phrases') :
    x.Joins phrases' a b :=
  { h with spells_second := h.spells_second.mono hsub }

theorem any_head?_tail (h : x.Joins phrases a b) : x.tail.head?.any (!isBlank ·) :=
  any_head?_append (link_phrase _ h.keyword_mem _ h.link_mem).1 _

theorem any_getLast?_tail (h : x.Joins phrases a b) : x.tail.getLast?.any Char.isDigit := by
  have hdigit := h.spells_second.any_getLast?
  have hne : x.second ≠ [] := by
    intro hnil
    rw [hnil] at hdigit
    cases hdigit
  rwa [tail, ← List.append_assoc, List.getLast?_append_of_ne_nil _ hne]

theorem trim_tail (h : x.Joins phrases a b) : trim (x.before ++ x.tail) = x.tail := by
  refine trim_blanks_append h.blanks_before h.any_head?_tail ?_
  obtain ⟨d, hd, hdigit⟩ := (Option.any_eq_true _ _).mp h.any_getLast?_tail
  simp [hd, not_isBlank_of_opensNumber (opensNumber_of_isDigit hdigit)]

theorem all_head?_before (h : x.Joins phrases a b) :
    (x.before ++ x.tail).head?.all (!·.isDigit) := by
  cases hbefore : x.before with
  | nil =>
      obtain ⟨hhead, hdigits, -⟩ := link_phrase _ h.keyword_mem _ h.link_mem
      obtain ⟨c, cs, hcs, -⟩ := eq_cons_of_any_head? hhead
      have hc : c ∈ x.link.phrase.toList := hcs ▸ List.mem_cons_self
      simpa [tail, hcs] using List.all_eq_true.mp hdigits c hc
  | cons c cs =>
      have hblank := h.blanks_before c (hbefore ▸ List.mem_cons_self)
      simp [not_isDigit_of_isBlank hblank]

/-- The first operand is read up to the blanks before the link. -/
theorem readOperand_first (h : x.Joins phrases a b) (ha : a.Within Operand.maxDepth) :
    readOperand (x.first ++ (x.before ++ x.tail)) = .ok (a, x.before ++ x.tail) :=
  h.spells_first.readOperand_append ha h.all_head?_before

/-- A link and an operand are more than the beginning of a link: no link has a digit. -/
theorem tail_not_unfinished (h : x.Joins phrases a b) {usual : Link} {others : List Link}
    (hlinks : x.keyword.shape.links = usual :: others) :
    (x.tail.isPrefixOf usual.word || (usual :: others).any (·.word == x.tail)) = false := by
  obtain ⟨d, hd, hdigit⟩ := (Option.any_eq_true _ _).mp h.any_getLast?_tail
  have hmem : d ∈ x.tail := List.mem_of_getLast? hd
  have hword : ∀ l ∈ usual :: others, d ∉ l.word := by
    intro l hl hdl
    have hnone := (link_phrase _ h.keyword_mem l (hlinks ▸ hl)).2.2
    simpa [hdigit] using List.all_eq_true.mp hnone d hdl
  rw [Bool.or_eq_false_iff, List.any_eq_false, Bool.eq_false_iff, ne_eq,
    List.isPrefixOf_iff_prefix]
  refine ⟨fun hstarts => hword usual List.mem_cons_self (hstarts.subset hmem), ?_⟩
  intro l hl heq
  exact hword l hl (eq_of_beq heq ▸ hmem)

theorem readStatement_eq_readBinary (h : x.Joins phrases a b) {usual : Link}
    {others : List Link} (hshape : x.keyword.shape = .binary usual others) {text : List Char}
    (hline : text.map Char.toLower = x.text) :
    readStatement text =
      readBinary usual others x.keyword.phrase (x.first ++ (x.before ++ x.tail)) := by
  obtain ⟨hkeyword, htrim⟩ := readKeyword?_separates h.keyword_mem h.separates h.spells_first
    (x.before ++ x.tail)
  rw [readStatement, hline, Sentence.text, hkeyword]
  simp only [hshape, htrim]

/-- A sentence is read up to the link that the table gives for its tail, and then its second
operand is. -/
theorem readStatement_eq_of_link (h : x.Joins indicators a b) (ha : a.Within Operand.maxDepth)
    {l : Link} {rest : List Char} (hlink : readLink? x.keyword.shape.links x.tail = some (l, rest))
    (hrest : trimStart rest ≠ []) {text : List Char} (hline : text.map Char.toLower = x.text) :
    readStatement text =
      let opening : Statement :=
        ⟨l.operation, [a], x.keyword.phrase, some (String.ofList l.word)⟩
      match readOperand (trimStart rest) with
      | .error (.notAnInteger _) =>
        (opening, some (.invalidSecondArgument x.keyword.phrase
          (String.ofList (trimStart rest)) (String.ofList l.word)))
      | .error problem => (opening, some problem)
      | .ok (second, rest) =>
        match trailing? rest with
        | some problem => (opening, some problem)
        | none => ({ opening with operands := [a, second] }, none) := by
  obtain ⟨usual, others, hshape, hlinks⟩ := eq_binary_of_mem_links h.link_mem
  have hne : x.first ++ (x.before ++ x.tail) ≠ [] := by simp [h.spells_first.ne_nil]
  rw [hlinks] at hlink
  rw [h.readStatement_eq_readBinary hshape hline, readBinary, if_neg hne]
  simp only [h.readOperand_first ha, h.trim_tail, h.tail_not_unfinished hlinks, hlink,
    if_neg hrest]
  rfl

/-- The blanks behind the link are left out. -/
theorem trimStart_second (h : x.Joins indicators a b) :
    trimStart (x.after ++ x.second) = x.second :=
  trimStart_blanks_append h.blanks_after h.spells_second.any_head?_not_isBlank

/-- A sentence states what it joins if its link is the first of the table to fit. -/
theorem readStatement_eq (h : x.Joins indicators a b) (ha : a.Within Operand.maxDepth)
    (hb : b.Within Operand.maxDepth)
    (hlink : readLink? x.keyword.shape.links x.tail = some (x.link, x.after ++ x.second))
    {text : List Char} (hline : text.map Char.toLower = x.text) :
    readStatement text = (x.statement a b, none) := by
  have hrest : trimStart (x.after ++ x.second) ≠ [] := by
    rw [h.trimStart_second]
    exact h.spells_second.ne_nil
  rw [h.readStatement_eq_of_link ha hlink hrest hline, h.trimStart_second,
    h.spells_second.readOperand_eq hb]
  rfl

end Sentence.Joins

/-! ## Links before operands -/

theorem head?_linkEnding : ∀ ending ∈ linkEndings,
    ending.head?.any fun c => !isBlank c && !opensNumber c && c != '*' := by
  decide +kernel

/-- What opens an operand and completes an earlier link is an indicator in words. -/
theorem exists_indicator_of_linkEnding {phrases : List String} (hphrases : phrases ⊆ indicators)
    {blanks text : List Char} {o : Operand} (hblanks : Blanks blanks) (h : Spells phrases text o)
    {ending : List Char} (hending : ending ∈ linkEndings) (hstarts : ending <+: blanks ++ text) :
    ending.head? = some 't' ∧ ∃ p ∈ phrases, p ≠ "*" := by
  obtain ⟨c, cs, rfl, hc⟩ := eq_cons_of_any_head? (head?_linkEnding ending hending)
  obtain ⟨⟨hblank, hnumber⟩, hstar⟩ : (isBlank c = false ∧ opensNumber c = false) ∧ c ≠ '*' := by
    simpa using hc
  obtain ⟨more, hmore⟩ := hstarts
  obtain rfl : blanks = [] := by
    cases blanks with
    | nil => rfl
    | cons b bs =>
        obtain ⟨rfl, -⟩ := List.cons.inj hmore
        simp [hblanks c List.mem_cons_self] at hblank
  obtain ⟨d, ds, rfl, hd⟩ := eq_cons_of_any_head? (h.any_head? hphrases)
  obtain ⟨rfl, -⟩ := List.cons.inj hmore
  rw [hnumber, Bool.false_or] at hd
  obtain ⟨p, hp, heq⟩ := List.any_eq_true.mp hd
  have hopen := head?_indicator p (hphrases hp)
  rw [eq_of_beq heq, Option.any_some, Bool.or_eq_true, beq_iff_eq, beq_iff_eq] at hopen
  obtain rfl := hopen.resolve_right hstar
  refine ⟨rfl, p, hp, ?_⟩
  rintro rfl
  cases heq

namespace Sentence.Joins

variable {phrases : List String} {x : Sentence} {a b : Operand}

/-- A link is read in its sentence if no operand completes an earlier link of the table. -/
theorem readLink?_tail (h : x.Joins phrases a b)
    (hnot : ∀ l ∈ x.keyword.shape.links.takeWhile (· ≠ x.link), ∀ ending ∈ linkEndings,
      l.phrase.toList = x.link.phrase.toList ++ ending → ¬ ending <+: x.after ++ x.second) :
    readLink? x.keyword.shape.links x.tail = some (x.link, x.after ++ x.second) := by
  refine readLink?_append h.link_mem fun l hl hopens => ?_
  obtain ⟨hshort, hlong⟩ := link_prefix _ h.keyword_mem _ h.link_mem l hl
  rcases prefix_append_cases hopens with hstarts | ⟨ending, heq, hending⟩
  · exact hshort hstarts
  · have hmem := hlong ⟨ending, heq.symm⟩
    rw [heq, List.drop_left] at hmem
    exact hnot l hl ending hmem heq hending

/-- Stars complete no link. -/
theorem readLink?_star (h : x.Joins ["*"] a b) :
    readLink? x.keyword.shape.links x.tail = some (x.link, x.after ++ x.second) := by
  refine h.readLink?_tail fun l _ ending hending _ hstarts => ?_
  obtain ⟨-, p, hp, hne⟩ := exists_indicator_of_linkEnding (by decide) h.blanks_after
    h.spells_second hending hstarts
  exact hne (List.mem_singleton.mp hp)

end Sentence.Joins

/-- A line is read as it is derived if its second operand takes only stars. -/
theorem Derivation.readStatement_eq {line text : List Char} {s : Statement}
    (h : Derivation ["*"] line s) (hline : text.map Char.toLower = line) :
    readStatement text = (s, none) := by
  cases h with
  | @bare k _ hk hshape =>
      have hline' : text.map Char.toLower = k.phrase.toList ++ [] := by simp [hline]
      exact readStatement_bare hk hshape rfl hline'
  | data hk hshape hgap hv htext =>
      rw [readStatement_eq_readUnary hk hshape hgap (.number htext) hline]
      exact readUnary_number _ hv htext
  | unary hk hshape hop hgap ho htext =>
      rw [readStatement_eq_readUnary hk hshape hgap htext hline]
      exact readUnary_spelled hop _ ho htext
  | binary h ha hb =>
      exact (h.mono (by decide)).readStatement_eq ha hb h.readLink?_star hline

end CoreArena.Source
