import CoreArena.Proofs.Source.Spelling

/-! # Keywords and links

A text is read by the first phrase of a table that opens it. A keyword is read back, unless it is a
jump and the text behind it makes the longer name of it: `readKeyword?_append`. So is a link, unless
the text behind it completes an earlier link of its table: `readLink?_append`. -/

namespace CoreArena.Source

open Text

deriving instance DecidableEq for Shape

deriving instance DecidableEq for Keyword

/-- The links of a shape. -/
def Shape.links : Shape → List Link
  | .binary usual others => usual :: others
  | _ => []

/-- Blanks that set a keyword apart from the operand behind it. A number without a sign and an
indicator in words need one. -/
def Separates (blanks text : List Char) : Prop :=
  Blanks blanks ∧ (blanks = [] → text.head?.all (!·.isAlphanum))

/-- What a link of a table has more than a later one that it opens with. -/
def linkEndings : List (List Char) :=
  ["address ".toList, "the value at ".toList, "the value ".toList, "=".toList]

theorem head?_phrase :
    ∀ k ∈ keywords, k.phrase.toList.head?.any fun c => !isBlank c && c != '#' && c != '@' := by
  decide +kernel

/-- No keyword opens with an earlier one. -/
theorem keyword_order :
    ∀ k ∈ keywords, ∀ k' ∈ keywords.takeWhile (· ≠ k), ¬ k'.phrase.toList <+: k.phrase.toList := by
  decide +kernel

/-- A keyword that opens with another one is the longer name of a jump. -/
theorem keyword_prefix_cases :
    ∀ k ∈ keywords, ∀ k' ∈ keywords, k.phrase.toList <+: k'.phrase.toList →
      k' = k ∨ k.shape = .unary .jump ∧ k'.shape = .unary .jump ∧
        k'.phrase.toList = k.phrase.toList ++ " to".toList := by
  decide +kernel

theorem link_prefix :
    ∀ k ∈ keywords, ∀ l ∈ k.shape.links, ∀ l' ∈ k.shape.links.takeWhile (· ≠ l),
      ¬ l'.phrase.toList <+: l.phrase.toList ∧
      (l.phrase.toList <+: l'.phrase.toList →
        l'.phrase.toList.drop l.phrase.toList.length ∈ linkEndings) := by
  decide +kernel

theorem link_phrase :
    ∀ k ∈ keywords, ∀ l ∈ k.shape.links, l.phrase.toList.head?.any (!isBlank ·) ∧
      l.phrase.toList.all (!·.isDigit) ∧ l.word.all (!·.isDigit) := by
  decide +kernel

theorem afterKeyword?_eq_some_iff {keyword line rest : List Char} :
    afterKeyword? keyword line = some rest ↔
      line = keyword ++ rest ∧ rest.head?.all (!·.isAlphanum) := by
  constructor
  · intro h
    unfold afterKeyword? at h
    split at h
    · rename_i hafter
      cases h
      exact ⟨afterPhrase?_eq_some_iff.mp hafter, rfl⟩
    · rename_i c cs hafter
      split at h
      · cases h
      · rename_i hc
        cases h
        exact ⟨afterPhrase?_eq_some_iff.mp hafter, by simpa using hc⟩
    · cases h
  · rintro ⟨hline, hrest⟩
    rw [afterKeyword?, afterPhrase?_eq_some_iff.mpr hline]
    cases rest with
    | nil => rfl
    | cons c cs =>
        have hc : c.isAlphanum = false := by simpa using hrest
        simp only [hc, Bool.false_eq_true, if_false]

/-- What is found in a table comes from it. -/
theorem eq_some_of_findSome?_map {α β : Type} {f : α → Option β} {as : List α} {a : α} {b : β}
    (h : as.findSome? (fun a => (f a).map (a, ·)) = some (a, b)) : a ∈ as ∧ f a = some b := by
  obtain ⟨a', ha', hmap⟩ := List.exists_of_findSome?_eq_some h
  obtain ⟨b', hb', heq⟩ := Option.map_eq_some_iff.mp hmap
  cases heq
  exact ⟨ha', hb'⟩

theorem eq_append_of_readKeyword? {line rest : List Char} {k : Keyword}
    (h : readKeyword? line = some (k, rest)) :
    k ∈ keywords ∧ line = k.phrase.toList ++ rest ∧ rest.head?.all (!·.isAlphanum) := by
  obtain ⟨hk, hafter⟩ := eq_some_of_findSome?_map h
  exact ⟨hk, afterKeyword?_eq_some_iff.mp hafter⟩

theorem eq_append_of_readLink? {links : List Link} {text rest : List Char} {l : Link}
    (h : readLink? links text = some (l, rest)) : l ∈ links ∧ text = l.phrase.toList ++ rest := by
  obtain ⟨hl, hafter⟩ := eq_some_of_findSome?_map h
  exact ⟨hl, afterPhrase?_eq_some_iff.mp hafter⟩

/-- A keyword is read before what makes no other keyword of it. -/
theorem readKeyword?_append {k : Keyword} (hk : k ∈ keywords) {rest : List Char}
    (hrest : rest.head?.all (!·.isAlphanum))
    (hto : k.shape = .unary .jump → ¬ " to".toList <+: rest) :
    readKeyword? (k.phrase.toList ++ rest) = some (k, rest) := by
  refine findSome?_eq_of_first hk ?_ fun k' hk' => ?_
  · rw [afterKeyword?_eq_some_iff.mpr ⟨rfl, hrest⟩, Option.map_some]
  rw [Option.map_eq_none_iff, Option.eq_none_iff_forall_ne_some]
  intro after hafter
  obtain ⟨hopens, -⟩ := afterKeyword?_eq_some_iff.mp hafter
  rcases prefix_append_cases ⟨after, hopens.symm⟩ with h | ⟨more, heq, hmore⟩
  · exact keyword_order k hk k' hk' h
  · have hne : k' ≠ k := by simpa using List.mem_takeWhile_imp hk'
    have hk'mem : k' ∈ keywords := (List.takeWhile_sublist _).subset hk'
    obtain ⟨hjump, -, hname⟩ :=
      (keyword_prefix_cases k hk k' hk'mem ⟨more, heq.symm⟩).resolve_left hne
    rw [heq] at hname
    exact hto hjump (List.append_cancel_left hname ▸ hmore)

/-- A link is read before what makes no earlier link of it. -/
theorem readLink?_append {links : List Link} {l : Link} (hl : l ∈ links) {rest : List Char}
    (h : ∀ l' ∈ links.takeWhile (· ≠ l), ¬ l'.phrase.toList <+: l.phrase.toList ++ rest) :
    readLink? links (l.phrase.toList ++ rest) = some (l, rest) := by
  refine findSome?_eq_of_first hl ?_ fun l' hl' => ?_
  · rw [afterPhrase?_eq_some_iff.mpr rfl, Option.map_some]
  · rw [afterPhrase?_eq_none_iff.mpr (h l' hl'), Option.map_none]

/-- No operand makes the longer name of a jump out of the shorter one. -/
theorem not_to_prefix {blanks text : List Char} {o : Operand} (hblanks : Blanks blanks)
    (h : Spells indicators text o) (rest : List Char) :
    ¬ " to".toList <+: blanks ++ (text ++ rest) := by
  rintro ⟨more, hmore⟩
  have htrim := congrArg trimStart hmore
  rw [trimStart_blanks_append hblanks (any_head?_append h.any_head?_not_isBlank rest)] at htrim
  replace htrim : 't' :: 'o' :: more = text ++ rest := htrim
  cases h with
  | number h =>
      obtain ⟨c, cs, rfl, hc⟩ := eq_cons_of_any_head? h.any_head?
      obtain ⟨rfl, -⟩ := List.cons.inj htrim
      cases hc
  | indicator hphrase _ _ =>
      simp only [indicators, List.mem_cons, List.not_mem_nil, or_false] at hphrase
      rcases hphrase with rfl | rfl | rfl | rfl | rfl | rfl <;> simp at htrim

end CoreArena.Source
