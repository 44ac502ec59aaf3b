import CoreArena.Admission.BanList
import CoreArena.Proofs.Source.Blanks
import CoreArena.Proofs.Text.Lines
import Mathlib.Data.List.Sort

/-! # Ban lists on disk

A text bans the addresses on its lines, and a list is saved with one address after the other. A list
whose addresses hold no line feed is read back as it was; of any other, each line of an address is
read back as an address: `reread_eq_iff`. -/

namespace CoreArena

namespace Text

open Source

@[simp] theorem trimmed_trimmed (s : String) : trimmed (trimmed s) = trimmed s := by
  simp [trimmed]

theorem mem_of_mem_trim {cs : List Char} {c : Char} (h : c ∈ trim cs) : c ∈ cs := by
  obtain ⟨before, behind, -, -, hcs⟩ := exists_blanks_trim cs
  rw [hcs]
  exact List.mem_append_right before (List.mem_append_left behind h)

/-- What is left by trimming ends in no blank. -/
theorem getLast?_trim_ne {cs : List Char} {c : Char} (h : isBlank c = true) :
    (trim cs).getLast? ≠ some c := by
  intro hlast
  have hne : trim cs ≠ [] := by
    intro hnil
    rw [hnil] at hlast
    cases hlast
  rw [List.getLast?_eq_some_getLast hne] at hlast
  have hfree := List.rdropWhile_last_not isBlank (trimStart cs) hne
  rw [← Option.some.inj hlast] at h
  exact hfree h

end Text

namespace Admission

open Text

/-- An address as lists keep it: it has no blanks around it and fits on a line. -/
structure IsEntry (address : String) : Prop where
  trimmed_eq : trimmed address = address
  ne_empty : address ≠ ""
  lineFeed_not_mem : '\n' ∉ address.toList

theorem isEntry_trimmed {address : String} (hlf : '\n' ∉ address.toList)
    (hne : trimmed address ≠ "") : IsEntry (trimmed address) := by
  refine ⟨trimmed_trimmed address, hne, ?_⟩
  rw [trimmed, String.toList_ofList]
  exact fun hmem => hlf (mem_of_mem_trim hmem)

namespace BanList

variable {b : BanList} {address other text : String}

theorem contains_congr (h : trimmed other = trimmed address) :
    b.contains other = b.contains address := by
  rw [contains, contains, h]

theorem contains_insert_iff :
    (b.insert address).contains other = true ↔
      b.contains other = true ∨ trimmed other ≠ "" ∧ trimmed other = trimmed address := by
  unfold insert
  dsimp only
  split
  · rename_i hempty
    rw [String.isEmpty_iff] at hempty
    rw [hempty]
    constructor
    · exact .inl
    · rintro (hcontains | ⟨hne, hsame⟩)
      · exact hcontains
      · exact absurd hsame hne
  · rename_i hempty
    rw [String.isEmpty_iff] at hempty
    simp only [contains, List.contains_iff_mem, mem_insertAscending]
    constructor
    · rintro (hsame | hmem)
      · exact .inr ⟨hsame ▸ hempty, hsame⟩
      · exact .inl hmem
    · rintro (hmem | ⟨-, hsame⟩)
      · exact .inr hmem
      · exact .inl hsame

theorem contains_foldl_insert_iff {ls : List String} :
    (ls.foldl insert b).contains other = true ↔
      b.contains other = true ∨ trimmed other ≠ "" ∧ ∃ l ∈ ls, trimmed other = trimmed l := by
  induction ls generalizing b with
  | nil => simp
  | cons l ls ih =>
      rw [List.foldl_cons, ih, contains_insert_iff, List.exists_mem_cons_iff, or_assoc,
        ← and_or_left]

/-- A text bans an address if it is on a line of it. -/
theorem contains_parse_iff :
    (parse text).contains other = true ↔
      trimmed other ≠ "" ∧ ∃ l ∈ linesOf text, trimmed other = trimmed l := by
  rw [parse, contains_foldl_insert_iff]
  simp [contains, empty]

/-! ## Saving -/

/-- A list of addresses that fit on their lines. -/
def IsClean (b : BanList) : Prop :=
  ∀ address ∈ b.addresses, IsEntry address

theorem isClean_empty : empty.IsClean :=
  fun _ h => absurd h List.not_mem_nil

theorem IsClean.insert (h : b.IsClean) (hlf : '\n' ∉ address.toList) :
    (b.insert address).IsClean := by
  unfold BanList.insert
  dsimp only
  split
  · exact h
  · rename_i hempty
    rw [String.isEmpty_iff] at hempty
    intro entry hentry
    rcases mem_insertAscending.mp hentry with rfl | hentry
    · exact isEntry_trimmed hlf hempty
    · exact h entry hentry

theorem isClean_parse (text : String) : (parse text).IsClean := by
  have hlines : ∀ l ∈ linesOf text, '\n' ∉ l.toList := by
    intro l hl
    obtain ⟨cs, hcs, rfl⟩ := List.mem_map.mp hl
    rw [String.toList_ofList]
    exact lineFeed_not_mem_of_mem_lines hcs
  have hfold {b : BanList} (h : b.IsClean) (ls : List String) (hls : ∀ l ∈ ls, '\n' ∉ l.toList) :
      (ls.foldl BanList.insert b).IsClean := by
    induction ls generalizing b with
    | nil => exact h
    | cons l ls ih =>
        obtain ⟨hl, hls⟩ := List.forall_mem_cons.mp hls
        rw [List.foldl_cons]
        exact ih (h.insert hl) hls
  exact hfold isClean_empty (linesOf text) hlines

theorem IsClean.linesOf_serialize (h : b.IsClean) : linesOf b.serialize = b.addresses := by
  have hlines : lines (b.serialize).toList = b.addresses.map String.toList := by
    rw [serialize, String.toList_intercalate]
    refine lines_intercalate fun l hl => ?_
    obtain ⟨address, haddress, rfl⟩ := List.mem_map.mp hl
    obtain ⟨htrimmed, hne, hlf⟩ := h address haddress
    refine ⟨fun hnil => hne (String.toList_eq_nil_iff.mp hnil), hlf, ?_⟩
    rw [← htrimmed, trimmed, String.toList_ofList]
    exact getLast?_trim_ne (by decide)
  rw [linesOf, hlines, List.map_map]
  exact List.map_id'' (fun s => String.ofList_toList) _

/-- A list that is saved is read back with the same addresses. -/
theorem IsClean.contains_parse_serialize (h : b.IsClean) (other : String) :
    (parse b.serialize).contains other = b.contains other := by
  rw [Bool.eq_iff_iff, contains_parse_iff, h.linesOf_serialize]
  simp only [contains, List.contains_iff_mem]
  constructor
  · rintro ⟨-, l, hl, hsame⟩
    rw [hsame, (h l hl).trimmed_eq]
    exact hl
  · intro hmem
    exact ⟨(h _ hmem).ne_empty, _, hmem, (h _ hmem).trimmed_eq.symm⟩

/-! ## Reading again -/

/-- A list as it is kept: in ascending order, of addresses that are not blank and have no blanks
around them. -/
structure IsTidy (b : BanList) : Prop where
  ascending : b.addresses.Pairwise (· < ·)
  trimmed_eq : ∀ address ∈ b.addresses, trimmed address = address
  ne_empty : ∀ address ∈ b.addresses, address ≠ ""

theorem isTidy_empty : empty.IsTidy :=
  ⟨.nil, fun _ h => absurd h List.not_mem_nil, fun _ h => absurd h List.not_mem_nil⟩

namespace IsTidy

variable {c : BanList}

theorem insert (h : b.IsTidy) (address : String) : (b.insert address).IsTidy := by
  unfold BanList.insert
  dsimp only
  split
  · exact h
  · rename_i hempty
    rw [String.isEmpty_iff] at hempty
    refine ⟨?_, fun entry hentry => ?_, fun entry hentry => ?_⟩
    · refine pairwise_insertAscending String.lt_trans ?_ h.ascending
      intro x y hne hge
      exact Decidable.byContradiction fun hle =>
        hne (String.le_antisymm (String.not_lt.mp hle) (String.not_lt.mp hge))
    · rcases mem_insertAscending.mp hentry with rfl | hentry
      · exact trimmed_trimmed address
      · exact h.trimmed_eq entry hentry
    · rcases mem_insertAscending.mp hentry with rfl | hentry
      · exact hempty
      · exact h.ne_empty entry hentry

/-- Whatever is banned, a list stays tidy. -/
theorem foldl_insert (h : b.IsTidy) (addresses : List String) :
    (addresses.foldl BanList.insert b).IsTidy := by
  induction addresses generalizing b with
  | nil => exact h
  | cons address addresses ih =>
      rw [List.foldl_cons]
      exact ih (h.insert address)

theorem mem_iff (h : b.IsTidy) :
    address ∈ b.addresses ↔ trimmed address = address ∧ b.contains address = true := by
  rw [contains, List.contains_iff_mem]
  constructor
  · intro hmem
    rw [h.trimmed_eq address hmem]
    exact ⟨rfl, hmem⟩
  · rintro ⟨htrimmed, hmem⟩
    rwa [htrimmed] at hmem

/-- Lists that ban the same addresses are the same. -/
theorem eq_of_contains (hb : b.IsTidy) (hc : c.IsTidy)
    (h : ∀ address, b.contains address = c.contains address) : b = c := by
  have haddresses : b.addresses = c.addresses := by
    refine hb.ascending.eq_of_mem_iff hc.ascending fun address => ?_
    rw [hb.mem_iff, hc.mem_iff, h]
  exact congrArg BanList.mk haddresses

/-- The lines of a list on disk are those of its addresses. -/
theorem linesOf_serialize (h : b.IsTidy) : linesOf b.serialize = b.addresses.flatMap linesOf := by
  have hlines : lines (b.serialize).toList = (b.addresses.map String.toList).flatMap lines := by
    rw [serialize, String.toList_intercalate]
    refine lines_intercalate_eq_flatMap fun l hl => ?_
    obtain ⟨address, haddress, rfl⟩ := List.mem_map.mp hl
    refine ⟨fun hnil => h.ne_empty address haddress (String.toList_eq_nil_iff.mp hnil), ?_⟩
    rw [← h.trimmed_eq address haddress, trimmed, String.toList_ofList]
    exact ⟨getLast?_trim_ne (by decide), getLast?_trim_ne (by decide)⟩
  rw [linesOf, hlines, List.flatMap_map, List.map_flatMap]
  rfl

/-- A list that is read again bans who is on a line of one of its addresses. -/
theorem contains_parse_serialize_iff (h : b.IsTidy) :
    (parse b.serialize).contains other = true ↔
      trimmed other ≠ "" ∧ ∃ address ∈ b.addresses, ∃ l ∈ linesOf address,
        trimmed other = trimmed l := by
  rw [contains_parse_iff, h.linesOf_serialize]
  refine and_congr_right' ?_
  constructor
  · rintro ⟨l, hl, hsame⟩
    obtain ⟨address, haddress, hline⟩ := List.mem_flatMap.mp hl
    exact ⟨address, haddress, l, hline, hsame⟩
  · rintro ⟨address, haddress, l, hline, hsame⟩
    exact ⟨l, List.mem_flatMap.mpr ⟨address, haddress, hline⟩, hsame⟩

end IsTidy

theorem isTidy_parse (text : String) : (parse text).IsTidy :=
  isTidy_empty.foldl_insert (linesOf text)

/-- Only a list of addresses that fit on a line is read back. -/
theorem IsTidy.parse_serialize_eq_iff (h : b.IsTidy) :
    parse b.serialize = b ↔ ∀ address ∈ b.addresses, '\n' ∉ address.toList := by
  constructor
  · intro hsame address haddress
    rw [← hsame] at haddress
    exact (isClean_parse b.serialize address haddress).lineFeed_not_mem
  · intro hlf
    have hclean : b.IsClean := fun address haddress =>
      ⟨h.trimmed_eq address haddress, h.ne_empty address haddress, hlf address haddress⟩
    exact (isTidy_parse _).eq_of_contains h hclean.contains_parse_serialize

theorem mem_addresses_foldl_insert_iff (h : b.IsTidy) {ls : List String} :
    address ∈ (ls.foldl insert b).addresses ↔
      address ∈ b.addresses ∨ address ≠ "" ∧ ∃ l ∈ ls, address = trimmed l := by
  rw [(h.foldl_insert ls).mem_iff, h.mem_iff, contains_foldl_insert_iff, and_or_left]
  refine or_congr_right ?_
  constructor
  · rintro ⟨htrimmed, hne, l, hl, hsame⟩
    rw [htrimmed] at hne hsame
    exact ⟨hne, l, hl, hsame⟩
  · rintro ⟨hne, l, hl, rfl⟩
    rw [trimmed_trimmed]
    exact ⟨rfl, hne, l, hl, rfl⟩

/-- Whatever was banned in addition to a text that was read: the list is read back as it was saved
exactly if none of these addresses has a line feed between its blanks. In any case it bans, when it
is read back, who is on a line of one of its addresses. -/
theorem reread_eq_iff (text : String) (addresses : List String) :
    let b := addresses.foldl insert (parse text)
    (parse b.serialize = b ↔ ∀ address ∈ addresses, '\n' ∉ (trimmed address).toList) ∧
      ((∀ other, (parse b.serialize).contains other = b.contains other) ↔
        ∀ address ∈ addresses, '\n' ∉ (trimmed address).toList) ∧
      ∀ other, (parse b.serialize).contains other = true ↔
        trimmed other ≠ "" ∧ ∃ address ∈ b.addresses, ∃ l ∈ linesOf address,
          trimmed other = trimmed l := by
  intro b
  have hread := isTidy_parse text
  have hb : b.IsTidy := hread.foldl_insert addresses
  have hfits : (∀ address ∈ b.addresses, '\n' ∉ address.toList) ↔
      ∀ address ∈ addresses, '\n' ∉ (trimmed address).toList := by
    constructor
    · intro hlf address haddress
      by_cases hempty : trimmed address = ""
      · rw [hempty]
        exact List.not_mem_nil
      · exact hlf _ ((mem_addresses_foldl_insert_iff hread).mpr
          (.inr ⟨hempty, address, haddress, rfl⟩))
    · intro hlf address haddress
      rcases (mem_addresses_foldl_insert_iff hread).mp haddress with hold | ⟨-, l, hl, rfl⟩
      · exact (isClean_parse text address hold).lineFeed_not_mem
      · exact hlf l hl
  have hsame : parse b.serialize = b ↔
      ∀ other, (parse b.serialize).contains other = b.contains other := by
    refine ⟨fun hsame other => by rw [hsame], (isTidy_parse _).eq_of_contains hb⟩
  have heq := hb.parse_serialize_eq_iff.trans hfits
  exact ⟨heq, hsame.symm.trans heq, fun other => hb.contains_parse_serialize_iff⟩

/-- An address of two lines is banned as one, and read back as two. -/
theorem two_lines_not_reread :
    let b := ["::1\n::2"].foldl insert (parse "")
    b.contains "::1\n::2" = true ∧ b.contains "::2" = false ∧
      (parse b.serialize).contains "::1\n::2" = false ∧
      (parse b.serialize).contains "::2" = true ∧ parse b.serialize ≠ b := by
  decide +kernel

end BanList

end Admission

end CoreArena
