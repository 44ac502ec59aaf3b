/-! Blank characters, and cutting a text into lines and words.

Texts under analysis are lists of characters. Line ends are line feeds, each with at most one
carriage return before it. -/

namespace CoreArena.Text

/-- The characters of the Unicode property White_Space. -/
def isBlank (c : Char) : Bool :=
  let n := c.toNat
  (9 ≤ n && n ≤ 13) || n == 0x20 || n == 0x85 || n == 0xA0 || n == 0x1680 ||
    (0x2000 ≤ n && n ≤ 0x200A) || n == 0x2028 || n == 0x2029 || n == 0x202F ||
    n == 0x205F || n == 0x3000

def trimStart (cs : List Char) : List Char :=
  cs.dropWhile isBlank

def trimEnd (cs : List Char) : List Char :=
  (cs.reverse.dropWhile isBlank).reverse

def trim (cs : List Char) : List Char :=
  trimEnd (trimStart cs)

/-- The first maximal run of characters that are not blank. -/
def firstWord (cs : List Char) : List Char :=
  (trimStart cs).takeWhile fun c => !isBlank c

/-- The lines of a text. A line feed closes a line, together with one carriage return before it;
what follows the last line feed is a line of its own unless it is empty. -/
def lines : List Char → List (List Char)
  | [] => []
  | '\n' :: cs => [] :: lines cs
  | '\r' :: '\n' :: cs => [] :: lines cs
  | c :: cs =>
    match lines cs with
    | [] => [[c]]
    | l :: ls => (c :: l) :: ls

/-- What is left of a text that opens with the given phrase. -/
def afterPhrase? : List Char → List Char → Option (List Char)
  | [], cs => some cs
  | _ :: _, [] => none
  | p :: ps, c :: cs => if p = c then afterPhrase? ps cs else none

def trimmed (s : String) : String :=
  String.ofList (trim s.toList)

def linesOf (s : String) : List String :=
  (lines s.toList).map String.ofList

/-! ### Laws -/

/-- What is left by trimming opens with no blank. -/
theorem not_isBlank_of_trimStart {cs : List Char} {c : Char} {rest : List Char}
    (h : trimStart cs = c :: rest) : isBlank c = false := by
  have := List.head?_dropWhile_not isBlank cs
  rw [show cs.dropWhile isBlank = c :: rest from h] at this
  simpa using this

theorem trimStart_append_of_blank {bs : List Char} (h : ∀ b ∈ bs, isBlank b = true)
    (cs : List Char) : trimStart (bs ++ cs) = trimStart cs :=
  List.dropWhile_append_of_pos h

@[simp] theorem trimStart_trimStart (cs : List Char) : trimStart (trimStart cs) = trimStart cs := by
  cases h : trimStart cs with
  | nil => rfl
  | cons c rest => exact List.dropWhile_cons_of_neg (by simp [not_isBlank_of_trimStart h])

/-- A phrase and what follows it are the whole text. -/
theorem afterPhrase?_eq_some_iff {ps cs rest : List Char} :
    afterPhrase? ps cs = some rest ↔ cs = ps ++ rest := by
  induction ps generalizing cs with
  | nil => simp [afterPhrase?]
  | cons p ps ih =>
    cases cs with
    | nil => simp [afterPhrase?]
    | cons c cs =>
      unfold afterPhrase?
      split
      · next h => simp [ih, h]
      · next h => simp [Ne.symm h]

end CoreArena.Text
