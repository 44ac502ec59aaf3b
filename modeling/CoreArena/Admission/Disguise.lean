import CoreArena.Text.Blank
import CoreArena.Text.Letters

/-! Abusive names, also when they are disguised.

A name is abusive if somewhere in it the letters of a listed term stand in order, each one or more
times and each possibly replaced by a look-alike, with nothing but separators between them. -/

namespace CoreArena.Admission

open Text

def builtinTerms : List String :=
  ["fuck", "shit", "cunt", "bitch", "whore", "slut", "nazi", "rape", "asshole", "bastard", "wank",
    "twat"]

/-- The characters that may be written for a letter, in any case. -/
def lookAlikes : Char → List Char
  | 'a' => ['a', '4', '@']
  | 'b' => ['b', '8']
  | 'e' => ['e', '3']
  | 'g' => ['g', '9']
  | 'i' => ['i', '1', '!', 'l', '|']
  | 'l' => ['l', '1', '|', 'i']
  | 'o' => ['o', '0']
  | 's' => ['s', '5', '$', 'z']
  | 't' => ['t', '7', '+']
  | 'z' => ['z', '2']
  | c => [c]

def readsAs (letter c : Char) : Bool :=
  (lookAlikes letter).any fun l => fold l == fold c

def isSeparator (c : Char) : Bool :=
  isBlank c || ['.', '_', '-', '*'].contains c

/-- The letters and digits of a term, which are all that counts of it. -/
def letters (term : String) : List Char :=
  (lower (trim term.toList)).filter isAlphanumeric

/-- How far a term has been read: the letter being repeated, if the last character was no
separator, and the letters still to come. -/
structure Progress where
  repeating : Option Char
  ahead : List Char
  deriving DecidableEq

namespace Progress

def start (ls : List Char) : Progress :=
  ⟨none, ls⟩

def isDone (p : Progress) : Bool :=
  p.ahead.isEmpty

/-- The ways to read one more character: as the same letter, as the next one, as a separator. -/
def step (c : Char) (p : Progress) : List Progress :=
  (match p.repeating with
    | some l => if readsAs l c then [p] else []
    | none => []) ++
  (match p.ahead with
    | l :: ls => if readsAs l c then [⟨some l, ls⟩] else []
    | [] => []) ++
  (if isSeparator c then [⟨none, p.ahead⟩] else [])

end Progress

/-- Whether, from some of the given ways to have read a text so far or by starting anew anywhere
in the rest, all letters can be read. -/
def readsThrough (ls : List Char) : List Progress → List Char → Bool
  | _, [] => false
  | ps, c :: cs =>
    let next := ((Progress.start ls :: ps).flatMap (Progress.step c)).eraseDups
    next.any Progress.isDone || readsThrough ls next cs

/-- Whether a text contains letters in disguise. No letters are contained nowhere. -/
def contains (ls : List Char) (text : List Char) : Bool :=
  !ls.isEmpty && readsThrough ls [] text

/-- The terms that names are checked against. -/
structure NameMatcher where
  terms : List String
  deriving DecidableEq, Repr

namespace NameMatcher

/-- Adds a term, trimmed and in lower case, unless it is blank or there already. -/
def insert (m : NameMatcher) (term : String) : NameMatcher :=
  let term := String.ofList (lower (trim term.toList))
  if term.isEmpty || m.terms.contains term then m else ⟨m.terms ++ [term]⟩

def builtin : NameMatcher :=
  ⟨builtinTerms⟩

def ofExtra (extra : List String) : NameMatcher :=
  extra.foldl insert builtin

/-- The built-in terms and one for each line of a word list. -/
def ofWordList (text : String) : NameMatcher :=
  ofExtra (linesOf text)

def rejects (m : NameMatcher) (name : String) : Bool :=
  m.terms.any fun term => contains (letters term) name.toList

end NameMatcher

end CoreArena.Admission
