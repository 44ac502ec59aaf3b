/-! Decimal numerals: reading a run of digits and writing a number. -/

namespace CoreArena.Text

def digitChar (n : Nat) : Char :=
  Char.ofNat ('0'.toNat + n)

def digitValue (c : Char) : Nat :=
  c.toNat - '0'.toNat

/-- The decimal numeral of a number, without leading zeros. -/
def numeral (n : Nat) : List Char :=
  if n < 10 then [digitChar n] else numeral (n / 10) ++ [digitChar (n % 10)]

/-- The decimal numeral of an integer: a minus sign before a negative one, nothing before others. -/
def signedNumeral : Int → List Char
  | .ofNat n => numeral n
  | .negSucc n => '-' :: numeral (n + 1)

/-- The number written by a run of digits; leading zeros do not count. -/
def numeralValue (ds : List Char) : Nat :=
  ds.foldl (fun n d => 10 * n + digitValue d) 0

/-- Reads an unsigned numeral below a bound: an optional plus sign, then digits only. -/
def readBelow? (bound : Nat) (s : String) : Option Nat :=
  let ds := match s.toList with
    | '+' :: ds => ds
    | ds => ds
  if ds ≠ [] ∧ ds.all Char.isDigit ∧ numeralValue ds < bound then some (numeralValue ds) else none

def padLeft (width : Nat) (fill : Char) (cs : List Char) : List Char :=
  List.replicate (width - cs.length) fill ++ cs

def padRight (width : Nat) (fill : Char) (cs : List Char) : List Char :=
  cs ++ List.replicate (width - cs.length) fill

/-! ### Laws -/

theorem digitValue_digitChar {n : Nat} (h : n < 10) : digitValue (digitChar n) = n := by
  match n, h with
  | 0, _ | 1, _ | 2, _ | 3, _ | 4, _ | 5, _ | 6, _ | 7, _ | 8, _ | 9, _ => rfl

theorem isDigit_digitChar {n : Nat} (h : n < 10) : (digitChar n).isDigit = true := by
  match n, h with
  | 0, _ | 1, _ | 2, _ | 3, _ | 4, _ | 5, _ | 6, _ | 7, _ | 8, _ | 9, _ => rfl

theorem numeralValue_concat (ds : List Char) (d : Char) :
    numeralValue (ds ++ [d]) = 10 * numeralValue ds + digitValue d := by
  simp [numeralValue]

/-- A numeral reads back as its number. -/
@[simp] theorem numeralValue_numeral (n : Nat) : numeralValue (numeral n) = n := by
  fun_induction numeral n with
  | case1 n h => simp [numeralValue, digitValue_digitChar h]
  | case2 n h ih =>
    rw [numeralValue_concat, ih, digitValue_digitChar (Nat.mod_lt _ (by omega))]
    omega

/-- A numeral consists of digits. -/
theorem isDigit_of_mem_numeral {n : Nat} {d : Char} (h : d ∈ numeral n) : d.isDigit = true := by
  fun_induction numeral n with
  | case1 n hn =>
    obtain rfl := List.mem_singleton.mp h
    exact isDigit_digitChar hn
  | case2 n hn ih =>
    rcases List.mem_append.mp h with h | h
    · exact ih h
    · obtain rfl := List.mem_singleton.mp h
      exact isDigit_digitChar (Nat.mod_lt _ (by omega))

theorem numeral_ne_nil (n : Nat) : numeral n ≠ [] := by
  unfold numeral
  split <;> simp

theorem length_padLeft (width : Nat) (fill : Char) (cs : List Char) :
    (padLeft width fill cs).length = max width cs.length := by
  simp [padLeft]
  omega

theorem length_padRight (width : Nat) (fill : Char) (cs : List Char) :
    (padRight width fill cs).length = max width cs.length := by
  simp [padRight]
  omega

end CoreArena.Text
