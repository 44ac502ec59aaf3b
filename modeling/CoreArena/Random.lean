/-! Random draws.

A source yields 64-bit words one after another; all draws are made from them. A draw from a range
multiplies a word by the size of the range and takes the upper part, and draws again where the lower
part shows that the word would favour some values. -/

namespace CoreArena

class RandomSource (γ : Type) where
  next : γ → UInt64 × γ

abbrev Draw (γ α : Type) := StateM γ α

namespace Draw

variable {γ : Type} [RandomSource γ]

def word : Draw γ Nat := fun g =>
  let (w, g) := RandomSource.next g
  (w.toNat, g)

def halfWord : Draw γ Nat := do
  return (← word) / UInt32.size

/-- The greatest lower part of a product that is accepted when words are below a span: as many
words are then accepted for each value of the range as for any other. -/
def zone (span size : Nat) : Nat :=
  size <<< (Nat.log2 span - (Nat.log2 size + 1)) - 1

/-- A number below a size from words below a span. Only so many tries are made; the last one
counts. -/
def scaled (span size : Nat) (source : Draw γ Nat) : Nat → Draw γ Nat
  | 0 => do return (← source) * size / span
  | tries + 1 => do
    let product := (← source) * size
    if product % span ≤ zone span size then
      return product / span
    else
      scaled span size source tries

/-- How often a draw is repeated. One try fails less than half of the time. -/
def maxTries : Nat := 256

/-- A number below a size, from whole words. -/
def below (size : Nat) : Draw γ Nat :=
  scaled UInt64.size size word maxTries

/-- A number from a range that leaves out its end, from half words. -/
def between (low high : Nat) : Draw γ Nat := do
  return low + (← scaled UInt32.size (high - low) halfWord maxTries)

/-- True with a chance of so many in `2 ^ 64`. -/
def chance (threshold : Nat) : Draw γ Bool := do
  return (← word) < threshold

/-- Whether a random number from zero to one lies above so many quarters. The number has 53 bits. -/
def aboveQuarters (quarters : Nat) : Draw γ Bool := do
  return quarters * 0x8000000000000 < (← word) / 0x800

/-! ### Laws -/

theorem word_lt (g : γ) : (word g).1 < UInt64.size :=
  (RandomSource.next g).1.toNat_lt

theorem halfWord_lt (g : γ) : (halfWord g).1 < UInt32.size :=
  Nat.div_lt_of_lt_mul (word_lt g)

/-- A draw from a range stays in it, whatever the source yields. -/
theorem scaled_lt {δ : Type} {span size : Nat} (hsize : 0 < size) {source : Draw δ Nat}
    (hsource : ∀ g, (source g).1 < span) (tries : Nat) (g : δ) :
    (scaled span size source tries g).1 < size := by
  have hlt (g : δ) : (source g).1 * size / span < size :=
    Nat.div_lt_of_lt_mul (Nat.mul_lt_mul_of_pos_right (hsource g) hsize)
  induction tries generalizing g with
  | zero => exact hlt g
  | succ tries ih =>
    change ((if _ then _ else _ : Draw δ Nat) _).1 < size
    split
    · exact hlt g
    · exact ih _

theorem below_lt {size : Nat} (h : 0 < size) (g : γ) : (below size g).1 < size :=
  scaled_lt h word_lt maxTries g

theorem between_mem {low high : Nat} (h : low < high) (g : γ) :
    low ≤ (between low high g).1 ∧ (between low high g).1 < high := by
  have hlt := scaled_lt (Nat.sub_pos_of_lt h) halfWord_lt maxTries g
  have heq : (between low high g).1 =
      low + (scaled UInt32.size (high - low) halfWord maxTries g).1 := rfl
  omega

end Draw

/-- The generator xoshiro256++: four words of state. -/
structure Xoshiro where
  s0 : UInt64
  s1 : UInt64
  s2 : UInt64
  s3 : UInt64
  deriving DecidableEq, Repr

namespace Xoshiro

/-- Rotation to the left by less than 64 bits. -/
def rotateLeft (w : UInt64) (bits : UInt64) : UInt64 :=
  (w <<< bits) ||| (w >>> (64 - bits))

def next (g : Xoshiro) : UInt64 × Xoshiro :=
  let t := g.s1 <<< 17
  let s2 := g.s2 ^^^ g.s0
  let s3 := g.s3 ^^^ g.s1
  (rotateLeft (g.s0 + g.s3) 23 + g.s0,
    { s0 := g.s0 ^^^ s3, s1 := g.s1 ^^^ s2, s2 := s2 ^^^ t, s3 := rotateLeft s3 45 })

instance : RandomSource Xoshiro := ⟨next⟩

/-- One step of the seeding sequence, a permuted linear congruence: 32 bits and the state. -/
def seedStep (state : UInt64) : UInt32 × UInt64 :=
  let state := state * 6364136223846793005 + 11634580027462260723
  let bits := (((state >>> 18) ^^^ state) >>> 27).toUInt32
  let turn := (state >>> 59).toUInt32
  ((bits >>> turn) ||| (bits <<< (32 - turn)), state)

/-- A state word from two steps of the seeding sequence, the lower half first. -/
def seedWord (state : UInt64) : UInt64 × UInt64 :=
  let (low, state) := seedStep state
  let (high, state) := seedStep state
  (low.toUInt64 ||| (high.toUInt64 <<< 32), state)

def ofSeed (seed : UInt64) : Xoshiro :=
  let (s0, state) := seedWord seed
  let (s1, state) := seedWord state
  let (s2, state) := seedWord state
  let (s3, _) := seedWord state
  ⟨s0, s1, s2, s3⟩

end Xoshiro

end CoreArena
