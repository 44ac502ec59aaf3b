import CoreArena.Instruction.Word

/-! Programs as bytes: four for each word, the lowest first. -/

namespace CoreArena.Bytecode

/-- The bytes of a word, lowest first. -/
def ofWord (w : Word) : List UInt8 :=
  [.ofNat (w.toInt % 256).toNat, .ofNat (w.toInt / 0x100 % 256).toNat,
    .ofNat (w.toInt / 0x10000 % 256).toNat, .ofNat (w.toInt / 0x1000000 % 256).toNat]

def encode (ws : List Word) : List UInt8 :=
  ws.flatMap ofWord

/-- The word of four bytes, lowest first. -/
def word (a b c d : UInt8) : Word :=
  .ofInt (a.toNat + b.toNat * 0x100 + c.toNat * 0x10000 + d.toNat * 0x1000000)

/-- The words of a byte string, unless some bytes are left over. -/
def decode? : List UInt8 → Option (List Word)
  | [] => some []
  | a :: b :: c :: d :: bs => (decode? bs).map (word a b c d :: ·)
  | _ => none

/-! ### Laws -/

@[simp] theorem length_encode (ws : List Word) : (encode ws).length = 4 * ws.length := by
  induction ws with
  | nil => rfl
  | cons w ws ih => simp_all [encode, ofWord]; omega

/-- The bytes of a word put together again. -/
theorem word_ofWord (w : Word) :
    word (.ofNat (w.toInt % 256).toNat) (.ofNat (w.toInt / 0x100 % 256).toNat)
      (.ofNat (w.toInt / 0x10000 % 256).toNat) (.ofNat (w.toInt / 0x1000000 % 256).toNat) = w := by
  have hl := w.le_toInt
  have hh := w.toInt_lt
  apply Int32.toInt_inj.mp
  unfold word
  rw [Int32.toInt_ofInt, show Int32.size = 4294967296 from rfl, Int.bmod_def]
  simp only [UInt8.toNat_ofNat']
  omega

/-- Programs survive being stored. -/
@[simp] theorem decode?_encode (ws : List Word) : decode? (encode ws) = some ws := by
  induction ws with
  | nil => rfl
  | cons w ws ih =>
    change (decode? (encode ws)).map (_ :: ·) = _
    rw [ih, Option.map_some, word_ofWord]

end CoreArena.Bytecode
