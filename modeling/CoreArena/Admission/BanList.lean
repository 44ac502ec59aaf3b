import CoreArena.Text.Blank
import CoreArena.Ascending

/-! Banned addresses. On disk there is one on each line. -/

namespace CoreArena.Admission

/-- Addresses that may not submit programs, in ascending order. -/
structure BanList where
  addresses : List String
  deriving DecidableEq, Repr

namespace BanList

def empty : BanList := ⟨[]⟩

/-- Whether an address is banned, blanks around it aside. -/
def contains (b : BanList) (address : String) : Bool :=
  b.addresses.contains (Text.trimmed address)

/-- Adds an address without the blanks around it, unless nothing is left of it. -/
def insert (b : BanList) (address : String) : BanList :=
  let address := Text.trimmed address
  if address.isEmpty then b else ⟨insertAscending address b.addresses⟩

/-- Whether adding an address would change the list. -/
def admits (b : BanList) (address : String) : Bool :=
  !(Text.trimmed address).isEmpty && !b.contains address

def parse (text : String) : BanList :=
  (Text.linesOf text).foldl insert empty

def serialize (b : BanList) : String :=
  "\n".intercalate b.addresses

end BanList

end CoreArena.Admission
