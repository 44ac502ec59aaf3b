import CoreArena.Admission.Filter
import CoreArena.Disk
import CoreArena.Log

/-! A filter whose lists are kept in files.

An update that fails changes nothing. A ban is on disk before it counts. -/

namespace CoreArena.Admission

/-- A filter and the files that back its lists, as far as any do. -/
structure Gate where
  filter : Filter
  namesPath : Option String
  bansPath : Option String
  deriving DecidableEq, Repr

namespace Gate

/-- The built-in names, and bans that are only remembered. -/
def inMemory : Gate := ⟨.builtin, none, none⟩

/-- The text of a file that need not be given and need not be there. -/
def contents? (d : Disk) : Option String → Except FileError (Option String)
  | none => .ok none
  | some path => d.readText? path

/-- Takes over a word list. Without one only the built-in terms are left. -/
def installNames (g : Gate) (text : Option String) : Gate :=
  { g with filter.names := .ofWordList (text.getD "") }

/-- Takes over a ban list. Without one the list stays. -/
def installBans (g : Gate) : Option String → Gate
  | none => g
  | some text => { g with filter.bans := .parse text }

def refreshNames (g : Gate) (d : Disk) : Except FileError Gate :=
  (contents? d g.namesPath).map g.installNames

def refreshBans (g : Gate) (d : Disk) : Except FileError Gate :=
  (contents? d g.bansPath).map g.installBans

/-- A gate with a word list and a ban list in files, read at once. -/
def withFiles (namesPath bansPath : String) (d : Disk) : Except FileError Gate := do
  let g ← refreshNames ⟨.builtin, some namesPath, some bansPath⟩ d
  g.refreshBans d

/-- Bans an address and saves the list. Tells whether it was not banned before; a blank address
never is. -/
def ban (g : Gate) (d : Disk) (address : String) : Except FileError (Bool × Gate × Disk) :=
  if g.filter.bans.admits address then
    let bans := g.filter.bans.insert address
    let g' := { g with filter.bans := bans }
    match g.bansPath with
    | none => .ok (true, g', d)
    | some path =>
      match d.writeText path bans.serialize with
      | .error fault => .error ⟨path, fault⟩
      | .ok d => .ok (true, g', d)
  else
    .ok (false, g, d)

def banEntry (address : String) : Log.Entry :=
  Log.info s!"banned {Text.trimmed address}"

end Gate

end CoreArena.Admission
