import CoreArena.Admission.Worm
import CoreArena.Admission.Disguise
import CoreArena.Admission.BanList

/-! What a submission has to pass before it reaches an arena. -/

namespace CoreArena.Admission

inductive Rejection where
  | badProgram (verdict : Verdict)
  | badName (name : String)
  | banned (address : String)
  deriving DecidableEq, Repr

namespace Rejection

def message : Rejection → String
  | badProgram verdict => s!"bytecode {verdict.text}"
  | badName name => s!"blacklisted name `{name}`"
  | banned address => s!"banned address {address}"

/-- What the submitter is told. It does not tell what was found. -/
def reason : Rejection → String
  | badProgram _ => "program rejected by the content filter"
  | badName _ => "this name is not allowed"
  | banned _ => "submissions from your address are not accepted"

/-- Whether the submitter's address is to be banned: that of worm authors is. -/
def shouldBan : Rejection → Bool
  | badProgram .simpleWorm | badProgram .wormFragment => true
  | _ => false

end Rejection

/-- Which names and addresses are not wanted. -/
structure Filter where
  names : NameMatcher
  bans : BanList
  deriving DecidableEq, Repr

namespace Filter

def builtin : Filter := ⟨.builtin, .empty⟩

/-- What is wrong with a submission, if anything is: first its address, then its name, then its
program. -/
def refuses? (f : Filter) (name : String) (bytes : List UInt8) (address : Option String) :
    Option Rejection :=
  match address.filter f.bans.contains with
  | some address => some (.banned address)
  | none =>
    if f.names.rejects name then some (.badName name)
    else (verdict? bytes).map .badProgram

end Filter

end CoreArena.Admission
