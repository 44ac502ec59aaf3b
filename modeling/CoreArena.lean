import CoreArena.Main
import CoreArena.Audience
import CoreArena.Sandbox
import CoreArena.Proofs.Battle.Fairness
import CoreArena.Proofs.Battle.Quota
import CoreArena.Proofs.Battle.Semantics
import CoreArena.Proofs.Battle.Rotation
import CoreArena.Proofs.Battle.Lifting
import CoreArena.Proofs.Battle.Exhaustion
import CoreArena.Proofs.Battle.Verdict
import CoreArena.Proofs.Battle.Frame
import CoreArena.Proofs.Battle.Fatality
import CoreArena.Proofs.Battle.Survivor
import CoreArena.Proofs.Shard.Books
import CoreArena.Proofs.Shard.Round
import CoreArena.Proofs.Shard.LostTurn
import CoreArena.Proofs.Shard.Scores
import CoreArena.Proofs.Shard.Display
import CoreArena.Proofs.Shard.Names
import CoreArena.Proofs.Shard.NameCheck
import CoreArena.Proofs.Shard.Refusal
import CoreArena.Proofs.Shard.Gap
import CoreArena.Proofs.Shard.TopUp
import CoreArena.Proofs.Instruction.Encoding
import CoreArena.Proofs.Source.Statement
import CoreArena.Proofs.Source.Wording
import CoreArena.Proofs.Source.Sequence
import CoreArena.Proofs.Source.Listing
import CoreArena.Proofs.Source.Acceptance
import CoreArena.Proofs.Source.Completion
import CoreArena.Proofs.Source.Interchange
import CoreArena.Proofs.Source.Canonical
import CoreArena.Proofs.Source.Operand
import CoreArena.Proofs.Admission.SelfCopy
import CoreArena.Proofs.World.Newcomer
import CoreArena.Proofs.World.Exile
import CoreArena.Proofs.World.Registry
import CoreArena.Proofs.Admission.Update
import CoreArena.Proofs.Admission.OwnTerm
import CoreArena.Proofs.Admission.Reload
import CoreArena.Proofs.World.Replay
import CoreArena.Proofs.World.Conviction
import CoreArena.Proofs.World.Layout
import CoreArena.Proofs.Picture.Minimal
import CoreArena.Proofs.Picture.Extended
import CoreArena.Proofs.Sandbox.LifeCycle
import CoreArena.Proofs.World.Containment
import CoreArena.Proofs.World.Namesake
