import CoreArena.Proofs.Battle.Access

/-! # Arenas that look alike

A symmetry gives the cells of a ring other places and the programs other numbers. Distances stay,
and nobody stays nobody. Two arenas are twins under a symmetry if each cell of one is the image of
a cell of the other; every operation on both keeps that. The second of two twins has the limits of
the first, or none at all. -/

namespace CoreArena

/-- Other numbers for programs. Different programs keep different ones, and nobody stays nobody. -/
structure Renaming where
  rename : Nat → Nat
  injective : Function.Injective rename
  rename_zero : rename 0 = 0

/-- Other places for the cells of a ring and other numbers for programs. -/
structure Symmetry (size : Nat) extends Renaming where
  place : Nat → Nat
  /-- What is at a distance stays at that distance. -/
  place_add : ∀ i < size, ∀ distance : Int,
    place ((i + distance) % size).toNat = ((place i + distance) % size).toNat

namespace Renaming

variable (f : Renaming) {i j : Nat}

theorem rename_inj : f.rename i = f.rename j ↔ i = j :=
  f.injective.eq_iff

theorem rename_eq_zero : f.rename i = 0 ↔ i = 0 := by
  have h := f.rename_inj (i := i) (j := 0)
  rwa [f.rename_zero] at h

/-- The ring turned by so many cells. -/
def rotation (size shift : Nat) : Symmetry size where
  toRenaming := f
  place i := (i + shift) % size
  place_add i hi distance := by
    have hpos : (0 : Int) < size := by omega
    have hnonneg : ∀ n : Int, 0 ≤ n % size := fun n => Int.emod_nonneg n (Int.ne_of_gt hpos)
    apply Int.ofNat.inj
    calc ((((i : Int) + distance) % size).toNat + shift : Int) % size
        = ((i + distance) % size + shift) % size := by rw [Int.toNat_of_nonneg (hnonneg _)]
      _ = (i + distance + shift) % size := Int.emod_add_emod ..
      _ = (i + shift + distance) % size := by rw [Int.add_right_comm]
      _ = ((i + shift) % size + distance) % size := (Int.emod_add_emod ..).symm
      _ = ((((i + shift) % size : Nat) + distance) % size).toNat := by
        rw [Int.toNat_of_nonneg (hnonneg _), Int.natCast_emod, Int.natCast_add]

end Renaming

namespace Symmetry

variable {size : Nat} (σ : Symmetry size) {i j : Nat}

/-- Everything stays as it is. -/
def identity (size : Nat) : Symmetry size where
  rename := id
  injective := Function.injective_id
  rename_zero := rfl
  place := id
  place_add _ _ _ := rfl

/-! ## Places -/

theorem place_lt (hi : i < size) : σ.place i < size := by
  have hself := σ.place_add i hi 0
  rw [Int.add_zero, ← Int.natCast_emod, Int.toNat_natCast, Nat.mod_eq_of_lt hi] at hself
  rw [hself]
  exact Arena.toNat_emod_lt (Nat.zero_lt_of_lt hi) _

/-- Two cells have the same place only if they are the same. -/
theorem place_inj (hi : i < size) (hj : j < size) : σ.place i = σ.place j ↔ i = j := by
  refine ⟨fun h => ?_, congrArg σ.place⟩
  -- The cell `j` is at some distance from `i`, and the two places are at that distance, too.
  have hdistance := σ.place_add i hi (j - i)
  have hj' : ((i + (j - i) : Int) % size).toNat = j := by
    rw [Int.add_comm, Int.sub_add_cancel, ← Int.natCast_emod, Int.toNat_natCast,
      Nat.mod_eq_of_lt hj]
  rw [hj', ← h] at hdistance
  have hnonneg := Int.emod_nonneg (σ.place i + (j - i) : Int) (b := size) (by omega)
  have hdvd := Int.dvd_self_sub_of_emod_eq (a := (σ.place i + (j - i) : Int)) (b := size)
    (c := σ.place i) (by omega)
  have hzero := Int.eq_zero_of_dvd_of_natAbs_lt_natAbs hdvd (by omega)
  omega

theorem place_mod (hi : i < size) (k : Nat) :
    σ.place ((i + k) % size) = (σ.place i + k) % size := by
  have h := σ.place_add i hi k
  rwa [← Int.natCast_add, ← Int.natCast_add, ← Int.natCast_emod, ← Int.natCast_emod,
    Int.toNat_natCast, Int.toNat_natCast] at h

/-! ## Images -/

def cell (c : Cell) : Cell :=
  { c with owner := σ.rename c.owner }

def event : Event → Event
  | .killed victim killer reason place =>
    .killed (σ.rename victim) (σ.rename killer) reason (place.map σ.place)
  | .read program address => .read (σ.rename program) (σ.place address)
  | .written program address => .written (σ.rename program) (σ.place address)
  | .cycle program address => .cycle (σ.rename program) (σ.place address)
  | .foreign executor author => .foreign (σ.rename executor) (σ.rename author)

def executor (x : Executor) : Executor :=
  ⟨σ.rename x.program, σ.place x.position, σ.rename x.writer⟩

end Symmetry

variable {size : Nat} {σ : Symmetry size} {lifted : Bool}

/-! ## Arenas -/

/-- Each cell of the second arena is the image of a cell of the first. Its limits are the same, or
they are lifted. -/
structure Arena.Twin (σ : Symmetry size) (lifted : Bool) (a a' : Arena) : Prop where
  size_eq : a.size = size
  size_eq' : a'.size = size
  maxWrites_eq : a'.maxWrites = if lifted then 0 else a.maxWrites
  maxReads_eq : a'.maxReads = if lifted then 0 else a.maxReads
  cell_eq : ∀ i < size, a'.cell (σ.place i) = σ.cell (a.cell i)

namespace Arena.Twin

variable {a a' : Arena} {i : Nat}

theorem isDead_eq (h : Twin σ lifted a a') (hi : i < size) :
    a'.isDead (σ.place i) = (!lifted && a.isDead i) := by
  unfold isDead
  rw [h.cell_eq i hi, h.maxWrites_eq, h.maxReads_eq]
  cases lifted <;> simp [isUsedUp, Symmetry.cell]

theorem offset_eq (h : Twin σ lifted a a') (hi : i < size) (distance : Int) :
    a'.offset (σ.place i) distance = σ.place (a.offset i distance) := by
  unfold offset wrap
  rw [h.size_eq, h.size_eq', σ.place_add i hi]

theorem offset_lt (h : Twin σ lifted a a') (hi : i < size) (distance : Int) :
    a.offset i distance < size := by
  have hpos : 0 < a.size := by
    rw [h.size_eq]
    exact Nat.zero_lt_of_lt hi
  rw [← h.size_eq]
  exact Arena.offset_lt hpos i distance

theorem update (h : Twin σ lifted a a') (hi : i < size) (f f' : Cell → Cell)
    (hf : ∀ c, f' (σ.cell c) = σ.cell (f c)) :
    Twin σ lifted (a.update i f) (a'.update (σ.place i) f') where
  size_eq := (a.size_update i f).trans h.size_eq
  size_eq' := (a'.size_update _ f').trans h.size_eq'
  maxWrites_eq := h.maxWrites_eq
  maxReads_eq := h.maxReads_eq
  cell_eq j hj := by
    by_cases hij : i = j
    · subst hij
      have hi' : i < a.size := by rwa [h.size_eq]
      have hplace : σ.place i < a'.size := by
        rw [h.size_eq']
        exact σ.place_lt hi
      rw [cell_update_self hi', cell_update_self hplace, h.cell_eq i hi, hf]
    · have hplace : σ.place i ≠ σ.place j := mt (σ.place_inj hi hj).mp hij
      rw [cell_update_of_ne a hij, cell_update_of_ne a' hplace, h.cell_eq j hj]

theorem clearOwner (h : Twin σ lifted a a') (program : Nat) :
    Twin σ lifted (a.clearOwner program) (a'.clearOwner (σ.rename program)) where
  size_eq := (a.size_clearOwner program).trans h.size_eq
  size_eq' := (a'.size_clearOwner _).trans h.size_eq'
  maxWrites_eq := h.maxWrites_eq
  maxReads_eq := h.maxReads_eq
  cell_eq i hi := by
    rw [cell_clearOwner, cell_clearOwner, h.cell_eq i hi]
    by_cases howner : (a.cell i).owner = program
    · simp [Symmetry.cell, howner, σ.rename_zero]
    · simp [Symmetry.cell, howner, σ.rename_inj]

end Arena.Twin

/-- Twin arenas of which images were reported. -/
structure Track.Twin (σ : Symmetry size) (lifted : Bool) (t t' : Track) : Prop where
  arena : Arena.Twin σ lifted t.arena t'.arena
  events_eq : t'.events = t.events.map σ.event

theorem Track.Twin.report {t t' : Track} (h : Twin σ lifted t t') {a a' : Arena}
    (ha : Arena.Twin σ lifted a a') (e : Event) :
    Twin σ lifted ⟨a, t.events ++ [e]⟩ ⟨a', t'.events ++ [σ.event e]⟩ := by
  refine ⟨ha, ?_⟩
  rw [List.map_append, h.events_eq]
  rfl

/-! ## Executions -/

/-- Whether a pointer ended at a cell that had reached a limit. -/
def Reason.isLimit : Reason → Bool
  | badInteraction | badRead => true
  | notExecutable | forced => false

namespace Act

variable {α β γ δ : Type}

/-- Two runs of parts of an execution end alike: with results that are related, or for the same
reason. The first may also end at a limit that is lifted for the second. -/
inductive Alike (σ : Symmetry size) (lifted : Bool) (R : α → β → Prop) :
    Except Reason α × Track → Except Reason β × Track → Prop where
  | ok {v : α} {v' : β} {t t' : Track} (value : R v v') (track : t.Twin σ lifted t') :
      Alike σ lifted R (.ok v, t) (.ok v', t')
  | error (reason : Reason) {t t' : Track} (track : t.Twin σ lifted t') :
      Alike σ lifted R (.error reason, t) (.error reason, t')
  | cut {reason : Reason} (limit : reason.isLimit = true) (t : Track) (lift : lifted = true)
      (other : Except Reason β × Track) : Alike σ lifted R (.error reason, t) other

/-- Two parts of an execution end alike on twin arenas. -/
def Parallel (σ : Symmetry size) (lifted : Bool) (R : α → β → Prop) (act : Act α) (act' : Act β) :
    Prop :=
  ∀ t t', t.Twin σ lifted t' → Alike σ lifted R (act.eval t) (act'.eval t')

theorem parallel_pure {R : α → β → Prop} {v : α} {v' : β} (h : R v v') :
    Parallel σ lifted R (pure v) (pure v') :=
  fun _ _ ht => .ok h ht

theorem parallel_throw (R : α → β → Prop) (reason : Reason) :
    Parallel σ lifted R (throw reason) (throw reason) :=
  fun _ _ ht => .error reason ht

theorem parallel_bind {R : α → β → Prop} {S : γ → δ → Prop} {act : Act α} {act' : Act β}
    {f : α → Act γ} {f' : β → Act δ} (hact : Parallel σ lifted R act act')
    (hf : ∀ v v', R v v' → Parallel σ lifted S (f v) (f' v')) :
    Parallel σ lifted S (act >>= f) (act' >>= f') := by
  intro t t' ht
  have hfirst := hact t t' ht
  rw [eval_bind, eval_bind]
  generalize act.eval t = first at hfirst
  generalize act'.eval t' = first' at hfirst
  cases hfirst with
  | ok value track => exact hf _ _ value _ _ track
  | error reason track => exact .error reason track
  | cut limit u lift => exact .cut limit u lift _

theorem parallel_report (e : Event) : Parallel σ lifted Eq (report e) (report (σ.event e)) :=
  fun _ _ ht => .ok rfl (ht.report ht.arena e)

/-- An access of a live cell is an access of its place; a dead cell ends both, or the first only. -/
theorem alike_access {R : α → β → Prop} {t t' : Track} (ht : t.Twin σ lifted t') {i : Nat}
    (hi : i < size) {reason : Reason} (hreason : reason.isLimit = true)
    {live : Except Reason α × Track} {live' : Except Reason β × Track}
    (hlive : Alike σ lifted R live live') :
    Alike σ lifted R (if t.arena.isDead i then (.error reason, t) else live)
      (if t'.arena.isDead (σ.place i) then (.error reason, t') else live') := by
  rw [ht.arena.isDead_eq hi]
  cases hdead : t.arena.isDead i with
  | false =>
      rw [Bool.and_false]
      exact hlive
  | true =>
      cases hlifted : lifted with
      | false =>
          subst hlifted
          exact .error reason ht
      | true => exact .cut hreason t rfl _

theorem eval_read_eq_ite (program i : Nat) (reason : Reason) (t : Track) :
    (read program i reason).eval t =
      if t.arena.isDead i then (.error reason, t)
      else (.ok (t.arena.cell i).value,
        ⟨t.arena.update i Cell.countRead, t.events ++ [.read program i]⟩) := by
  rw [eval_read, Arena.read?]
  cases t.arena.isDead i <;> rfl

theorem eval_write_eq_ite (x : Executor) (i : Nat) (w : Word) (t : Track) :
    (write x i w).eval t =
      if t.arena.isDead i then (.error .badInteraction, t)
      else (.ok (),
        ⟨t.arena.update i (Cell.overwrite w x.writer), t.events ++ [.written x.program i]⟩) := by
  rw [eval_write, Arena.write?]
  cases t.arena.isDead i <;> rfl

theorem parallel_read (program : Nat) {i : Nat} (hi : i < size) {reason : Reason}
    (hreason : reason.isLimit = true) :
    Parallel σ lifted Eq (read program i reason) (read (σ.rename program) (σ.place i) reason) := by
  intro t t' ht
  rw [eval_read_eq_ite, eval_read_eq_ite, ht.arena.cell_eq i hi]
  refine alike_access ht hi hreason (.ok rfl ?_)
  exact ht.report (ht.arena.update hi Cell.countRead Cell.countRead fun _ => rfl) (.read program i)

theorem parallel_write (x : Executor) {i : Nat} (hi : i < size) (w : Word) :
    Parallel σ lifted Eq (write x i w) (write (σ.executor x) (σ.place i) w) := by
  intro t t' ht
  rw [eval_write_eq_ite, eval_write_eq_ite]
  refine alike_access ht hi rfl (.ok rfl ?_)
  exact ht.report (ht.arena.update hi (Cell.overwrite w x.writer)
    (Cell.overwrite w (σ.executor x).writer) fun _ => rfl) (.written x.program i)

/-- A cell of the ring and its place. -/
def IsPlace (σ : Symmetry size) (i i' : Nat) : Prop :=
  i < size ∧ i' = σ.place i

theorem parallel_bind_eq {R : γ → δ → Prop} {act act' : Act α} {f : α → Act γ} {f' : α → Act δ}
    (hact : Parallel σ lifted Eq act act') (hf : ∀ v, Parallel σ lifted R (f v) (f' v)) :
    Parallel σ lifted R (act >>= f) (act' >>= f') := by
  refine parallel_bind hact ?_
  rintro v _ rfl
  exact hf v

theorem parallel_bind_place {R : γ → δ → Prop} {act act' : Act Nat} {f : Nat → Act γ}
    {f' : Nat → Act δ} (hact : Parallel σ lifted (IsPlace σ) act act')
    (hf : ∀ i < size, Parallel σ lifted R (f i) (f' (σ.place i))) :
    Parallel σ lifted R (act >>= f) (act' >>= f') := by
  refine parallel_bind hact ?_
  rintro i _ ⟨hi, rfl⟩
  exact hf i hi

section Executor

variable {x : Executor} (hx : x.position < size)

include hx

theorem parallel_reach (distance : Int) :
    Parallel σ lifted (IsPlace σ) (reach x distance) (reach (σ.executor x) distance) := by
  intro t t' ht
  rw [eval_reach, eval_reach]
  exact .ok ⟨ht.arena.offset_lt hx distance, ht.arena.offset_eq hx distance⟩ ht

theorem parallel_follow (n : Nat) (w : Word) :
    Parallel σ lifted Eq (follow x n w) (follow (σ.executor x) n w) := by
  induction n generalizing w with
  | zero => exact parallel_pure rfl
  | succ n ih =>
      refine parallel_bind_place (parallel_reach hx w.toInt) fun i hi => ?_
      exact parallel_bind_eq (parallel_read x.program hi rfl) ih

theorem parallel_resolve (o : Operand) :
    Parallel σ lifted Eq (resolve x o) (resolve (σ.executor x) o) :=
  parallel_follow hx o.depth _

theorem parallel_target (o : Operand) :
    Parallel σ lifted (IsPlace σ) (target x o) (target (σ.executor x) o) :=
  parallel_bind_eq (parallel_resolve hx o) fun w => parallel_reach hx w.toInt

theorem parallel_combine (i : Instruction) (f : Word → Word → Word) :
    Parallel σ lifted (IsPlace σ) (combine x i f) (combine (σ.executor x) i f) := by
  refine parallel_bind_eq (parallel_resolve hx _) fun operand => ?_
  refine parallel_bind_place (parallel_target hx _) fun destination hdestination => ?_
  refine parallel_bind_eq (parallel_read x.program hdestination rfl) fun current => ?_
  exact parallel_bind_eq (parallel_write x hdestination _) fun _ => parallel_reach hx 1

theorem parallel_transfer (i : Instruction) (clears : Bool) :
    Parallel σ lifted (IsPlace σ) (transfer x i clears) (transfer (σ.executor x) i clears) := by
  refine parallel_bind_place (parallel_target hx _) fun origin horigin => ?_
  refine parallel_bind_place (parallel_target hx _) fun destination hdestination => ?_
  refine parallel_bind_eq (parallel_read x.program horigin rfl) fun w => ?_
  refine parallel_bind_eq (parallel_write x hdestination w) fun _ => ?_
  -- Two cells are the same exactly if their places are, so both clear the origin or neither does.
  have hsame : (σ.place origin != σ.place destination) = (origin != destination) := by
    rw [Bool.eq_iff_iff, bne_iff_ne, bne_iff_ne, ne_eq, σ.place_inj horigin hdestination]
  rw [hsame]
  split
  · exact parallel_bind_eq (parallel_write x horigin 0) fun _ => parallel_reach hx 1
  · exact parallel_reach hx 1

theorem parallel_skip (i : Instruction) (holds : Word → Word → Bool) :
    Parallel σ lifted (IsPlace σ) (skip x i holds) (skip (σ.executor x) i holds) :=
  parallel_bind_eq (parallel_resolve hx _) fun _ =>
    parallel_bind_eq (parallel_resolve hx _) fun _ => parallel_reach hx _

/-- An instruction does the same at the place of its cell, up to places and numbers. -/
theorem parallel_perform (i : Instruction) :
    Parallel σ lifted (IsPlace σ) (perform x i) (perform (σ.executor x) i) := by
  unfold perform
  cases i.operation with
  | data | invalid => exact parallel_throw _ .notExecutable
  | noop => exact parallel_reach hx 1
  | jump => exact parallel_target hx _
  | write =>
      refine parallel_bind_eq (parallel_resolve hx _) fun w => ?_
      refine parallel_bind_place (parallel_target hx _) fun destination hdestination => ?_
      exact parallel_bind_eq (parallel_write x hdestination w) fun _ => parallel_reach hx 1
  | add | subtract | multiply => exact parallel_combine hx i _
  | copy | move => exact parallel_transfer hx i _
  | skipIfEqual | skipIfGreater | skipIfLower => exact parallel_skip hx i _

end Executor

theorem credited_rename {rules rules' : Rules} (hrules : rules'.creditAuthor = rules.creditAuthor)
    (program author : Nat) :
    credited rules' (σ.rename program) (σ.rename author) =
      σ.rename (credited rules program author) := by
  unfold credited
  rw [hrules]
  by_cases hauthor : author = 0
  · simp [hauthor, σ.rename_zero]
  · cases rules.creditAuthor <;> simp [hauthor, σ.rename_eq_zero]

theorem parallel_carryOut {rules rules' : Rules}
    (hrules : rules'.creditAuthor = rules.creditAuthor) (program : Nat) {position : Nat}
    (hposition : position < size) (author : Nat) (w : Word) :
    Parallel σ lifted (IsPlace σ) (carryOut rules program position author w)
      (carryOut rules' (σ.rename program) (σ.place position) (σ.rename author) w) := by
  have hrest : Parallel σ lifted (IsPlace σ)
      (do report (.cycle program position)
          perform ⟨program, position, credited rules program author⟩ (.decode w))
      (do report (.cycle (σ.rename program) (σ.place position))
          perform ⟨σ.rename program, σ.place position,
            credited rules' (σ.rename program) (σ.rename author)⟩ (.decode w)) := by
    rw [credited_rename hrules]
    refine parallel_bind_eq (parallel_report (.cycle program position)) fun _ => ?_
    exact parallel_perform (x := ⟨program, position, credited rules program author⟩) hposition _
  have hforeign : (σ.rename author != 0 && σ.rename author != σ.rename program) =
      (author != 0 && author != program) := by
    rw [Bool.eq_iff_iff]
    simp [σ.rename_eq_zero, σ.rename_inj]
  unfold carryOut
  rw [hforeign]
  split
  · exact parallel_bind_eq (parallel_report (.foreign program author)) fun _ => hrest
  · exact hrest

/-- An execution does the same at the place of its cell, up to places and numbers, unless it ends at
a limit that is lifted. -/
theorem parallel_execute {rules rules' : Rules}
    (hrules : rules'.creditAuthor = rules.creditAuthor) (program : Nat) {position : Nat}
    (hposition : position < size) :
    Parallel σ lifted (IsPlace σ) (execute rules program position)
      (execute rules' (σ.rename program) (σ.place position)) := by
  intro t t' ht
  rw [eval_execute, eval_execute, ht.arena.cell_eq position hposition]
  refine alike_access ht hposition rfl ?_
  refine parallel_carryOut hrules program hposition _ _ _ _ ?_
  exact ht.report (ht.arena.update hposition Cell.countRead Cell.countRead fun _ => rfl)
    (.read program position)

end Act

end CoreArena
