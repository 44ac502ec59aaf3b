import CoreArena.Proofs.Battle.Frame
import CoreArena.Proofs.Battle.Lifting
import CoreArena.Proofs.Battle.Quota
import CoreArena.Proofs.Battle.Rota

/-! # What a dying program leaves behind

An instruction looks everything up before it writes, so one that ends its pointer has changed
nothing. A move is the exception, as it writes twice: its own reading may have used up the cell that
it takes from, which it then copies but cannot clear. `fatal_after_start` says that nothing else
happens. -/

namespace CoreArena

/-- The cell that the first operand of an instruction leads to. -/
def View.firstCell (v : View) (i : Instruction) : Nat :=
  v.address (v.operand i.firstOrZero)

/-- The cell that the second operand of an instruction leads to. -/
def View.secondCell (v : View) (i : Instruction) : Nat :=
  v.address (v.operand i.secondOrZero)

/-- An arena holds some values, whatever its limits. -/
structure Arena.Shows (a : Arena) (size : Nat) (cells : Nat → Word) : Prop where
  size_eq : a.size = size
  value_eq : ∀ i, (a.cell i).value = cells i

open Relation

namespace Act

open Event

variable {α β : Type} {x : Executor} {t u : Track} {reason : Reason}

/-! ## Ends halfway -/

theorem eval_bind_eq_error {act : Act α} {f : α → Act β} :
    (act >>= f).eval t = (.error reason, u) ↔
      act.eval t = (.error reason, u) ∨
        ∃ v s, act.eval t = (.ok v, s) ∧ (f v).eval s = (.error reason, u) := by
  rw [eval_bind]
  cases act.eval t with
  | mk result s => cases result <;> simp

/-- Where a part that writes nothing comes first, an end comes before any write, or in the rest. -/
theorem Silent.bind_error {act : Act α} {f : α → Act β} (h : Silent act)
    (hrun : (act >>= f).eval t = (.error reason, u)) :
    writtenCells u.events = writtenCells t.events ∨
      ∃ v s, act.eval t = (.ok v, s) ∧ writtenCells s.events = writtenCells t.events ∧
        (f v).eval s = (.error reason, u) := by
  have hsilent := h t
  rcases eval_bind_eq_error.mp hrun with hend | ⟨v, s, hact, hrest⟩
  · rw [hend] at hsilent
    exact .inl hsilent
  · rw [hact] at hsilent
    exact .inr ⟨v, s, hact, hsilent, hrest⟩

theorem read_ok {program i : Nat} {w : Word} (hrun : (read program i reason).eval t = (.ok w, u)) :
    t.arena.isDead i = false ∧ w = (t.arena.cell i).value ∧
      u = ⟨t.arena.update i Cell.countRead, t.events ++ [.read program i]⟩ := by
  rw [eval_read_eq_ite] at hrun
  split at hrun
  · cases hrun
  · rename_i hlive
    cases hrun
    exact ⟨Bool.eq_false_iff.mpr hlive, rfl, rfl⟩

theorem write_ok {i : Nat} {w : Word} (hrun : (write x i w).eval t = (.ok (), u)) :
    u = ⟨t.arena.update i (Cell.overwrite w x.writer), t.events ++ [.written x.program i]⟩ := by
  rw [eval_write_eq_ite] at hrun
  split at hrun
  · cases hrun
  · cases hrun
    rfl

/-- A write that is refused changes nothing. -/
theorem write_error {i : Nat} {w : Word} (hrun : (write x i w).eval t = (.error reason, u)) :
    t.arena.isDead i = true ∧ reason = .badInteraction ∧ u = t := by
  rw [eval_write_eq_ite] at hrun
  split at hrun
  · rename_i hdead
    cases hrun
    exact ⟨hdead, rfl, rfl⟩
  · cases hrun

/-- The way on is never refused. -/
theorem write_reach_error {i : Nat} {w : Word} {distance : Int}
    (hrun : (write x i w >>= fun _ => reach x distance).eval t = (.error reason, u)) :
    t.arena.isDead i = true ∧ reason = .badInteraction ∧ u = t := by
  rcases eval_bind_eq_error.mp hrun with hend | ⟨v, s, -, hreach⟩
  · exact write_error hend
  · cases hreach

/-- A part of an execution that has written nothing if it ends the pointer. -/
def Harmless (act : Act α) : Prop :=
  ∀ t reason u, act.eval t = (.error reason, u) → writtenCells u.events = writtenCells t.events

theorem Silent.harmless {act : Act α} (h : Silent act) : Harmless act := by
  intro t reason u hrun
  have hsilent := h t
  rwa [hrun] at hsilent

theorem Silent.bindHarmless {act : Act α} {f : α → Act β} (h : Silent act)
    (hf : ∀ v, Harmless (f v)) : Harmless (act >>= f) := by
  intro t reason u hrun
  rcases h.bind_error hrun with hend | ⟨v, s, -, hsilent, hrest⟩
  · exact hend
  · exact (hf v s reason u hrest).trans hsilent

theorem harmless_write (i : Nat) (w : Word) :
    Harmless (write x i w >>= fun _ => reach x 1) := by
  intro t reason u hrun
  rw [(write_reach_error hrun).2.2]

theorem harmless_combine (i : Instruction) (f : Word → Word → Word) :
    Harmless (combine x i f) :=
  (silent_resolve _).bindHarmless fun _ =>
    (silent_target _).bindHarmless fun destination =>
      (silent_read _ destination _).bindHarmless fun _ => harmless_write destination _

theorem harmless_copy (i : Instruction) : Harmless (transfer x i false) :=
  (silent_target _).bindHarmless fun origin =>
    (silent_target _).bindHarmless fun destination =>
      (silent_read _ origin _).bindHarmless fun w => harmless_write destination w

/-- Every instruction but a move writes last, if at all. -/
theorem harmless_perform {i : Instruction} (hmove : i.operation ≠ .move) :
    Harmless (perform x i) := by
  unfold perform
  cases hoperation : i.operation with
  | data | invalid => exact (silent_throw .notExecutable).harmless
  | noop => exact (silent_reach 1).harmless
  | jump => exact (silent_target _).harmless
  | write =>
      exact (silent_resolve _).bindHarmless fun w =>
        (silent_target _).bindHarmless fun destination => harmless_write destination w
  | add | subtract | multiply => exact harmless_combine i _
  | copy => exact harmless_copy i
  | move => exact absurd hoperation hmove
  | skipIfEqual | skipIfGreater | skipIfLower => exact (silent_skip i _).harmless

/-! ## Results under limits -/

/-- What a part gives without limits, it gives under limits if it does not end the pointer. -/
theorem shows_of_ok {size : Nat} {cells cells' : Nat → Word} {R : α → α → Prop} {act : Act α}
    {v v' : α} (hparallel : Parallel (.identity size) true R act act)
    (hgives : Gives act size cells cells' (.ok v)) (ht : t.arena.Shows size cells)
    (hrun : act.eval t = (.ok v', u)) : R v' v ∧ u.arena.Shows size cells' := by
  let lifted : Track := ⟨{ t.arena with maxWrites := 0, maxReads := 0 }, t.events⟩
  have htwin : t.Twin (.identity size) true lifted := by
    refine ⟨⟨ht.size_eq, ht.size_eq, rfl, rfl, fun _ _ => rfl⟩, ?_⟩
    rw [Symmetry.event_identity, List.map_id]
  obtain ⟨hresult, hholds⟩ := hgives lifted ⟨ht.size_eq, rfl, rfl, ht.value_eq⟩
  have halike := hparallel t lifted htwin
  rw [hrun] at halike
  generalize act.eval lifted = after at halike hresult hholds
  cases halike with
  | ok hvalue htrack =>
      cases hresult
      refine ⟨hvalue, htrack.arena.size_eq, fun i => ?_⟩
      rw [← hholds.value_eq i]
      by_cases hi : i < size
      · exact congrArg Cell.value (htrack.arena.cell_eq i hi).symm
      · have hbeyond := Nat.le_of_not_lt hi
        rw [Arena.cell_of_size_le (htrack.arena.size_eq ▸ hbeyond),
          Arena.cell_of_size_le (htrack.arena.size_eq' ▸ hbeyond)]

/-! ## Moves -/

/-- A move has read a cell for the last time and copied it to another one. -/
structure Stuck (program origin destination : Nat) (cells : Nat → Word) (before : List Nat)
    (u : Track) : Prop where
  ne : origin ≠ destination
  read_mem : .read program origin ∈ u.events
  used_up : isUsedUp u.arena.maxReads (u.arena.cell origin).reads = true
  written_eq : writtenCells u.events = before ++ [destination]
  value_eq : ∀ j, (u.arena.cell j).value = Function.update cells destination (cells origin) j

/-- A live cell that is dead after a read and a change elsewhere has been used up by that read. -/
theorem used_up_of_read {a c : Arena} {i j : Nat} {f : Cell → Cell} (hi : i < a.size) (hne : j ≠ i)
    (hlive : a.isDead i = false) (hc : c = (a.update i Cell.countRead).update j f)
    (hdead : c.isDead i = true) : isUsedUp c.maxReads (c.cell i).reads = true := by
  subst hc
  obtain ⟨hwrites, -⟩ := Bool.or_eq_false_iff.mp hlive
  rcases Bool.or_eq_true_iff.mp hdead with hdead | hdead
  · rw [Arena.cell_update_of_ne _ hne, Arena.cell_update_self hi] at hdead
    exact absurd (hdead.symm.trans hwrites) (by decide)
  · exact hdead

/-- Once both cells are known, a move is refused before it has written anything, or it is stuck. -/
theorem moveCell_error {size origin destination : Nat} {cells : Nat → Word}
    (horigin : origin < size) (hdestination : destination < size) (ht : t.arena.Shows size cells)
    (hrun : (read x.program origin .badRead >>= fun w => write x destination w >>= fun _ =>
      if origin != destination then write x origin 0 >>= fun _ => reach x 1
      else reach x 1).eval t = (.error reason, u)) :
    writtenCells u.events = writtenCells t.events ∨
      reason = .badInteraction ∧
        Stuck x.program origin destination cells (writtenCells t.events) u := by
  rcases (silent_read _ _ _).bind_error hrun with hend | ⟨w, t₁, hrun₁, hsilent, hrun⟩
  · exact .inl hend
  rcases eval_bind_eq_error.mp hrun with hend | ⟨⟨⟩, t₂, hrun₂, hlast⟩
  · rw [(write_error hend).2.2]
    exact .inl hsilent
  obtain ⟨rfl, ht₁⟩ :=
    shows_of_ok (parallel_read x.program horigin rfl) (gives_read _ _ _) ht hrun₁
  obtain ⟨-, ht₂⟩ :=
    shows_of_ok (parallel_write x hdestination _) (gives_write x hdestination _) ht₁ hrun₂
  split at hlast
  · rename_i hne
    rw [bne_iff_ne] at hne
    obtain ⟨hdead, rfl, rfl⟩ := write_reach_error hlast
    obtain ⟨hlive, -, rfl⟩ := read_ok hrun₁
    obtain rfl := write_ok hrun₂
    refine .inr ⟨rfl, hne, ?_, ?_, ?_, ht₂.value_eq⟩
    · simp
    · exact used_up_of_read (ht.size_eq ▸ horigin) hne.symm hlive rfl hdead
    · rw [writtenCells_append, hsilent]
      rfl
  · cases hlast

/-- A move that ends the pointer has written nothing, or it is stuck. -/
theorem move_error {v : View} {i : Instruction} (hx : x.position = v.position)
    (hposition : v.position < v.size) (hfirst : i.firstOrZero.Fits) (hsecond : i.secondOrZero.Fits)
    (ht : t.arena.Shows v.size v.cells)
    (hrun : (transfer x i true).eval t = (.error reason, u)) :
    writtenCells u.events = writtenCells t.events ∨
      reason = .badInteraction ∧
        Stuck x.program (v.firstCell i) (v.secondCell i) v.cells (writtenCells t.events) u := by
  have hplace : x.position < v.size := by rwa [hx]
  have hpos : 0 < v.size := Nat.zero_lt_of_lt hposition
  rcases (silent_target _).bind_error hrun with hend | ⟨origin, t₁, hrun₁, hsilent₁, hrun⟩
  · exact .inl hend
  rcases (silent_target _).bind_error hrun with hend | ⟨destination, t₂, hrun₂, hsilent₂, hrun⟩
  · exact .inl (hend.trans hsilent₁)
  -- The lookups have succeeded, so they have led where they lead without limits.
  obtain ⟨⟨-, horigin⟩, ht₁⟩ :=
    shows_of_ok (parallel_target hplace _) (gives_target hx hfirst) ht hrun₁
  obtain ⟨⟨-, hdestination⟩, ht₂⟩ :=
    shows_of_ok (parallel_target hplace _) (gives_target hx hsecond) ht₁ hrun₂
  obtain rfl : origin = v.firstCell i := horigin.symm
  obtain rfl : destination = v.secondCell i := hdestination.symm
  rw [← hsilent₁, ← hsilent₂]
  exact moveCell_error (View.address_lt hpos _) (View.address_lt hpos _) ht₂ hrun

theorem perform_error {v : View} {i : Instruction} (hx : x.position = v.position)
    (hposition : v.position < v.size) (hfirst : i.firstOrZero.Fits) (hsecond : i.secondOrZero.Fits)
    (ht : t.arena.Shows v.size v.cells) (hrun : (perform x i).eval t = (.error reason, u)) :
    writtenCells u.events = writtenCells t.events ∨
      i.operation = .move ∧ reason = .badInteraction ∧
        Stuck x.program (v.firstCell i) (v.secondCell i) v.cells (writtenCells t.events) u := by
  by_cases hmove : i.operation = .move
  · have htransfer : perform x i = transfer x i true := by
      unfold perform
      rw [hmove]
    rw [htransfer] at hrun
    exact (move_error hx hposition hfirst hsecond ht hrun).imp_right fun hstuck => ⟨hmove, hstuck⟩
  · exact .inl (harmless_perform hmove t reason u hrun)

/-- An execution that ends the pointer has written nothing, or it is a move that is stuck. -/
theorem execute_error {v : View} {a : Arena} (ha : a.Shows v.size v.cells)
    (hposition : v.position < v.size) {rules : Rules} {program : Nat}
    (hrun : (execute rules program v.position).eval ⟨a, []⟩ = (.error reason, u)) :
    writtenCells u.events = [] ∨
      (Instruction.decode (v.cells v.position)).operation = .move ∧ reason = .badInteraction ∧
        Stuck program (v.firstCell (.decode (v.cells v.position)))
          (v.secondCell (.decode (v.cells v.position))) v.cells [] u := by
  rw [eval_execute, ha.value_eq v.position] at hrun
  split at hrun
  · cases hrun
    exact .inl rfl
  rw [eval_carryOut] at hrun
  obtain ⟨hfirst, hsecond⟩ := Instruction.fits_decode (v.cells v.position)
  have hfetched : (a.update v.position Cell.countRead).Shows v.size v.cells := by
    refine ⟨(a.size_update _ _).trans ha.size_eq, fun i => ?_⟩
    rw [← ha.value_eq i, Arena.cell_update]
    split <;> rfl
  have hend := perform_error (v := v) (by rfl) hposition hfirst hsecond hfetched hrun
  have hnone : writtenCells ([] ++ [.read program v.position] ++ (foreignReport program
      (a.cell v.position).owner ++ [.cycle program v.position])) = [] := by
    simp only [writtenCells_append, Execution.writtenCells_foreignReport]
    rfl
  dsimp only at hend
  rwa [hnone] at hend

end Act

namespace Battle

variable {b : Battle} {id position : Nat}

/-! ## Advances -/

/-- The cells that the operands of the instruction at a cell lead to. -/
def sourceAt (b : Battle) (position : Nat) : Nat :=
  (b.viewFrom position).firstCell (.decode (b.values position))

def targetAt (b : Battle) (position : Nat) : Nat :=
  (b.viewFrom position).secondCell (.decode (b.values position))

/-- A move kills its program halfway: its reading uses up the source after the target has been
written, and the source is not cleared. -/
structure HalfMove (b : Battle) (id position : Nat) (a : Aftermath (Option Outcome)) : Prop where
  operation_eq : (Instruction.decode (b.values position)).operation = .move
  ne : b.sourceAt position ≠ b.targetAt position
  live : b.arena.isDead (b.sourceAt position) = false
  used_up : isUsedUp b.arena.maxReads (a.battle.arena.cell (b.sourceAt position)).reads = true
  values_eq : a.battle.values =
    Function.update b.values (b.targetAt position) (b.values (b.sourceAt position))
  written_eq : Event.writtenCells a.events = [b.targetAt position]
  killed : ∃ killer, .killed id killer .badInteraction (some position) ∈ a.events

/-- Where no write is reported, no value has changed. -/
theorem Accounted.values_eq {a : Aftermath (Option Outcome)} (h : b.Accounted id position a)
    (hnone : Event.writtenCells a.events = []) : a.battle.values = b.values := by
  funext i
  refine (h.value i).resolve_left fun hwritten => ?_
  have hmem : i ∈ Event.writtenCells a.events := List.mem_filterMap.mpr ⟨_, hwritten, rfl⟩
  rw [hnone] at hmem
  exact List.not_mem_nil hmem

/-- Whatever an advance reads has been alive before it. -/
theorem Invariant.live_of_read (h : b.Invariant) {i : Nat}
    (hread : .read id i ∈ b.advance.events) : b.arena.isDead i = false := by
  rw [← Bool.not_eq_true]
  intro hdead
  have hunread := (h.exhausted hdead).unreported [.advance] _ (List.mem_append_left [] hread)
  simp [Event.readsAt] at hunread

theorem reads_bury (b : Battle) (index id position : Nat) (reason : Reason) (i : Nat) :
    ((b.bury index id position reason).battle.arena.cell i).reads = (b.arena.cell i).reads := by
  rcases b.cell_bury index id position reason i with hcell | ⟨-, -, -, hcell⟩
  · rw [hcell]
  · rw [hcell]

/-- An advance that kills the program that executes has written nothing, or it is half a move. -/
theorem Invariant.fatal (h : b.Invariant) (hturn : b.executing? = some (id, position))
    (hdies : id ∈ Event.victims b.advance.events) :
    b.advance.battle.values = b.values ∧ Event.writtenCells b.advance.events = [] ∨
      b.HalfMove id position b.advance := by
  have haccounted := h.accounted hturn
  have hlive : ∀ i, .read id i ∈ b.advance.events → b.arena.isDead i = false :=
    fun i => h.live_of_read
  have hadvance := h.advance
  generalize b.advance = a at *
  cases hadvance with
  | idle hover =>
      rw [executing?, hover] at hturn
      cases hturn
  | moved hplayer hrun =>
      rw [victims_of_run hrun] at hdies
      cases hdies
  | @died index _ _ reason track hplayer hrun =>
      cases hplayer.executing.symm.trans hturn
      have hposition := h.pointer_lt _ (List.mem_of_getElem? hplayer.group) _ List.mem_cons_self
      have hwritten : Event.writtenCells (track.events ++
          ((b.fallen index id track.arena).bury index id position reason).events) =
            Event.writtenCells track.events := by
        rw [Event.writtenCells_append, events_bury]
        exact List.append_nil _
      rcases Act.execute_error (v := b.viewFrom position) ⟨rfl, fun _ => rfl⟩ hposition hrun with
        hnone | ⟨hmove, rfl, hstuck⟩
      · exact .inl ⟨haccounted.values_eq (hwritten.trans hnone), hwritten.trans hnone⟩
      · right
        refine ⟨hmove, hstuck.ne, hlive _ (List.mem_append_left _ hstuck.read_mem), ?_, ?_,
          hwritten.trans hstuck.written_eq, ?_⟩
        · have hlimit : track.arena.maxReads = b.arena.maxReads :=
            (Changes.sameShape (ReflTransGen.mono (fun _ _ => .touch) _ _
              (touches_run [] hrun))).maxReads_eq
          rw [reads_bury, ← hlimit]
          exact hstuck.used_up
        · rw [values_bury]
          exact funext hstuck.value_eq
        · rw [events_bury]
          exact ⟨_, List.mem_append_right _ List.mem_cons_self⟩

/-- Whatever the limits, an advance in which the program that executes dies leaves all values as
they are and reports no write, unless it is a move that is killed halfway. -/
theorem fatal_after_start (r : Rules) (steps : List Step)
    (hturn : ((start r).after steps).executing? = some (id, position))
    (hdies : id ∈ Event.victims ((start r).after steps).advance.events) :
    ((start r).after steps).advance.battle.values = ((start r).after steps).values ∧
        Event.writtenCells ((start r).after steps).advance.events = [] ∨
      ((start r).after steps).HalfMove id position ((start r).after steps).advance :=
  (invariant_after_start r steps).fatal hturn hdies

/-- A program that moves its second word behind itself. -/
def mover : Program :=
  ⟨1, "mover", [Instruction.encode ⟨.move, some ⟨0, 1⟩, some ⟨0, 2⟩⟩, 7]⟩

/-- Four cells, each of which may be read once, with the mover in the first two. -/
def readOnce : Battle :=
  (start { columnSize := 4, columnCount := 1, maxReads := 1 }).after [.install mover 0]

/-- The mover dies, and its word is in both cells. -/
theorem mover_dies_halfway :
    readOnce.executing? = some (1, 0) ∧ 1 ∈ Event.victims readOnce.advance.events ∧
      readOnce.values 2 = 0 ∧ readOnce.advance.battle.values 2 = 7 ∧
      .written 1 2 ∈ readOnce.advance.events := by
  decide +kernel

theorem fatal_after_start_mover : readOnce.HalfMove 1 0 readOnce.advance := by
  have hturn : readOnce.executing? = some (1, 0) := by decide +kernel
  have hdies : 1 ∈ Event.victims readOnce.advance.events := by decide +kernel
  have hwritten : Event.writtenCells readOnce.advance.events ≠ [] := by decide +kernel
  refine (fatal_after_start _ [.install mover 0] hturn hdies).resolve_left fun hnothing => ?_
  exact hwritten hnothing.2

end Battle

end CoreArena
