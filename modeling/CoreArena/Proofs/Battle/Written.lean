import CoreArena.Proofs.Battle.Semantics

/-! # The cells that an instruction writes

`View.writes` completes the instruction table: the cells that an instruction writes, in order. In
an arena without limits an advance reports these writes and no others: `written_advance`. -/

namespace CoreArena

namespace Event

def writtenCell? : Event → Option Nat
  | written _ address => some address
  | _ => none

/-- The cells that were written, in order. -/
def writtenCells (events : List Event) : List Nat :=
  events.filterMap writtenCell?

@[simp] theorem writtenCells_append (events more : List Event) :
    writtenCells (events ++ more) = writtenCells events ++ writtenCells more :=
  List.filterMap_append

end Event

/-- The cells that an instruction writes, in order. -/
def View.writes (v : View) (i : Instruction) : List Nat :=
  let a := v.address (v.operand i.firstOrZero)
  let b := v.address (v.operand i.secondOrZero)
  match i.operation with
  | .write | .add | .subtract | .multiply | .copy => [b]
  | .move => if a = b then [b] else [b, a]
  | .data | .noop | .jump | .skipIfEqual | .skipIfGreater | .skipIfLower | .invalid => []

namespace Act

open Event

variable {α β : Type} {size : Nat} {cells cells' : Nat → Word} {x : Executor}

/-! ## Parts of an execution that write nothing -/

def Silent (act : Act α) : Prop :=
  ∀ t, writtenCells (act.eval t).2.events = writtenCells t.events

theorem silent_pure (v : α) : Silent (pure v : Act α) :=
  fun _ => rfl

theorem silent_throw (reason : Reason) : Silent (throw reason : Act α) :=
  fun _ => rfl

theorem silent_bind {act : Act α} {f : α → Act β} (hact : Silent act) (hf : ∀ v, Silent (f v)) :
    Silent (act >>= f) := by
  intro t
  have hfirst := hact t
  rw [eval_bind]
  cases h : act.eval t with
  | mk result u =>
      rw [h] at hfirst
      cases result with
      | error reason => exact hfirst
      | ok v => exact (hf v u).trans hfirst

theorem silent_report {e : Event} (h : e.writtenCell? = none) : Silent (report e) := by
  intro t
  show writtenCells (t.events ++ [e]) = _
  simp [writtenCells, h]

theorem silent_reach (distance : Int) : Silent (reach x distance) :=
  fun _ => rfl

theorem silent_read (program address : Nat) (reason : Reason) :
    Silent (read program address reason) := by
  intro t
  rw [eval_read]
  cases t.arena.read? address with
  | none => rfl
  | some pair => exact silent_report (e := .read program address) rfl t

theorem silent_follow (n : Nat) (w : Word) : Silent (follow x n w) := by
  induction n generalizing w with
  | zero => exact silent_pure w
  | succ n ih =>
      exact silent_bind (silent_reach _) fun address =>
        silent_bind (silent_read _ address _) ih

theorem silent_resolve (o : Operand) : Silent (resolve x o) :=
  silent_follow o.depth _

theorem silent_target (o : Operand) : Silent (target x o) :=
  silent_bind (silent_resolve o) fun _ => silent_reach _

theorem silent_skip (i : Instruction) (holds : Word → Word → Bool) : Silent (skip x i holds) :=
  silent_bind (silent_resolve _) fun _ => silent_bind (silent_resolve _) fun _ => silent_reach _

/-! ## Parts that write -/

/-- Where the values are those of `cells`, a part of an execution writes some cells, in order. -/
def Writes (act : Act α) (size : Nat) (cells : Nat → Word) (written : List Nat) : Prop :=
  ∀ t, t.arena.Holds size cells →
    writtenCells (act.eval t).2.events = writtenCells t.events ++ written

theorem Silent.writes {act : Act α} (h : Silent act) : Writes act size cells [] := by
  intro t _
  rw [h t, List.append_nil]

theorem writes_bind {act : Act α} {f : α → Act β} {v : α} {written more : List Nat}
    (hgives : Gives act size cells cells' (.ok v)) (hact : Writes act size cells written)
    (hf : Writes (f v) size cells' more) : Writes (act >>= f) size cells (written ++ more) := by
  intro t ht
  have hwritten := hact t ht
  obtain ⟨hresult, harena⟩ := hgives t ht
  rw [eval_bind]
  cases h : act.eval t with
  | mk result u =>
      rw [h] at hwritten hresult harena
      cases hresult
      rw [← List.append_assoc, ← hwritten]
      exact hf u harena

/-- A part that writes nothing passes its result on. -/
theorem Silent.bind {act : Act α} {f : α → Act β} {v : α} {written : List Nat} (h : Silent act)
    (hgives : Gives act size cells cells' (.ok v)) (hf : Writes (f v) size cells' written) :
    Writes (act >>= f) size cells written :=
  writes_bind hgives h.writes hf

theorem writes_write {i : Nat} (w : Word) : Writes (write x i w) size cells [i] := by
  intro t ht
  rw [eval_write, Arena.write?, ht.isDead_eq_false i]
  exact writtenCells_append _ _

section Instructions

variable {v : View} {i : Instruction} (hsize : 0 < v.size) (hx : x.position = v.position)
  (hfirst : i.firstOrZero.Fits) (hsecond : i.secondOrZero.Fits)

include hsize hx hfirst hsecond

theorem writes_combine (f : Word → Word → Word) :
    Writes (combine x i f) v.size v.cells [v.address (v.operand i.secondOrZero)] := by
  refine (silent_resolve _).bind (gives_resolve hx hfirst) ?_
  refine (silent_target _).bind (gives_target hx hsecond) ?_
  refine (silent_read _ _ _).bind (gives_read _ _ _) ?_
  exact writes_bind (gives_write x (View.address_lt hsize _) _) (writes_write _)
    (silent_reach 1).writes

theorem writes_transfer (clears : Bool) :
    Writes (transfer x i clears) v.size v.cells
      (let a := v.address (v.operand i.firstOrZero)
       let b := v.address (v.operand i.secondOrZero)
       if clears && a != b then [b, a] else [b]) := by
  refine (silent_target _).bind (gives_target hx hfirst) ?_
  refine (silent_target _).bind (gives_target hx hsecond) ?_
  refine (silent_read _ _ _).bind (gives_read _ _ _) ?_
  have hcopied : Gives (write x (v.address (v.operand i.secondOrZero))
      (v.cells (v.address (v.operand i.firstOrZero)))) v.size v.cells _ (.ok ()) :=
    gives_write x (View.address_lt hsize _) _
  dsimp only
  split
  · refine writes_bind hcopied (writes_write _) ?_
    exact writes_bind (gives_write x (View.address_lt hsize _) 0) (writes_write 0)
      (silent_reach 1).writes
  · exact writes_bind hcopied (writes_write _) (silent_reach 1).writes

theorem writes_perform : Writes (perform x i) v.size v.cells (v.writes i) := by
  unfold perform View.writes
  cases i.operation with
  | data | invalid => exact (silent_throw .notExecutable).writes
  | noop => exact (silent_reach 1).writes
  | jump => exact (silent_target _).writes
  | write =>
      refine (silent_resolve _).bind (gives_resolve hx hfirst) ?_
      refine (silent_target _).bind (gives_target hx hsecond) ?_
      exact writes_bind (gives_write x (View.address_lt hsize _) _) (writes_write _)
        (silent_reach 1).writes
  | add | subtract | multiply => exact writes_combine hsize hx hfirst hsecond _
  | copy => exact writes_transfer hsize hx hfirst hsecond false
  | move =>
      have htransfer := writes_transfer hsize hx hfirst hsecond true
      simp only [Bool.true_and, bne_iff_ne, ne_eq, ite_not] at htransfer
      exact htransfer
  | skipIfEqual | skipIfGreater | skipIfLower => exact (silent_skip _ _).writes

end Instructions

theorem writes_carryOut (rules : Rules) (program author : Nat) {v : View} (hsize : 0 < v.size)
    (w : Word) :
    Writes (carryOut rules program v.position author w) v.size v.cells
      (v.writes (.decode w)) := by
  obtain ⟨hfirst, hsecond⟩ := Instruction.fits_decode w
  have hcycle : Writes (do
      report (.cycle program v.position)
      perform ⟨program, v.position, credited rules program author⟩ (.decode w)) v.size v.cells
        (v.writes (.decode w)) :=
    (silent_report rfl).bind (gives_report _)
      (writes_perform (x := ⟨program, v.position, credited rules program author⟩) hsize rfl
        hfirst hsecond)
  unfold carryOut
  split
  · exact (silent_report rfl).bind (gives_report (.foreign program author)) hcycle
  · exact hcycle

/-- An execution writes what the instruction of its cell writes. -/
theorem execute_writes (rules : Rules) (program : Nat) {v : View} (hsize : 0 < v.size) :
    Writes (execute rules program v.position) v.size v.cells
      (v.writes (.decode (v.cells v.position))) := by
  intro t ht
  rw [eval_execute, ht.isDead_eq_false v.position, ht.value_eq v.position]
  refine (writes_carryOut rules program _ hsize _ _ (ht.countRead v.position)).trans ?_
  rw [Event.writtenCells_append]
  simp [writtenCells, writtenCell?]

end Act

namespace Battle

variable {b : Battle}

theorem writtenCells_of_run (h : b.Invariant) (hholds : b.arena.Holds b.arena.size b.values)
    {id position : Nat} {result : Except Reason Nat} {track : Track}
    (hrun : (Act.execute b.rules id position).eval ⟨b.arena, []⟩ = (result, track)) :
    Event.writtenCells track.events =
      (b.viewFrom position).writes (.decode (b.values position)) := by
  have hwrites := Act.execute_writes (v := b.viewFrom position) b.rules id h.size_pos ⟨b.arena, []⟩
    hholds
  rw [show (b.viewFrom position).position = position from rfl, hrun] at hwrites
  exact hwrites

/-- An advance in an arena without limits writes the cells that the instruction table says. -/
theorem written_advance (h : b.Invariant) (hholds : b.arena.Holds b.arena.size b.values)
    {id position : Nat} (hturn : b.executing? = some (id, position)) :
    Event.writtenCells b.advance.events =
      (b.viewFrom position).writes (.decode (b.values position)) := by
  have hadvance := h.advance
  generalize b.advance = a at hadvance ⊢
  cases hadvance with
  | idle hover =>
      rw [executing?, hover] at hturn
      cases hturn
  | moved hplayer hrun =>
      cases hplayer.executing.symm.trans hturn
      exact writtenCells_of_run h hholds hrun
  | died hplayer hrun =>
      cases hplayer.executing.symm.trans hturn
      rw [Event.writtenCells_append, events_bury, writtenCells_of_run h hholds hrun]
      exact List.append_nil _

end Battle

end CoreArena
