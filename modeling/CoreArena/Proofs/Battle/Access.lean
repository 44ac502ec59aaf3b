import CoreArena.Battle.Arena.Lemmas
import CoreArena.Battle.Execution
import Mathlib.Logic.Relation

/-! # Executions, access by access

Whatever an execution does to an arena, it does by reading and writing live cells one at a time, and
it reports each access as it makes it: `execute_accesses`. What a single access keeps, an execution
therefore keeps, whether it succeeds or ends the pointer halfway. -/

namespace CoreArena

open Relation

namespace Act

variable {α β : Type}

/-! ## Running a part of an execution -/

/-- The result of a part of an execution, and the track that it leaves. -/
def eval (act : Act α) (t : Track) : Except Reason α × Track :=
  (act.run.run t : Id _)

theorem runIn_eq_eval (a : Arena) (act : Act Nat) : act.runIn a = act.eval ⟨a, []⟩ := rfl

theorem eval_throw (reason : Reason) (t : Track) :
    (throw reason : Act α).eval t = (.error reason, t) := rfl

theorem eval_get (t : Track) : (get : Act Track).eval t = (.ok t, t) := rfl

theorem eval_bind (act : Act α) (f : α → Act β) (t : Track) :
    (act >>= f).eval t =
      match act.eval t with
      | (.ok v, t') => (f v).eval t'
      | (.error reason, t') => (.error reason, t') := by
  change (ExceptT.bindCont f (act.eval t).1).run (act.eval t).2 = _
  cases act.eval t with
  | mk result t' => cases result <;> rfl

theorem eval_reach (x : Executor) (distance : Int) (t : Track) :
    (reach x distance).eval t = (.ok (t.arena.offset x.position distance), t) := rfl

theorem eval_read (program address : Nat) (reason : Reason) (t : Track) :
    (read program address reason).eval t =
      match t.arena.read? address with
      | none => (.error reason, t)
      | some (w, a) => (.ok w, ⟨a, t.events ++ [.read program address]⟩) := by
  rw [read, eval_bind, eval_get]
  dsimp only
  cases t.arena.read? address <;> rfl

theorem eval_write (x : Executor) (address : Nat) (w : Word) (t : Track) :
    (write x address w).eval t =
      match t.arena.write? address w x.writer with
      | none => (.error .badInteraction, t)
      | some a => (.ok (), ⟨a, t.events ++ [.written x.program address]⟩) := by
  rw [write, eval_bind, eval_get]
  dsimp only
  cases t.arena.write? address w x.writer <;> rfl

end Act

/-! ## Single accesses -/

namespace Cell

def countRead (c : Cell) : Cell :=
  { c with reads := countUp c.reads }

def overwrite (w : Word) (owner : Nat) (c : Cell) : Cell :=
  { c with value := w, owner := owner, writes := countUp c.writes }

end Cell

/-- One thing that an execution does for a program, crediting writes to a writer: it reads or writes
a live cell and reports that, or it reports the instruction that it fetched. -/
inductive Access (program writer : Nat) : Track → Track → Prop where
  | read (t : Track) (i : Nat) (h : t.arena.isDead i = false) :
      Access program writer t ⟨t.arena.update i Cell.countRead, t.events ++ [.read program i]⟩
  | write (t : Track) (i : Nat) (w : Word) (h : t.arena.isDead i = false) :
      Access program writer t
        ⟨t.arena.update i (Cell.overwrite w writer), t.events ++ [.written program i]⟩
  | cycle (t : Track) (i : Nat) :
      Access program writer t ⟨t.arena, t.events ++ [.cycle program i]⟩
  | foreign (t : Track) (author : Nat) :
      Access program writer t ⟨t.arena, t.events ++ [.foreign program author]⟩

abbrev Accesses (program writer : Nat) : Track → Track → Prop :=
  ReflTransGen (Access program writer)

theorem Accesses.append {program writer : Nat} (es : List Event) {t u : Track}
    (h : Accesses program writer t u) :
    Accesses program writer ⟨t.arena, es ++ t.events⟩ ⟨u.arena, es ++ u.events⟩ := by
  refine ReflTransGen.lift (fun t : Track => (⟨t.arena, es ++ t.events⟩ : Track)) ?_ _ _ h
  intro t u h
  show Access program writer ⟨t.arena, es ++ t.events⟩ ⟨u.arena, es ++ u.events⟩
  cases h with
  | read i hlive =>
      rw [← List.append_assoc]
      exact .read ⟨t.arena, es ++ t.events⟩ i hlive
  | write i w hlive =>
      rw [← List.append_assoc]
      exact .write ⟨t.arena, es ++ t.events⟩ i w hlive
  | cycle i =>
      rw [← List.append_assoc]
      exact .cycle ⟨t.arena, es ++ t.events⟩ i
  | foreign author =>
      rw [← List.append_assoc]
      exact .foreign ⟨t.arena, es ++ t.events⟩ author

theorem Access.sameShape {program writer : Nat} {t u : Track} (h : Access program writer t u) :
    t.arena.SameShape u.arena := by
  cases h with
  | read i _ => exact .update t.arena i _
  | write i w _ => exact .update t.arena i _
  | cycle | foreign => exact .refl t.arena

/-- Accesses change cells, but neither their number nor their limits. -/
theorem Accesses.sameShape {program writer : Nat} {t u : Track} (h : Accesses program writer t u) :
    t.arena.SameShape u.arena := by
  induction h with
  | refl => exact .refl t.arena
  | tail _ hlast ih => exact ih.trans hlast.sameShape

/-- An access of a live cell, as the instruction itself makes it. -/
inductive CellAccess (program writer : Nat) : Track → Track → Prop where
  | read (t : Track) (i : Nat) (h : t.arena.isDead i = false) :
      CellAccess program writer t ⟨t.arena.update i Cell.countRead, t.events ++ [.read program i]⟩
  | write (t : Track) (i : Nat) (w : Word) (h : t.arena.isDead i = false) :
      CellAccess program writer t
        ⟨t.arena.update i (Cell.overwrite w writer), t.events ++ [.written program i]⟩

theorem CellAccess.access {program writer : Nat} {t u : Track} (h : CellAccess program writer t u) :
    Access program writer t u := by
  cases h with
  | read i hlive => exact .read t i hlive
  | write i w hlive => exact .write t i w hlive

/-! ## Executions are made of accesses -/

namespace Act

variable {α β : Type}

/-- A part of an execution that makes steps of one kind and no others. -/
def Makes (R : Track → Track → Prop) (act : Act α) : Prop :=
  ∀ t, ReflTransGen R t (act.eval t).2

variable {R S : Track → Track → Prop} {x : Executor}

theorem makes_pure (v : α) : Makes R (pure v : Act α) :=
  fun _ => .refl

theorem makes_throw (reason : Reason) : Makes R (throw reason : Act α) :=
  fun _ => .refl

theorem makes_bind {act : Act α} {f : α → Act β} (hact : Makes R act) (hf : ∀ v, Makes R (f v)) :
    Makes R (act >>= f) := by
  intro t
  have hfirst := hact t
  rw [eval_bind]
  cases h : act.eval t with
  | mk result u =>
      rw [h] at hfirst
      cases result with
      | error reason => exact hfirst
      | ok v => exact hfirst.trans (hf v u)

theorem Makes.mono {act : Act α} (h : Makes R act) (hR : ∀ t u, R t u → S t u) : Makes S act :=
  fun t => ReflTransGen.mono hR _ _ (h t)

theorem makes_report {e : Event} (h : ∀ t : Track, R t ⟨t.arena, t.events ++ [e]⟩) :
    Makes R (report e) :=
  fun t => .single (h t)

theorem makes_reach (distance : Int) : Makes R (reach x distance) :=
  fun _ => .refl

theorem makes_read (writer address : Nat) (reason : Reason) :
    Makes (CellAccess x.program writer) (read x.program address reason) := by
  intro t
  rw [eval_read]
  cases h : t.arena.read? address with
  | none => exact .refl
  | some pair =>
      obtain ⟨w, a⟩ := pair
      obtain ⟨hlive, -, rfl⟩ := Arena.read?_eq_some_iff.mp h
      exact .single (.read t address hlive)

theorem makes_write (address : Nat) (w : Word) :
    Makes (CellAccess x.program x.writer) (write x address w) := by
  intro t
  rw [eval_write]
  cases h : t.arena.write? address w x.writer with
  | none => exact .refl
  | some a =>
      obtain ⟨hlive, rfl⟩ := Arena.write?_eq_some_iff.mp h
      exact .single (.write t address w hlive)

theorem makes_follow (n : Nat) (w : Word) :
    Makes (CellAccess x.program x.writer) (follow x n w) := by
  induction n generalizing w with
  | zero => exact makes_pure w
  | succ n ih =>
      exact makes_bind (makes_reach _) fun address => makes_bind (makes_read _ address _) ih

theorem makes_resolve (o : Operand) : Makes (CellAccess x.program x.writer) (resolve x o) :=
  makes_follow o.depth _

theorem makes_target (o : Operand) : Makes (CellAccess x.program x.writer) (target x o) :=
  makes_bind (makes_resolve o) fun _ => makes_reach _

theorem makes_combine (i : Instruction) (f : Word → Word → Word) :
    Makes (CellAccess x.program x.writer) (combine x i f) :=
  makes_bind (makes_resolve _) fun _ =>
    makes_bind (makes_target _) fun destination =>
      makes_bind (makes_read _ destination _) fun _ =>
        makes_bind (makes_write destination _) fun _ => makes_reach _

theorem makes_transfer (i : Instruction) (clears : Bool) :
    Makes (CellAccess x.program x.writer) (transfer x i clears) := by
  refine makes_bind (makes_target _) fun origin => ?_
  refine makes_bind (makes_target _) fun destination => ?_
  refine makes_bind (makes_read _ origin _) fun w => ?_
  refine makes_bind (makes_write destination w) fun _ => ?_
  split
  · exact makes_bind (makes_write origin 0) fun _ => makes_reach _
  · exact makes_reach _

theorem makes_skip (i : Instruction) (holds : Word → Word → Bool) :
    Makes (CellAccess x.program x.writer) (skip x i holds) :=
  makes_bind (makes_resolve _) fun _ => makes_bind (makes_resolve _) fun _ => makes_reach _

/-- An instruction does nothing but accesses of live cells. -/
theorem makes_perform (i : Instruction) :
    Makes (CellAccess x.program x.writer) (perform x i) := by
  unfold perform
  cases i.operation with
  | data | invalid => exact makes_throw .notExecutable
  | noop => exact makes_reach 1
  | jump => exact makes_target _
  | write =>
      exact makes_bind (makes_resolve _) fun w =>
        makes_bind (makes_target _) fun destination =>
          makes_bind (makes_write destination w) fun _ => makes_reach 1
  | add | subtract | multiply => exact makes_combine i _
  | copy | move => exact makes_transfer i _
  | skipIfEqual | skipIfGreater | skipIfLower => exact makes_skip i _

/-- A part of an execution that does nothing but accesses. -/
def IsTraced (program writer : Nat) (act : Act α) : Prop :=
  ∀ t, Accesses program writer t (act.eval t).2

theorem isTraced_carryOut (rules : Rules) (program position author : Nat) (w : Word) :
    IsTraced program (credited rules program author)
      (carryOut rules program position author w) := by
  have hperform (i : Instruction) : Makes (Access program (credited rules program author))
      (perform ⟨program, position, credited rules program author⟩ i) :=
    (makes_perform (x := ⟨program, position, credited rules program author⟩) i).mono
      fun _ _ => CellAccess.access
  have hrest := makes_bind (makes_report fun t => Access.cycle t position) fun _ =>
    hperform (.decode w)
  unfold carryOut
  split
  · exact makes_bind (makes_report fun t => .foreign t author) fun _ => hrest
  · exact hrest

/-- The fetch, and what follows if it succeeds. -/
theorem eval_execute (rules : Rules) (program position : Nat) (t : Track) :
    (execute rules program position).eval t =
      if t.arena.isDead position then (.error .badInteraction, t)
      else
        (carryOut rules program position (t.arena.cell position).owner
          (t.arena.cell position).value).eval
            ⟨t.arena.update position Cell.countRead, t.events ++ [.read program position]⟩ := by
  rw [execute, eval_bind, eval_read, Arena.read?]
  cases hdead : t.arena.isDead position with
  | true => rfl
  | false =>
      have howner : ((t.arena.update position Cell.countRead).cell position).owner =
          (t.arena.cell position).owner := by
        rw [Arena.cell_update]
        split <;> rfl
      simp only [Bool.false_eq_true, if_false]
      rw [eval_bind, eval_get, ← howner]
      rfl

/-- An execution is a run of accesses for its program. What it writes is credited as the rules say
for the owner of the instruction. -/
theorem execute_accesses (rules : Rules) (program position : Nat) (t : Track) :
    Accesses program (credited rules program (t.arena.cell position).owner) t
      ((execute rules program position).eval t).2 := by
  rw [eval_execute]
  cases hdead : t.arena.isDead position with
  | true => exact .refl
  | false =>
      exact .head (.read t position hdead) (isTraced_carryOut rules program position _ _ _)

/-! ## What an execution reports -/

/-- What may be reported of an execution of an instruction by its author. -/
inductive Reported (program author : Nat) : Event → Prop where
  | read (i : Nat) : Reported program author (.read program i)
  | written (i : Nat) : Reported program author (.written program i)
  | cycle (i : Nat) : Reported program author (.cycle program i)
  | foreign (hsome : author ≠ 0) (hother : author ≠ program) :
      Reported program author (.foreign program author)

/-- Nothing else is reported between two tracks. -/
def Tells (P : Event → Prop) (t u : Track) : Prop :=
  ∀ e ∈ u.events, e ∈ t.events ∨ P e

theorem tells_of_append {P : Event → Prop} {e : Event} (he : P e) (t : Track) (a : Arena) :
    Tells P t ⟨a, t.events ++ [e]⟩ := by
  intro e' he'
  rcases List.mem_append.mp he' with he' | he'
  · exact .inl he'
  · rw [List.mem_singleton.mp he']
    exact .inr he

theorem Makes.tells {P : Event → Prop} {act : Act α} (h : Makes (Tells P) act) (t : Track) :
    Tells P t (act.eval t).2 := by
  have hrun := h t
  generalize (act.eval t).2 = u at hrun
  induction hrun with
  | refl => exact fun e he => .inl he
  | tail _ hlast ih => exact fun e he => (hlast e he).elim (ih e) .inr

theorem tells_of_cellAccess {program author writer : Nat} {t u : Track}
    (h : CellAccess program writer t u) : Tells (Reported program author) t u := by
  cases h with
  | read i => exact tells_of_append (.read i) t _
  | write i => exact tells_of_append (.written i) t _

theorem carryOut_tells (rules : Rules) (program position author : Nat) (w : Word) (t : Track) :
    Tells (Reported program author) t ((carryOut rules program position author w).eval t).2 := by
  refine Makes.tells ?_ t
  have hperform (i : Instruction) : Makes (Tells (Reported program author))
      (perform ⟨program, position, credited rules program author⟩ i) :=
    (makes_perform (x := ⟨program, position, credited rules program author⟩) i).mono
      fun _ _ => tells_of_cellAccess
  have hrest := makes_bind
    (makes_report fun t => tells_of_append (P := Reported program author) (.cycle position) t _)
    fun _ => hperform (.decode w)
  unfold carryOut
  split
  · rename_i hforeign
    rw [Bool.and_eq_true, bne_iff_ne, bne_iff_ne] at hforeign
    exact makes_bind
      (makes_report fun t => tells_of_append (.foreign hforeign.1 hforeign.2) t _) fun _ => hrest
  · exact hrest

/-- An execution reports accesses of its program, its fetch, and the author of the instruction if
somebody else wrote it. -/
theorem execute_tells (rules : Rules) (program position : Nat) (t : Track) :
    Tells (Reported program (t.arena.cell position).owner) t
      ((execute rules program position).eval t).2 := by
  rw [eval_execute]
  cases t.arena.isDead position with
  | true => exact fun e he => .inl he
  | false =>
      intro e he
      rcases carryOut_tells rules program position _ _ _ e he with he | he
      · exact tells_of_append (.read position) t t.arena e he
      · exact .inr he

/-! ## Where an execution leads -/

/-- A part of an execution whose result is a cell of the arena. -/
def LeadsInside (act : Act Nat) : Prop :=
  ∀ t q, (act.eval t).1 = .ok q → 0 < (act.eval t).2.arena.size → q < (act.eval t).2.arena.size

theorem leadsInside_throw (reason : Reason) : LeadsInside (throw reason) := by
  intro t q h
  rw [eval_throw] at h
  cases h

theorem leadsInside_reach (x : Executor) (distance : Int) : LeadsInside (reach x distance) := by
  intro t q h hsize
  rw [eval_reach] at h hsize ⊢
  cases h
  exact Arena.offset_lt hsize x.position distance

theorem leadsInside_bind {act : Act α} {f : α → Act Nat} (hf : ∀ v, LeadsInside (f v)) :
    LeadsInside (act >>= f) := by
  intro t q h hsize
  rw [eval_bind] at h hsize ⊢
  cases hact : act.eval t with
  | mk result u =>
      rw [hact] at h hsize
      cases result with
      | error reason => cases h
      | ok v => exact hf v u q h hsize

theorem leadsInside_perform (x : Executor) (i : Instruction) : LeadsInside (perform x i) := by
  unfold perform
  cases i.operation with
  | data | invalid => exact leadsInside_throw _
  | noop => exact leadsInside_reach x 1
  | jump => exact leadsInside_bind fun _ => leadsInside_reach x _
  | write =>
      exact leadsInside_bind fun _ => leadsInside_bind fun _ => leadsInside_bind fun _ =>
        leadsInside_reach x 1
  | add | subtract | multiply =>
      exact leadsInside_bind fun _ => leadsInside_bind fun _ => leadsInside_bind fun _ =>
        leadsInside_bind fun _ => leadsInside_reach x 1
  | copy | move =>
      refine leadsInside_bind fun origin => leadsInside_bind fun destination =>
        leadsInside_bind fun _ => leadsInside_bind fun _ => ?_
      split
      · exact leadsInside_bind fun _ => leadsInside_reach x 1
      · exact leadsInside_reach x 1
  | skipIfEqual | skipIfGreater | skipIfLower =>
      exact leadsInside_bind fun _ => leadsInside_bind fun _ => leadsInside_reach x _

theorem leadsInside_carryOut (rules : Rules) (program position author : Nat) (w : Word) :
    LeadsInside (carryOut rules program position author w) := by
  unfold carryOut
  split
  · exact leadsInside_bind fun _ => leadsInside_bind fun _ => leadsInside_perform _ _
  · exact leadsInside_bind fun _ => leadsInside_perform _ _

/-- A pointer that survives an execution is on the ring. -/
theorem execute_leadsInside (rules : Rules) (program position : Nat) :
    LeadsInside (execute rules program position) :=
  leadsInside_bind fun w => leadsInside_bind fun _ =>
    leadsInside_carryOut rules program position _ w

end Act

end CoreArena
