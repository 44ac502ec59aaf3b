import CoreArena.Proofs.Battle.Written

/-! # What an advance leaves alone

An advance changes nothing that it does not report. `advance_accounted` says where values, owners
and counters may differ afterwards, that the other programs keep their pointers, and in which order
the events come. -/

namespace CoreArena

open Relation

/-- An access of a cell by an instruction of a program. -/
inductive Event.IsAccess (program : Nat) : Event → Prop where
  | read (i : Nat) : IsAccess program (.read program i)
  | written (i : Nat) : IsAccess program (.written program i)

/-- The report that an instruction was written by somebody else than the one that executes it. -/
def foreignReport (program author : Nat) : List Event :=
  if author != 0 && author != program then [.foreign program author] else []

/-! ## Reported changes of cells -/

namespace Arena

/-- A part of the cells differs between two arenas only where there is a report. -/
def Reported {α : Type} (part : Cell → α) (report : Nat → Event) (events : List Event)
    (a c : Arena) : Prop :=
  ∀ i, report i ∈ events ∨ part (c.cell i) = part (a.cell i)

section Reported

variable {α : Type} {part : Cell → α} {report : Nat → Event} {events more : List Event}
  {a c d : Arena}

theorem Reported.refl (a : Arena) : Reported part report events a a :=
  fun _ => .inr rfl

theorem Reported.trans (h : Reported part report events a c) (h' : Reported part report more c d) :
    Reported part report (events ++ more) a d := by
  intro i
  rcases h i with hi | hi
  · exact .inl (List.mem_append_left _ hi)
  rcases h' i with hi' | hi'
  · exact .inl (List.mem_append_right _ hi')
  · exact .inr (hi'.trans hi)

theorem Reported.mono (h : Reported part report events a c) (hsub : events ⊆ more) :
    Reported part report more a c :=
  fun i => (h i).imp_left fun hi => hsub hi

theorem reported_update (a : Arena) (i : Nat) (f : Cell → Cell) :
    Reported part report [report i] a (a.update i f) := by
  intro j
  by_cases hj : i = j
  · subst hj
    exact .inl (List.mem_singleton.mpr rfl)
  · rw [cell_update_of_ne a hj]
    exact .inr rfl

theorem reported_update_of_eq (a : Arena) (i : Nat) {f : Cell → Cell}
    (hf : ∀ c, part (f c) = part c) : Reported part report events a (a.update i f) := by
  intro j
  rw [cell_update]
  split
  · exact .inr (hf _)
  · exact .inr rfl

end Reported

/-- The accesses of a program account for all that differs between two arenas. -/
structure AccountedBy (program : Nat) (events : List Event) (a c : Arena) : Prop where
  value : Reported Cell.value (.written program) events a c
  owner : Reported Cell.owner (.written program) events a c
  writes : Reported Cell.writes (.written program) events a c
  reads : Reported Cell.reads (.read program) events a c

namespace AccountedBy

variable {program writer : Nat} {events more : List Event} {a c d : Arena}

theorem refl (a : Arena) : AccountedBy program events a a :=
  ⟨.refl a, .refl a, .refl a, .refl a⟩

theorem trans (h : AccountedBy program events a c) (h' : AccountedBy program more c d) :
    AccountedBy program (events ++ more) a d :=
  ⟨h.value.trans h'.value, h.owner.trans h'.owner, h.writes.trans h'.writes, h.reads.trans h'.reads⟩

theorem mono (h : AccountedBy program events a c) (hsub : events ⊆ more) :
    AccountedBy program more a c :=
  ⟨h.value.mono hsub, h.owner.mono hsub, h.writes.mono hsub, h.reads.mono hsub⟩

theorem countRead (a : Arena) (i : Nat) :
    AccountedBy program [.read program i] a (a.update i Cell.countRead) where
  value := reported_update_of_eq a i fun _ => rfl
  owner := reported_update_of_eq a i fun _ => rfl
  writes := reported_update_of_eq a i fun _ => rfl
  reads := reported_update a i _

theorem overwrite (a : Arena) (i : Nat) (w : Word) :
    AccountedBy program [.written program i] a (a.update i (Cell.overwrite w writer)) where
  value := reported_update a i _
  owner := reported_update a i _
  writes := reported_update a i _
  reads := reported_update_of_eq a i fun _ => rfl

end AccountedBy

end Arena

/-- Further events are accesses of a program, and they account for all that differs. -/
def AccessesOnly (program : Nat) (t u : Track) : Prop :=
  ∃ accesses, u.events = t.events ++ accesses ∧ (∀ e ∈ accesses, e.IsAccess program) ∧
    t.arena.AccountedBy program accesses u.arena

theorem CellAccess.accessesOnly {program writer : Nat} {t u : Track}
    (h : CellAccess program writer t u) : AccessesOnly program t u := by
  cases h with
  | read i hlive =>
      refine ⟨[.read program i], rfl, ?_, .countRead t.arena i⟩
      rintro e he
      rw [List.mem_singleton.mp he]
      exact .read i
  | write i w hlive =>
      refine ⟨[.written program i], rfl, ?_, .overwrite t.arena i w⟩
      rintro e he
      rw [List.mem_singleton.mp he]
      exact .written i

theorem AccessesOnly.trans {program : Nat} {t u v : Track} (h : AccessesOnly program t u)
    (h' : AccessesOnly program u v) : AccessesOnly program t v := by
  obtain ⟨accesses, hevents, hall, harena⟩ := h
  obtain ⟨more, hevents', hall', harena'⟩ := h'
  refine ⟨accesses ++ more, ?_, ?_, harena.trans harena'⟩
  · rw [hevents', hevents, List.append_assoc]
  · intro e he
    exact (List.mem_append.mp he).elim (hall e) (hall' e)

theorem accessesOnly_of_run {program writer : Nat} {t u : Track}
    (h : ReflTransGen (CellAccess program writer) t u) : AccessesOnly program t u := by
  induction h with
  | refl => exact ⟨[], (List.append_nil _).symm, fun _ he => absurd he List.not_mem_nil, .refl _⟩
  | tail _ hlast ih => exact ih.trans hlast.accessesOnly

/-! ## How often an instruction writes -/

namespace Act

open Event

variable {α β : Type} {x : Executor} {n : Nat}

/-- A part of an execution that writes so many times at most. -/
def WritesAtMost (n : Nat) (act : Act α) : Prop :=
  ∀ t, (writtenCells (act.eval t).2.events).length ≤ (writtenCells t.events).length + n

theorem Silent.writesAtMost {act : Act α} (h : Silent act) : WritesAtMost n act := by
  intro t
  rw [h t]
  exact Nat.le_add_right _ n

theorem Silent.bindAtMost {act : Act α} {f : α → Act β} (h : Silent act)
    (hf : ∀ v, WritesAtMost n (f v)) : WritesAtMost n (act >>= f) := by
  intro t
  have hfirst := h t
  rw [eval_bind]
  cases hact : act.eval t with
  | mk result u =>
      rw [hact] at hfirst
      cases result with
      | error reason =>
          rw [hfirst]
          exact Nat.le_add_right _ n
      | ok v =>
          rw [← hfirst]
          exact hf v u

/-- A write adds one to what the rest may write. -/
theorem writesAtMost_write_bind (i : Nat) (w : Word) {f : Unit → Act β}
    (hf : ∀ v, WritesAtMost n (f v)) : WritesAtMost (n + 1) (write x i w >>= f) := by
  intro t
  rw [eval_bind, eval_write]
  cases t.arena.write? i w x.writer with
  | none => exact Nat.le_add_right _ (n + 1)
  | some a =>
      have hrest := hf () ⟨a, t.events ++ [.written x.program i]⟩
      have hone : (writtenCells (t.events ++ [.written x.program i])).length =
          (writtenCells t.events).length + 1 := by
        rw [writtenCells_append, List.length_append]
        rfl
      dsimp only at hrest ⊢
      omega

theorem writesAtMost_combine (i : Instruction) (f : Word → Word → Word) :
    WritesAtMost 2 (combine x i f) := by
  refine (silent_resolve _).bindAtMost fun operand => ?_
  refine (silent_target _).bindAtMost fun destination => ?_
  refine (silent_read _ destination _).bindAtMost fun current => ?_
  exact writesAtMost_write_bind destination _ fun _ => (silent_reach 1).writesAtMost

/-- A move writes both cells. -/
theorem writesAtMost_transfer (i : Instruction) (clears : Bool) :
    WritesAtMost 2 (transfer x i clears) := by
  refine (silent_target _).bindAtMost fun origin => ?_
  refine (silent_target _).bindAtMost fun destination => ?_
  refine (silent_read _ origin _).bindAtMost fun w => ?_
  refine writesAtMost_write_bind destination w fun _ => ?_
  split
  · exact writesAtMost_write_bind origin 0 fun _ => (silent_reach 1).writesAtMost
  · exact (silent_reach 1).writesAtMost

theorem writesAtMost_perform (i : Instruction) : WritesAtMost 2 (perform x i) := by
  unfold perform
  cases i.operation with
  | data | invalid => exact (silent_throw .notExecutable).writesAtMost
  | noop => exact (silent_reach 1).writesAtMost
  | jump => exact (silent_target _).writesAtMost
  | write =>
      refine (silent_resolve _).bindAtMost fun w => ?_
      refine (silent_target _).bindAtMost fun destination => ?_
      exact writesAtMost_write_bind destination w fun _ => (silent_reach 1).writesAtMost
  | add | subtract | multiply => exact writesAtMost_combine i _
  | copy | move => exact writesAtMost_transfer i _
  | skipIfEqual | skipIfGreater | skipIfLower => exact (silent_skip i _).writesAtMost

/-! ## Whole executions -/

theorem eval_carryOut (rules : Rules) (program position author : Nat) (w : Word) (t : Track) :
    (carryOut rules program position author w).eval t =
      (perform ⟨program, position, credited rules program author⟩ (.decode w)).eval
        ⟨t.arena, t.events ++ (foreignReport program author ++ [.cycle program position])⟩ := by
  unfold carryOut foreignReport
  split
  · rw [← List.append_assoc]
    rfl
  · rfl

theorem perform_accesses (x : Executor) (i : Instruction) (t : Track) :
    ∃ accesses, ((perform x i).eval t).2.events = t.events ++ accesses ∧
      (∀ e ∈ accesses, e.IsAccess x.program) ∧ (writtenCells accesses).length ≤ 2 ∧
      t.arena.AccountedBy x.program accesses ((perform x i).eval t).2.arena := by
  obtain ⟨accesses, hevents, hall, harena⟩ := accessesOnly_of_run (makes_perform (x := x) i t)
  refine ⟨accesses, hevents, hall, ?_, harena⟩
  have hwrites := writesAtMost_perform (x := x) i t
  rw [hevents, writtenCells_append, List.length_append] at hwrites
  omega

/-- What comes of an execution, with nothing reported before. Either the fetch fails, or nothing but
accesses of the instruction follow it. -/
inductive Execution (program position : Nat) (a : Arena) : Except Reason Nat × Track → Prop where
  | refused (dead : a.isDead position = true) :
      Execution program position a (.error .badInteraction, ⟨a, []⟩)
  | fetched {result : Except Reason Nat} {c : Arena} {accesses : List Event}
      (live : a.isDead position = false)
      (accesses_only : ∀ e ∈ accesses, e.IsAccess program)
      (written_le : (writtenCells accesses).length ≤ 2)
      (accounted : a.AccountedBy program (.read program position :: accesses) c) :
      Execution program position a (result, ⟨c, .read program position ::
        foreignReport program (a.cell position).owner ++ .cycle program position :: accesses⟩)

theorem execution_execute (rules : Rules) (program position : Nat) (a : Arena) :
    Execution program position a ((execute rules program position).eval ⟨a, []⟩) := by
  rw [eval_execute]
  cases hdead : a.isDead position with
  | true => exact .refused hdead
  | false =>
      dsimp only
      rw [if_neg Bool.false_ne_true, eval_carryOut]
      obtain ⟨accesses, hevents, hall, hwritten, harena⟩ := perform_accesses
        ⟨program, position, credited rules program (a.cell position).owner⟩
        (.decode (a.cell position).value)
        ⟨a.update position Cell.countRead, [] ++ [.read program position] ++
          (foreignReport program (a.cell position).owner ++ [.cycle program position])⟩
      generalize (perform _ _).eval _ = after at hevents harena ⊢
      obtain ⟨result, c, events⟩ := after
      have hshape : events = .read program position ::
          foreignReport program (a.cell position).owner ++ .cycle program position :: accesses := by
        refine hevents.trans ?_
        rw [List.append_assoc, List.append_assoc, List.append_assoc]
        rfl
      rw [hshape]
      exact .fetched hdead hall hwritten ((Arena.AccountedBy.countRead a position).trans harena)

namespace Execution

variable {program position : Nat} {a : Arena} {result : Except Reason Nat} {track : Track}

theorem accountedBy (h : Execution program position a (result, track)) :
    a.AccountedBy program track.events track.arena := by
  cases h with
  | refused => exact .refl a
  | fetched _ _ _ haccounted =>
      refine haccounted.mono ?_
      intro e he
      rcases List.mem_cons.mp he with rfl | he
      · exact List.mem_cons_self
      · exact List.mem_append_right _ (List.mem_cons_of_mem _ he)

theorem writtenCells_foreignReport (program author : Nat) :
    writtenCells (foreignReport program author) = [] := by
  unfold foreignReport
  split <;> rfl

theorem written_le (h : Execution program position a (result, track)) :
    (writtenCells track.events).length ≤ 2 := by
  cases h with
  | refused => exact Nat.zero_le 2
  | @fetched _ _ accesses _ _ hle =>
      have hhead (author : Nat) : writtenCells (.read program position ::
          foreignReport program author) = [] := writtenCells_foreignReport program author
      rw [writtenCells_append, List.length_append, hhead]
      show 0 + (writtenCells accesses).length ≤ 2
      omega

end Execution

end Act

namespace Battle

open PointerGroup

variable {b : Battle} {id position : Nat}

/-! ## Advances -/

/-- The reports of an advance, in order: the death alone if the fetch fails, and otherwise the
fetch, the author if it is somebody else, the cycle, the accesses of the instruction and the death
if there is one. -/
inductive Report (b : Battle) (id position : Nat) : List Event → Prop where
  | refused {killer : Nat} (dead : b.arena.isDead position = true) :
      Report b id position [.killed id killer .badInteraction (some position)]
  | fetched {accesses death : List Event} (live : b.arena.isDead position = false)
      (accesses_only : ∀ e ∈ accesses, e.IsAccess id)
      (death_only : death = [] ∨
        ∃ killer reason, death = [.killed id killer reason (some position)]) :
      Report b id position (.read id position ::
        foreignReport id (b.arena.cell position).owner ++ .cycle id position :: accesses ++ death)

/-- What an advance does is what it reports. -/
structure Accounted (b : Battle) (id position : Nat) (a : Aftermath (Option Outcome)) : Prop where
  report : b.Report id position a.events
  value : b.arena.Reported Cell.value (.written id) a.events a.battle.arena
  writes : b.arena.Reported Cell.writes (.written id) a.events a.battle.arena
  reads : b.arena.Reported Cell.reads (.read id) a.events a.battle.arena
  /-- A program that is taken out may lose the cells that it owned. -/
  owner : ∀ i, .written id i ∈ a.events ∨
    (a.battle.arena.cell i).owner = (b.arena.cell i).owner ∨
    b.rules.clearOwnership = true ∧ id ∉ a.battle.ids ∧ (b.arena.cell i).owner = id
  writer : ∀ program i, .written program i ∈ a.events → program = id
  written_le : (Event.writtenCells a.events).length ≤ 2
  others : a.battle.groups.filter (·.id != id) = b.groups.filter (·.id != id)

theorem report_of_ok {next : Nat} {track : Track}
    (h : Act.Execution id position b.arena (.ok next, track)) :
    b.Report id position track.events := by
  cases h with
  | fetched hlive haccesses =>
      rw [← List.append_nil (_ ++ _)]
      exact .fetched hlive haccesses (.inl rfl)

theorem report_of_error {reason : Reason} {track : Track}
    (h : Act.Execution id position b.arena (.error reason, track)) (killer : Nat) :
    b.Report id position (track.events ++ [.killed id killer reason (some position)]) := by
  cases h with
  | refused hdead => exact .refused hdead
  | fetched hlive haccesses => exact .fetched hlive haccesses (.inr ⟨killer, reason, rfl⟩)

theorem cell_bury (b : Battle) (index id position : Nat) (reason : Reason) (i : Nat) :
    (b.bury index id position reason).battle.arena.cell i = b.arena.cell i ∨
      b.rules.runForever = true ∧ b.rules.clearOwnership = true ∧ (b.arena.cell i).owner = id ∧
        (b.bury index id position reason).battle.arena.cell i =
          { b.arena.cell i with owner := 0 } := by
  rw [battle_bury]
  split
  · rename_i hforever
    rw [arena_keepTurn, arena_removeAt]
    split
    · rename_i hclear
      rw [Arena.cell_clearOwner]
      split
      · rename_i howner
        exact .inr ⟨hforever, hclear, howner, rfl⟩
      · exact .inl rfl
    · exact .inl rfl
  · split
    · exact .inl rfl
    · exact .inl rfl

/-- Burying a program changes owners at most. -/
theorem reported_bury {α : Type} {part : Cell → α} {report : Nat → Event} {events : List Event}
    (hpart : ∀ c, part { c with owner := 0 } = part c) (b : Battle) (index id position : Nat)
    (reason : Reason) :
    b.arena.Reported part report events (b.bury index id position reason).battle.arena := by
  intro i
  right
  rcases b.cell_bury index id position reason i with hsame | ⟨-, -, -, hcleared⟩
  · rw [hsame]
  · rw [hcleared, hpart]

theorem filter_others {front back : List PointerGroup} (g : PointerGroup) :
    (front ++ g :: back).filter (·.id != g.id) = (front ++ back).filter (·.id != g.id) := by
  simp

theorem writer_of_run {result : Except Reason Nat} {track : Track}
    (hrun : (Act.execute b.rules id position).eval ⟨b.arena, []⟩ = (result, track))
    {program i : Nat} (hi : .written program i ∈ track.events) : program = id := by
  have htells := Act.execute_tells b.rules id position ⟨b.arena, []⟩ (.written program i)
  rw [hrun] at htells
  rcases htells hi with hnone | hreported
  · cases hnone
  · cases hreported
    rfl

theorem accounted_moved {front back : List PointerGroup} {next : Nat} {track : Track}
    (hgroups : b.groups = front ++ ⟨id, [position], 0⟩ :: back)
    (hrun : (Act.execute b.rules id position).eval ⟨b.arena, []⟩ = (.ok next, track)) :
    b.Accounted id position ⟨none,
      Battle.passTurn { b with
        arena := track.arena
        groups := b.groups.set front.length ⟨id, [next], 0⟩ } front.length,
      track.events⟩ := by
  have hexecution := Act.execution_execute b.rules id position b.arena
  rw [hrun] at hexecution
  have harena := hexecution.accountedBy
  exact {
    report := report_of_ok hexecution
    value := harena.value
    writes := harena.writes
    reads := harena.reads
    owner := fun i => (harena.owner i).imp_right .inl
    writer := fun _ _ => writer_of_run hrun
    written_le := hexecution.written_le
    others := by
      rw [groups_passTurn, hgroups, set_length_append]
      exact (filter_others ⟨id, [next], 0⟩).trans (filter_others ⟨id, [position], 0⟩).symm }

/-- The group of a program that dies is gone from a battle that goes on forever, and is empty
otherwise. -/
theorem groups_bury_fallen {front back : List PointerGroup}
    (hgroups : b.groups = front ++ ⟨id, [position], 0⟩ :: back) (arena : Arena) (reason : Reason) :
    ((b.fallen front.length id arena).bury front.length id position reason).battle.groups =
      if b.rules.runForever then front ++ back else front ++ ⟨id, [], 0⟩ :: back := by
  have hfallen : (b.fallen front.length id arena).groups = front ++ ⟨id, [], 0⟩ :: back := by
    rw [fallen, hgroups, set_length_append]
  rw [groups_bury, hfallen, eraseIdx_length_append]
  rfl

/-- A death takes cells from nobody but the one who died, and only in a battle where that is so. -/
theorem Invariant.owner_bury_fallen (h : b.Invariant) {front back : List PointerGroup}
    (hgroups : b.groups = front ++ ⟨id, [position], 0⟩ :: back) {arena : Arena} {i : Nat}
    (howner : (arena.cell i).owner = (b.arena.cell i).owner) (reason : Reason) :
    let after := (b.fallen front.length id arena).bury front.length id position reason
    (after.battle.arena.cell i).owner = (b.arena.cell i).owner ∨
      b.rules.clearOwnership = true ∧ id ∉ after.battle.ids ∧ (b.arena.cell i).owner = id := by
  dsimp only
  rcases (b.fallen front.length id arena).cell_bury front.length id position reason i with
    hcell | ⟨hforever, hclear, hvictim, -⟩
  · rw [hcell]
    exact .inl howner
  · refine .inr ⟨hclear, ?_, howner.symm.trans hvictim⟩
    rw [ids, groups_bury_fallen hgroups, if_pos (show b.rules.runForever = true from hforever)]
    exact h.toRoster.not_mem_others hgroups

theorem Invariant.accounted_died (h : b.Invariant) {front back : List PointerGroup}
    {reason : Reason} {track : Track}
    (hgroups : b.groups = front ++ ⟨id, [position], 0⟩ :: back)
    (hrun : (Act.execute b.rules id position).eval ⟨b.arena, []⟩ = (.error reason, track)) :
    let after := (b.fallen front.length id track.arena).bury front.length id position reason
    b.Accounted id position ⟨after.result, after.battle, track.events ++ after.events⟩ := by
  have hexecution := Act.execution_execute b.rules id position b.arena
  rw [hrun] at hexecution
  have harena := hexecution.accountedBy
  intro after
  have hkept {α : Type} {part : Cell → α} {report : Nat → Event}
      (hpart : ∀ cell, part { cell with owner := 0 } = part cell) :
      track.arena.Reported part report after.events after.battle.arena :=
    reported_bury hpart (b.fallen front.length id track.arena) front.length id position reason
  exact {
    report := by
      rw [events_bury]
      exact report_of_error hexecution _
    value := harena.value.trans (hkept fun _ => rfl)
    writes := harena.writes.trans (hkept fun _ => rfl)
    reads := harena.reads.trans (hkept fun _ => rfl)
    owner := by
      intro i
      rcases harena.owner i with hi | howner
      · exact .inl (List.mem_append_left _ hi)
      · exact .inr (h.owner_bury_fallen hgroups howner reason)
    writer := by
      intro program i hi
      rw [events_bury] at hi
      rcases List.mem_append.mp hi with hi | hi
      · exact writer_of_run hrun hi
      · cases List.mem_singleton.mp hi
    written_le := by
      rw [events_bury, Event.writtenCells_append, List.length_append]
      exact hexecution.written_le
    others := by
      rw [groups_bury_fallen hgroups, hgroups]
      refine Eq.trans ?_ (filter_others ⟨id, [position], 0⟩).symm
      split
      · rfl
      · exact filter_others ⟨id, [], 0⟩ }

theorem Invariant.accounted (h : b.Invariant) (hturn : b.executing? = some (id, position)) :
    b.Accounted id position b.advance := by
  have hadvance := h.advance
  generalize b.advance = a at hadvance ⊢
  cases hadvance with
  | idle hover =>
      rw [executing?, hover] at hturn
      cases hturn
  | moved hplayer hrun =>
      cases hplayer.executing.symm.trans hturn
      obtain ⟨front, back, hgroups, rfl, -⟩ := hplayer.exists_split
      exact accounted_moved hgroups hrun
  | died hplayer hrun =>
      cases hplayer.executing.symm.trans hturn
      obtain ⟨front, back, hgroups, rfl, -⟩ := hplayer.exists_split
      exact h.accounted_died hgroups hrun

/-- While somebody lives, an advance lets one program execute, and what it does is what it
reports. -/
theorem advance_accounted (r : Rules) (steps : List Step)
    (hlive : ((start r).after steps).isOver = false) :
    ∃ id position, ((start r).after steps).executing? = some (id, position) ∧
      ((start r).after steps).Accounted id position ((start r).after steps).advance := by
  have h := invariant_after_start r steps
  obtain ⟨id, position, hplayer⟩ := h.exists_isPlayer hlive
  exact ⟨id, position, hplayer.executing, h.accounted hplayer.executing⟩

theorem advance_accounted_adder :
    ((start { columnSize := 1, columnCount := 4 }).after [.install adder 0]).isOver = false ∧
      ∃ id position, ((start { columnSize := 1, columnCount := 4 }).after
          [.install adder 0]).executing? = some (id, position) ∧
        ((start { columnSize := 1, columnCount := 4 }).after [.install adder 0]).Accounted id
          position ((start { columnSize := 1, columnCount := 4 }).after
            [.install adder 0]).advance :=
  ⟨rfl, advance_accounted _ [.install adder 0] rfl⟩

end Battle

end CoreArena
