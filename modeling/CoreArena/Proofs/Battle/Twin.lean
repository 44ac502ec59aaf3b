import CoreArena.Proofs.Battle.Invariant
import CoreArena.Proofs.Battle.Symmetry

/-! # Battles that look alike

Two battles are twins if their arenas, their programs and their pointers are. Steps that do the same
to twins leave twins and tell the host the same, up to places and numbers, as long as no pointer
ends at a limit that is lifted for the second: `Twin.after`. -/

namespace CoreArena

namespace Symmetry

variable {size : Nat} (σ : Symmetry size)

/-! ## Images -/

def warrior (w : Warrior) : Warrior :=
  ⟨{ w.program with id := σ.rename w.program.id }, ⟨σ.place w.placement.start, w.placement.length⟩⟩

def group (g : PointerGroup) : PointerGroup :=
  { g with id := σ.rename g.id, pointers := g.pointers.map σ.place }

def refusal : InstallError → InstallError
  | .duplicateId id => .duplicateId (σ.rename id)
  | e => e

def outcome : Outcome → Outcome
  | .decided survivor => .decided (survivor.map fun s => { s with id := σ.rename s.id })
  | .nothingToRun => .nothingToRun

def answer : Battle.Answer → Battle.Answer
  | .installed refusal => .installed (refusal.map σ.refusal)
  | .advanced outcome => .advanced (outcome.map σ.outcome)
  | .killed id => .killed (id.map σ.rename)
  | .poked => .poked

def reply (r : Battle.Reply) : Battle.Reply :=
  ⟨σ.answer r.answer, r.events.map σ.event⟩

@[simp] theorem isDead_group (g : PointerGroup) : (σ.group g).isDead = g.isDead :=
  List.isEmpty_map

/-- Two addresses lead to a cell and to its place. -/
def Moves (address address' : Nat) : Prop :=
  ∀ a a' : Arena, a.size = size → a'.size = size → a'.locate address' = σ.place (a.locate address)

end Symmetry

/-- Whether a pointer ended at a cell that had reached a limit. -/
def Event.isLimitKill : Event → Bool
  | killed _ _ reason _ => reason.isLimit
  | _ => false

namespace Battle

/-- Two steps that do the same, to programs with other numbers and at other addresses. -/
inductive Step.Moved (f : Renaming) (moves : Nat → Nat → Prop) : Step → Step → Prop where
  | install (p : Program) {address address' : Nat} (h : moves address address') :
      Moved f moves (.install p address) (.install { p with id := f.rename p.id } address')
  | advance : Moved f moves .advance .advance
  | kill (index : Nat) : Moved f moves (.kill index) (.kill index)
  | killById (id : Nat) : Moved f moves (.killById id) (.killById (f.rename id))
  | poke {address address' : Nat} (w : Word) (h : moves address address') :
      Moved f moves (.poke address w) (.poke address' w)

theorem Step.Moved.imp {f : Renaming} {moves moves' : Nat → Nat → Prop} {s s' : Step}
    (hmoves : ∀ address address', moves address address' → moves' address address')
    (h : s.Moved f moves s') : s.Moved f moves' s' := by
  cases h with
  | install p h => exact .install p (hmoves _ _ h)
  | advance => exact .advance
  | kill index => exact .kill index
  | killById id => exact .killById id
  | poke w h => exact .poke w (hmoves _ _ h)

variable {size : Nat} {σ : Symmetry size} {lifted : Bool}

/-- The second battle is the image of the first. Its limits are the same, or they are lifted. -/
structure Twin (σ : Symmetry size) (lifted : Bool) (b b' : Battle) : Prop where
  runForever_eq : b'.rules.runForever = b.rules.runForever
  clearOwnership_eq : b'.rules.clearOwnership = b.rules.clearOwnership
  creditAuthor_eq : b'.rules.creditAuthor = b.rules.creditAuthor
  arena : b.arena.Twin σ lifted b'.arena
  warriors_eq : b'.warriors = b.warriors.map σ.warrior
  groups_eq : b'.groups = b.groups.map σ.group
  turn_eq : b'.turn = b.turn

/-- Twins at the end of an operation on both, with the image of what it gave and reported. -/
structure Ends {α : Type} (σ : Symmetry size) (lifted : Bool) (image : α → α)
    (x x' : Aftermath α) : Prop where
  result_eq : x'.result = image x.result
  battle : x.battle.Twin σ lifted x'.battle
  events_eq : x'.events = x.events.map σ.event

/-! ## Cells -/

theorem installedOwner_rename (id : Nat) (w : Word) :
    installedOwner (σ.rename id) w = σ.rename (installedOwner id w) := by
  unfold installedOwner
  split
  · exact σ.rename_zero.symm
  · rfl

theorem twin_placeCode {a a' : Arena} (h : a.Twin σ lifted a') (program : Nat) {start : Nat}
    (hstart : start < size) (code : List Word) :
    (placeCode a program start code).Twin σ lifted
      (placeCode a' (σ.rename program) (σ.place start) code) := by
  have hsize : max 1 size = size := by omega
  have hrange : addressRange (σ.place start) code.length size =
      (addressRange start code.length size).map σ.place := by
    simp only [addressRange, List.map_map, hsize]
    exact List.map_congr_left fun k _ => (σ.place_mod hstart k).symm
  have hplaces : ∀ c ∈ (addressRange start code.length size).zip code, c.1 < size := by
    intro c hc
    have hlt := lt_of_mem_addressRange (List.of_mem_zip hc).1
    rwa [hsize] at hlt
  unfold placeCode
  rw [h.size_eq, h.size_eq', hrange, List.zip_map_left, List.foldl_map]
  generalize (addressRange start code.length size).zip code = cells at hplaces
  induction cells generalizing a a' with
  | nil => exact h
  | cons c cells ih =>
      refine ih (h.update (hplaces c List.mem_cons_self) _ _ fun cell => ?_)
        fun d hd => hplaces d (List.mem_cons_of_mem c hd)
      rw [id, installedOwner_rename]
      rfl

namespace Twin

variable {b b' : Battle} {index id position : Nat}

/-! ## Programs -/

theorem length_groups (h : Twin σ lifted b b') : b'.groups.length = b.groups.length := by
  rw [h.groups_eq, List.length_map]

theorem livesAt_eq (h : Twin σ lifted b b') : b'.livesAt = b.livesAt := by
  funext index
  unfold livesAt
  rw [h.groups_eq, List.getElem?_map]
  cases b.groups[index]? <;> simp

theorem isOver_eq (h : Twin σ lifted b b') : b'.isOver = b.isOver := by
  unfold isOver
  rw [h.groups_eq, List.all_map]
  exact congrArg b.groups.all (funext σ.isDead_group)

theorem nextLiving_eq (h : Twin σ lifted b b') (index : Nat) :
    b'.nextLiving index = b.nextLiving index := by
  rw [nextLiving, nextLiving, h.length_groups, h.livesAt_eq]

theorem living_eq (h : Twin σ lifted b b') : b'.living = b.living := by
  rw [living, living, h.length_groups, h.livesAt_eq]

theorem indexOf?_eq (h : Twin σ lifted b b') (id : Nat) :
    b'.indexOf? (σ.rename id) = b.indexOf? id := by
  unfold indexOf?
  rw [h.warriors_eq, List.findIdx?_map]
  congr 1
  funext w
  rw [Bool.eq_iff_iff, Function.comp_apply, beq_iff_eq, beq_iff_eq]
  exact σ.rename_inj

theorem outcomeAmong?_eq (h : Twin σ lifted b b') (places : List Nat) :
    b'.outcomeAmong? places = (b.outcomeAmong? places).map σ.outcome := by
  unfold outcomeAmong?
  split
  · rfl
  · rename_i index
    rw [h.warriors_eq, List.getElem?_map]
    cases b.warriors[index]? <;> rfl
  · rfl

theorem player?_eq (h : Twin σ lifted b b') :
    b'.player? = b.player?.map fun (id, position) => (σ.rename id, σ.place position) := by
  unfold player? PointerGroup.current?
  rw [h.groups_eq, h.turn_eq, List.getElem?_map]
  cases b.groups[b.turn]? with
  | none => rfl
  | some g => simp [Symmetry.group, Function.comp_def]

/-! ## Turns -/

theorem mendTurn (h : Twin σ lifted b b') : b.mendTurn.Twin σ lifted b'.mendTurn :=
  { h with
    turn_eq := by
      unfold Battle.mendTurn isTurnLost
      rw [h.length_groups, h.turn_eq] }

theorem skipDead (h : Twin σ lifted b b') : b.skipDead.Twin σ lifted b'.skipDead :=
  { h with
    turn_eq := by
      unfold Battle.skipDead
      rw [h.livesAt_eq, h.nextLiving_eq, h.turn_eq] }

theorem keepTurn (h : Twin σ lifted b b') : b.keepTurn.Twin σ lifted b'.keepTurn :=
  { h with
    turn_eq := by
      unfold Battle.keepTurn
      rw [h.length_groups, h.turn_eq] }

theorem passTurn (h : Twin σ lifted b b') (index : Nat) :
    (b.passTurn index).Twin σ lifted (b'.passTurn index) :=
  { h with turn_eq := h.nextLiving_eq index }

theorem executing?_eq (h : Twin σ lifted b b') :
    b'.executing? = b.executing?.map fun (id, position) => (σ.rename id, σ.place position) := by
  unfold executing?
  rw [h.isOver_eq, h.mendTurn.skipDead.player?_eq]
  split <;> rfl

/-! ## Operations -/

theorem removeAt (h : Twin σ lifted b b') (index id : Nat) :
    (b.removeAt index id).Twin σ lifted (b'.removeAt index (σ.rename id)) :=
  { h with
    arena := by
      rw [arena_removeAt, arena_removeAt, h.clearOwnership_eq]
      split
      · exact h.arena.clearOwner id
      · exact h.arena
    warriors_eq := by
      rw [warriors_removeAt, warriors_removeAt, h.warriors_eq, List.eraseIdx_map]
    groups_eq := by rw [groups_removeAt, groups_removeAt, h.groups_eq, List.eraseIdx_map] }

theorem bury (h : Twin σ lifted b b') (index id : Nat) (hposition : position < size)
    (reason : Reason) :
    Ends σ lifted (Option.map σ.outcome) (b.bury index id position reason)
      (b'.bury index (σ.rename id) (σ.place position) reason) := by
  have hkiller : (if (b'.arena.cell (σ.place position)).owner = σ.rename id then 0
        else (b'.arena.cell (σ.place position)).owner) =
      σ.rename (if (b.arena.cell position).owner = id then 0
        else (b.arena.cell position).owner) := by
    rw [h.arena.cell_eq position hposition]
    by_cases howner : (b.arena.cell position).owner = id
    · simp [Symmetry.cell, howner, σ.rename_zero]
    · simp [Symmetry.cell, howner, σ.rename_inj]
  unfold Battle.bury
  dsimp only
  rw [hkiller, h.runForever_eq, h.living_eq, h.outcomeAmong?_eq]
  split
  · exact ⟨rfl, (h.removeAt index id).keepTurn, rfl⟩
  · cases b.outcomeAmong? b.living with
    | some outcome => exact ⟨rfl, h, rfl⟩
    | none => exact ⟨rfl, h.passTurn index, rfl⟩

theorem kill (h : Twin σ lifted b b') (index : Nat) :
    Ends σ lifted (Option.map σ.rename) (b.kill index) (b'.kill index) := by
  have hget' : b'.groups[index]? = b.groups[index]?.map σ.group := by
    rw [h.groups_eq, List.getElem?_map]
  unfold Battle.kill
  rw [hget']
  cases b.groups[index]? with
  | none => exact ⟨rfl, h, rfl⟩
  | some g =>
      refine ⟨rfl, Twin.keepTurn { h.removeAt index g.id with turn_eq := ?_ }, ?_⟩
      · rw [turn_removeAt, turn_removeAt, h.turn_eq]
      · -- Nobody kills by force, and nobody stays nobody.
        exact congrArg (fun killer => [Event.killed (σ.rename g.id) killer .forced none])
          σ.rename_zero.symm

theorem killById (h : Twin σ lifted b b') (id : Nat) :
    Ends σ lifted (Option.map σ.rename) (b.killById id) (b'.killById (σ.rename id)) := by
  rw [killById_eq_kill, killById_eq_kill, h.indexOf?_eq, h.length_groups]
  exact h.kill _

theorem poke (h : Twin σ lifted b b') (hb : b.Invariant) {address address' : Nat}
    (hmoves : σ.Moves address address') (w : Word) :
    (b.poke address w).Twin σ lifted (b'.poke address' w) :=
  { h with
    arena := by
      have hlt := Arena.locate_lt hb.size_pos address
      unfold Battle.poke
      rw [hmoves _ _ h.arena.size_eq h.arena.size_eq']
      rw [h.arena.size_eq] at hlt
      exact h.arena.update hlt _ _ fun _ => rfl }

theorem install (h : Twin σ lifted b b') (hb : b.Invariant) (p : Program) {address address' : Nat}
    (hmoves : σ.Moves address address') :
    (b.next (.install p address)).Twin σ lifted
        (b'.next (.install { p with id := σ.rename p.id } address')) ∧
      b'.answer (.install { p with id := σ.rename p.id } address') =
        σ.answer (b.answer (.install p address)) := by
  have hlt := Arena.locate_lt hb.size_pos address
  have hsize : b'.arena.size = b.arena.size := h.arena.size_eq'.trans h.arena.size_eq.symm
  rw [h.arena.size_eq] at hlt
  unfold next Battle.answer Battle.install
  simp only [σ.rename_eq_zero, h.indexOf?_eq, hsize, hmoves _ _ h.arena.size_eq h.arena.size_eq']
  by_cases hcode : p.code = []
  · simp only [hcode, if_true]
    exact ⟨h, rfl⟩
  by_cases hlength : p.code.length > b.arena.size
  · simp only [hcode, hlength, if_true, if_false]
    exact ⟨h, rfl⟩
  by_cases hid : p.id = 0
  · simp only [hcode, hlength, hid, if_true, if_false]
    exact ⟨h, rfl⟩
  by_cases hfree : (b.indexOf? p.id).isSome = true
  · simp only [hcode, hlength, hid, hfree, if_true, if_false]
    exact ⟨h, rfl⟩
  · simp only [hcode, hlength, hid, hfree, if_false]
    refine ⟨{ h with
      arena := twin_placeCode h.arena p.id hlt p.code
      warriors_eq := ?_
      groups_eq := ?_ }, rfl⟩
    · show b'.warriors ++ _ = List.map σ.warrior (b.warriors ++ _)
      rw [List.map_append, h.warriors_eq]
      rfl
    · show b'.groups ++ _ = List.map σ.group (b.groups ++ _)
      rw [List.map_append, h.groups_eq]
      rfl

/-! ## Advances -/

theorem fallen (h : Twin σ lifted b b') (index id : Nat) {a a' : Arena}
    (ha : a.Twin σ lifted a') :
    (b.fallen index id a).Twin σ lifted (b'.fallen index (σ.rename id) a') :=
  { h with
    arena := ha
    groups_eq := by
      unfold Battle.fallen
      rw [h.groups_eq, List.map_set]
      rfl
    turn_eq := rfl }

theorem play (h : Twin σ lifted b b') (hget : b.groups[b.turn]? = some ⟨id, [position], 0⟩)
    (hposition : position < size) :
    (lifted = true ∧ (b.play id position).events.any Event.isLimitKill = true) ∨
      Ends σ lifted (Option.map σ.outcome) (b.play id position)
        (b'.play (σ.rename id) (σ.place position)) := by
  have hget' : b'.groups[b'.turn]? = some ⟨σ.rename id, [σ.place position], 0⟩ := by
    rw [h.groups_eq, h.turn_eq, List.getElem?_map, hget]
    rfl
  have hrun := Act.parallel_execute h.creditAuthor_eq id hposition ⟨b.arena, []⟩ ⟨b'.arena, []⟩
    ⟨h.arena, rfl⟩
  generalize hfirst : (Act.execute b.rules id position).eval _ = run at hrun
  generalize hsecond : (Act.execute b'.rules (σ.rename id) (σ.place position)).eval _ = run'
    at hrun
  cases hrun with
  | @ok next next' t t' value track =>
      obtain ⟨-, rfl⟩ := value
      rw [play_of_ok hget hfirst, play_of_ok hget' hsecond, h.turn_eq]
      have hmoved : Twin σ lifted
          { b with arena := t.arena, groups := b.groups.set b.turn ⟨id, [next], 0⟩ }
          { b' with
            arena := t'.arena
            groups := b'.groups.set b.turn ⟨σ.rename id, [σ.place next], 0⟩ } :=
        { h with
          arena := track.arena
          groups_eq := by
            rw [h.groups_eq, List.map_set]
            rfl }
      exact .inr ⟨rfl, hmoved.passTurn b.turn, track.events_eq⟩
  | @error reason t t' track =>
      have hburied := (h.fallen b.turn id track.arena).bury b.turn id hposition reason
      rw [play_of_error hget hfirst, play_of_error hget' hsecond, h.turn_eq]
      refine .inr ⟨hburied.result_eq, hburied.battle, ?_⟩
      rw [List.map_append, track.events_eq, hburied.events_eq]
  | @cut reason limit t lift other =>
      -- Only the second program goes on, but the first dies of the limit.
      rw [play_of_error hget hfirst]
      refine .inl ⟨lift, ?_⟩
      rw [List.any_append, events_bury, Bool.or_eq_true]
      exact .inr (by simpa [Event.isLimitKill] using limit)

theorem advance (h : Twin σ lifted b b') (hb : b.Invariant) :
    (lifted = true ∧ b.advance.events.any Event.isLimitKill = true) ∨
      Ends σ lifted (Option.map σ.outcome) b.advance b'.advance := by
  cases hover : b.isOver with
  | true =>
      unfold Battle.advance
      rw [h.isOver_eq, hover, h.runForever_eq]
      refine .inr ⟨?_, h, rfl⟩
      cases b.rules.runForever <;> rfl
  | false =>
      obtain ⟨id, position, hplayer⟩ := hb.exists_isPlayer hover
      have hexecuting' : b'.executing? = some (σ.rename id, σ.place position) := by
        rw [h.executing?_eq, hplayer.executing]
        rfl
      have hposition := hb.pointer_lt _ (List.mem_of_getElem? hplayer.group) position
        List.mem_cons_self
      rw [h.arena.size_eq] at hposition
      rw [advance_of_executing hplayer.executing, advance_of_executing hexecuting']
      refine h.mendTurn.skipDead.play ?_ hposition
      rw [mendTurn_of_lt (hb.turn_lt_length hover)]
      exact hplayer.group

/-! ## Histories -/

/-- A step on both battles leaves twins, unless the first reports a death of a lifted limit. -/
theorem next (h : Twin σ lifted b b') (hb : b.Invariant) {s s' : Step}
    (hs : s.Moved σ.toRenaming σ.Moves s') :
    (lifted = true ∧ (b.reports s).any Event.isLimitKill = true) ∨
      (b.next s).Twin σ lifted (b'.next s') ∧
        (⟨b'.answer s', b'.reports s'⟩ : Reply) = σ.reply ⟨b.answer s, b.reports s⟩ := by
  cases hs with
  | install p hmoves =>
      obtain ⟨htwin, hanswer⟩ := h.install hb p hmoves
      exact .inr ⟨htwin, congrArg (Reply.mk · []) hanswer⟩
  | advance =>
      refine (h.advance hb).imp id fun hends => ⟨hends.battle, ?_⟩
      exact congrArg₂ Reply.mk (congrArg Answer.advanced hends.result_eq) hends.events_eq
  | kill index =>
      have hends := h.kill index
      refine .inr ⟨hends.battle, ?_⟩
      exact congrArg₂ Reply.mk (congrArg Answer.killed hends.result_eq) hends.events_eq
  | killById id =>
      have hends := h.killById id
      refine .inr ⟨hends.battle, ?_⟩
      exact congrArg₂ Reply.mk (congrArg Answer.killed hends.result_eq) hends.events_eq
  | poke w hmoves => exact .inr ⟨h.poke hb hmoves w, rfl⟩

/-- Histories of the same steps leave twins and tell the same, unless the first tells of a death of
a lifted limit. -/
theorem after (h : Twin σ lifted b b') (hb : b.Invariant) {steps steps' : List Step}
    (hsteps : List.Forall₂ (Step.Moved σ.toRenaming σ.Moves) steps steps') :
    (lifted = true ∧ (b.history steps).any Event.isLimitKill = true) ∨
      (b.after steps).Twin σ lifted (b'.after steps') ∧
        b'.replies steps' = (b.replies steps).map σ.reply := by
  induction hsteps generalizing b b' with
  | nil => exact .inr ⟨h, rfl⟩
  | cons hs _ ih =>
      rw [history_cons, List.any_append, Bool.or_eq_true]
      rcases h.next hb hs with ⟨hlift, hlimit⟩ | ⟨htwin, hreply⟩
      · exact .inl ⟨hlift, .inl hlimit⟩
      · rcases ih htwin (hb.next _) with ⟨hlift, hlimit⟩ | ⟨htwin, hreplies⟩
        · exact .inl ⟨hlift, .inr hlimit⟩
        · exact .inr ⟨htwin, congrArg₂ List.cons hreply hreplies⟩

end Twin

end Battle

/-- The same rules without limits. -/
def Rules.unlimited (r : Rules) : Rules :=
  { r with maxWrites := 0, maxReads := 0 }

theorem Battle.twin_start (r : Rules) (σ : Symmetry (max 1 r.size)) (lifted : Bool) :
    (start r).Twin σ lifted (start (if lifted then r.unlimited else r)) := by
  have hcell (r' : Rules) (i j : Nat) :
      (start r').arena.cell j = σ.cell ((start r).arena.cell i) := by
    rw [cell_start, cell_start]
    simp only [Symmetry.cell, Cell.untouched, σ.rename_zero]
  cases lifted with
  | false | true =>
      exact ⟨rfl, rfl, rfl, ⟨size_start r, size_start _, rfl, rfl, fun i _ => hcell _ i _⟩,
        rfl, rfl, rfl⟩

end CoreArena
