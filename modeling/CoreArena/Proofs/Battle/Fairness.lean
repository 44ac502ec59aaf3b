import CoreArena.Proofs.Battle.Order

/-! # Everybody plays in turn

A program that is taken out may be installed again under the same number. `Chronicle` therefore
keeps the time at which each program joined, so that an `Instance` is one stay of a program in the
arena. Between two turns of one instance, each other one that is alive at both plays exactly once:
`plays_once_between`. -/

namespace CoreArena

/-- One stay of a program in an arena. -/
structure Instance where
  id : Nat
  /-- The time at which the program was installed. -/
  birth : Nat
  deriving DecidableEq, Repr

/-- A battle with the times at which its programs joined. -/
structure Chronicle where
  battle : Battle
  birth : Nat → Nat
  /-- The number of steps so far. -/
  clock : Nat

namespace Chronicle

open Battle

def start (r : Rules) : Chronicle :=
  ⟨.start r, fun _ => 0, 0⟩

/-- The chronicle after a step. Programs that were not there before the step join at its time. -/
def next (c : Chronicle) (s : Step) : Chronicle where
  battle := c.battle.next s
  birth id := if id ∈ c.battle.ids then c.birth id else c.clock
  clock := c.clock + 1

def after (c : Chronicle) : List Step → Chronicle
  | [] => c
  | s :: steps => (c.next s).after steps

def stay (c : Chronicle) (id : Nat) : Instance :=
  ⟨id, c.birth id⟩

def Lives (c : Chronicle) (x : Instance) : Prop :=
  ∃ g ∈ c.battle.groups, g.isDead = false ∧ c.stay g.id = x

/-- The instance that a step lets execute an instruction. -/
def playing? (c : Chronicle) (s : Step) : Option Instance :=
  (c.battle.playing? s).map c.stay

/-- The instances that execute in a list of steps, in order. -/
def plays (c : Chronicle) : List Step → List Instance
  | [] => []
  | s :: steps => (c.playing? s).toList ++ (c.next s).plays steps

@[simp] theorem after_nil (c : Chronicle) : c.after [] = c := rfl

@[simp] theorem after_cons (c : Chronicle) (s : Step) (steps : List Step) :
    c.after (s :: steps) = (c.next s).after steps := rfl

@[simp] theorem plays_nil (c : Chronicle) : c.plays [] = [] := rfl

@[simp] theorem plays_cons (c : Chronicle) (s : Step) (steps : List Step) :
    c.plays (s :: steps) = (c.playing? s).toList ++ (c.next s).plays steps := rfl

/-! ## The order of instances -/

def order (c : Chronicle) : List Instance :=
  c.battle.order.map c.stay

/-- What holds of a chronicle between two steps: whoever is there has joined before. -/
structure Sound (c : Chronicle) : Prop where
  battle : c.battle.Invariant
  birth_lt : ∀ id ∈ c.battle.ids, c.birth id < c.clock

variable {c : Chronicle} {p q x : Instance}

theorem mem_order : x ∈ c.order ↔ c.Lives x := by
  simp only [order, Lives, List.mem_map, Battle.mem_order]
  constructor
  · rintro ⟨_, ⟨g, hg, hlive, rfl⟩, rfl⟩
    exact ⟨g, hg, hlive, rfl⟩
  · rintro ⟨g, hg, hlive, rfl⟩
    exact ⟨g.id, ⟨g, hg, hlive, rfl⟩, rfl⟩

theorem Sound.nodup_order (h : c.Sound) : c.order.Nodup := by
  refine h.battle.toRoster.nodup_order.map ?_
  intro id id' hsame
  exact congrArg Instance.id hsame

theorem Sound.birth_lt_of_lives (h : c.Sound) (hx : c.Lives x) : x.birth < c.clock := by
  obtain ⟨g, hg, -, rfl⟩ := hx
  exact h.birth_lt g.id (List.mem_map_of_mem hg)

theorem sound_start (r : Rules) : (start r).Sound :=
  ⟨invariant_start r, fun _ h => absurd h List.not_mem_nil⟩

theorem Sound.next (h : c.Sound) (s : Step) : (c.next s).Sound := by
  refine ⟨h.battle.next s, ?_⟩
  intro id _
  show (if id ∈ c.battle.ids then c.birth id else c.clock) < c.clock + 1
  split
  · rename_i hid
    exact Nat.lt_succ_of_lt (h.birth_lt id hid)
  · exact Nat.lt_succ_self c.clock

theorem Sound.after (h : c.Sound) (steps : List Step) : (c.after steps).Sound := by
  induction steps generalizing c with
  | nil => exact h
  | cons s steps ih => exact ih (h.next s)

/-- A step changes the order of instances as it changes that of the programs. -/
theorem Sound.passage_next (h : c.Sound) (s : Step) :
    Passage (·.birth < c.clock) c.order (c.playing? s) (c.next s).order := by
  refine (h.battle.passage_next s).map ?_ ?_
  · intro id hid
    simp only [stay, Chronicle.next, if_pos (mem_ids_of_mem_order hid)]
  · intro id hid
    simp only [stay, Chronicle.next, if_neg hid]
    exact Nat.lt_irrefl c.clock

/-- An instance that lives later lives all the time from its installation on. -/
theorem Sound.lives_of_lives_after (h : c.Sound) (steps : List Step) (hx : (c.after steps).Lives x)
    (hold : x.birth < c.clock) : c.Lives x := by
  induction steps generalizing c with
  | nil => exact hx
  | cons s steps ih =>
      have hnext : (c.next s).Lives x := ih (h.next s) hx (Nat.lt_succ_of_lt hold)
      exact mem_order.mp ((h.passage_next s).mem_of_mem (mem_order.mpr hnext) hold)

theorem Sound.mem_order_next (h : c.Sound) (s : Step) {steps : List Step}
    (hx : ((c.next s).after steps).Lives x) (hnow : x ∈ c.order) : x ∈ (c.next s).order := by
  have hold : x.birth < c.clock := h.birth_lt_of_lives (mem_order.mp hnow)
  exact mem_order.mpr ((h.next s).lives_of_lives_after steps hx (Nat.lt_succ_of_lt hold))

/-! ## Waiting for a turn -/

theorem Sound.exists_order_of_playing (h : c.Sound) (hturn : c.playing? .advance = some p) :
    ∃ others, c.order = p :: others := by
  have hpassage := h.passage_next .advance
  rw [hturn] at hpassage
  exact hpassage.head

theorem Sound.lives_of_playing (h : c.Sound) (hturn : c.playing? .advance = some p) :
    c.Lives p := by
  obtain ⟨others, horder⟩ := h.exists_order_of_playing hturn
  rw [← mem_order, horder]
  exact List.mem_cons_self

/-- Whoever is behind another does not play before the other does. -/
theorem Sound.not_mem_plays (h : c.Sound) {steps : List Step}
    (hpair : [p, q].Sublist c.order) (hp : (c.after steps).Lives p) (hq : (c.after steps).Lives q)
    (hwaits : p ∉ c.plays steps) : q ∉ c.plays steps := by
  induction steps generalizing c with
  | nil => exact List.not_mem_nil
  | cons s steps ih =>
      rw [plays_cons, List.mem_append, Option.mem_toList] at hwaits ⊢
      have hp' : p ∈ (c.next s).order := h.mem_order_next s hp (hpair.subset (by simp))
      have hq' : q ∈ (c.next s).order := h.mem_order_next s hq (hpair.subset (by simp))
      obtain ⟨hidle, hpair'⟩ :=
        (h.passage_next s).keeps_pair h.nodup_order hpair hp' hq' fun hp => hwaits (.inl hp)
      rintro (hplays | hplays)
      · exact hidle hplays
      · exact ih (h.next s) hpair' hp hq (fun hp => hwaits (.inr hp)) hplays

/-- Whoever is in front of another plays once before the other does. -/
theorem Sound.count_plays (h : c.Sound) {steps : List Step}
    (hpair : [q, p].Sublist c.order) (hq : (c.after steps).Lives q)
    (hwaits : p ∉ c.plays steps) (hturn : (c.after steps).playing? .advance = some p) :
    (c.plays steps).count q = 1 := by
  induction steps generalizing c with
  | nil =>
      obtain ⟨others, horder⟩ := h.exists_order_of_playing hturn
      have hnodup := h.nodup_order
      rw [horder] at hpair hnodup
      exact absurd (hpair.tail.subset List.mem_cons_self) (List.nodup_cons.mp hnodup).1
  | cons s steps ih =>
      have hp : ((c.next s).after steps).Lives p :=
        ((h.next s).after steps).lives_of_playing hturn
      have hp' : p ∈ (c.next s).order := h.mem_order_next s hp (hpair.subset (by simp))
      have hq' : q ∈ (c.next s).order := h.mem_order_next s hq (hpair.subset (by simp))
      rw [plays_cons, List.mem_append, not_or] at hwaits
      rw [plays_cons, List.count_append]
      -- Once `q` has played, it is behind `p` and waits; until then it stays in front.
      by_cases hplays : c.playing? s = some q
      · have hpassage := h.passage_next s
        rw [hplays] at hpassage
        have hrest : q ∉ (c.next s).plays steps :=
          (h.next s).not_mem_plays (hpassage.sends_behind h.nodup_order hpair hq') hp hq hwaits.2
        rw [hplays, List.count_eq_zero.mpr hrest]
        exact List.count_singleton_self
      · have hpair' := ((h.passage_next s).keeps_pair h.nodup_order hpair hq' hp' hplays).2
        have hidle : q ∉ (c.playing? s).toList := fun hmem => hplays (Option.mem_toList.mp hmem)
        rw [List.count_eq_zero.mpr hidle, ih (h.next s) hpair' hq hwaits.2 hturn]

/-- Between a turn of an instance and its next turn, every other instance that lives at both plays
exactly once, whatever the host does in the meantime. -/
theorem plays_once_between (r : Rules) (before between : List Step)
    (hfirst : ((start r).after before).playing? .advance = some p)
    (hsecond : (((start r).after before).after (.advance :: between)).playing? .advance = some p)
    (hbetween : p ∉ (((start r).after before).next .advance).plays between)
    (hother : q ≠ p) (hlives : ((start r).after before).Lives q)
    (hlives' : (((start r).after before).after (.advance :: between)).Lives q) :
    ((((start r).after before).next .advance).plays between).count q = 1 := by
  have h := (sound_start r).after before
  generalize (start r).after before = c at *
  -- Its first turn sends `p` from the front of the order to the end, behind `q`.
  obtain ⟨others, horder⟩ := h.exists_order_of_playing hfirst
  have hq : q ∈ others := by
    have hmem := mem_order.mpr hlives
    rw [horder] at hmem
    exact (List.mem_cons.mp hmem).resolve_left hother
  have hpair : [p, q].Sublist c.order := by
    rw [horder]
    exact (List.singleton_sublist.mpr hq).cons_cons p
  have hp : ((c.next .advance).after between).Lives p :=
    ((h.next .advance).after between).lives_of_playing hsecond
  have hpassage := h.passage_next .advance
  rw [hfirst] at hpassage
  have hbehind : [q, p].Sublist (c.next .advance).order :=
    hpassage.sends_behind h.nodup_order hpair (h.mem_order_next .advance hp (by simp [horder]))
  exact (h.next .advance).count_plays hbehind hlives' hbetween hsecond

def idlers : Chronicle :=
  (start { columnSize := 1, columnCount := 4, runForever := true }).after
    [.install (idler 1) 0, .install (idler 2) 1, .install (idler 3) 2]

/-- Taking out the third program hands the turn from the second back to the first. -/
theorem plays_once_between_removal :
    idlers.playing? .advance = some ⟨1, 0⟩ ∧
      (idlers.after [.advance, .advance, .killById 3]).playing? .advance = some ⟨1, 0⟩ ∧
      ((idlers.next .advance).plays [.advance, .killById 3]).count ⟨2, 1⟩ = 1 :=
  ⟨rfl, rfl, plays_once_between _ _ [.advance, .killById 3] (p := ⟨1, 0⟩) rfl rfl (by decide)
    (by decide) ⟨⟨2, [1], 0⟩, by decide, rfl, rfl⟩ ⟨⟨2, [2], 0⟩, by decide, rfl, rfl⟩⟩

end Chronicle

end CoreArena
