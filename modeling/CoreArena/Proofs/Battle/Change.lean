import CoreArena.Proofs.Battle.Invariant

/-! # Histories, cell by cell

Seen from the arena, a history is a run of small changes: accesses of executions, owners that are
forgotten, deaths that are reported, and cells that the host sets. What each of these keeps, every
history keeps: `changes_history`. -/

namespace CoreArena

open Relation

/-- A change that playing programs and taking them out brings about. -/
inductive Touch : Track → Track → Prop where
  | access {program writer : Nat} {t u : Track} (h : Access program writer t u) : Touch t u
  | clearOwner (t : Track) (program : Nat) : Touch t ⟨t.arena.clearOwner program, t.events⟩
  | killed (t : Track) (victim killer : Nat) (reason : Reason) (place : Option Nat) :
      Touch t ⟨t.arena, t.events ++ [.killed victim killer reason place]⟩

inductive Setting : Track → Track → Prop where
  | place (t : Track) (i : Nat) (w : Word) (owner : Nat) :
      Setting t ⟨t.arena.place i w owner, t.events⟩
  | poke (t : Track) (i : Nat) (w : Word) : Setting t ⟨t.arena.poke i w, t.events⟩

/-- A change of the arena or of what was reported. -/
inductive Change : Track → Track → Prop where
  | touch {t u : Track} (h : Touch t u) : Change t u
  | setting {t u : Track} (h : Setting t u) : Change t u

theorem Change.sameShape {t u : Track} (h : Change t u) : t.arena.SameShape u.arena := by
  cases h with
  | touch h =>
      cases h with
      | access h => exact h.sameShape
      | clearOwner => exact .clearOwner t.arena _
      | killed => exact .refl t.arena
  | setting h =>
      cases h with
      | place => exact .update t.arena _ _
      | poke => exact .update t.arena _ _

/-- Changes leave the number of cells and their limits as they are. -/
theorem Changes.sameShape {t u : Track} (h : ReflTransGen Change t u) :
    t.arena.SameShape u.arena := by
  induction h with
  | refl => exact .refl t.arena
  | tail _ hlast ih => exact ih.trans hlast.sameShape

namespace Battle

def Step.setsCells : Step → Bool
  | .install .. | .poke .. => true
  | .advance | .kill _ | .killById _ => false

variable {b : Battle}

/-! ## What the host sets -/

theorem settings_placeCode (a : Arena) (es : List Event) (id start : Nat) (code : List Word) :
    ReflTransGen Setting ⟨a, es⟩ ⟨placeCode a id start code, es⟩ := by
  unfold placeCode
  generalize (addressRange start code.length a.size).zip code = cells
  induction cells generalizing a with
  | nil => exact .refl
  | cons c cells ih => exact .head (.place ⟨a, es⟩ c.1 c.2 _) (ih _)

theorem settings_next (es : List Event) {s : Step} (hs : s.setsCells = true) :
    ReflTransGen Setting ⟨b.arena, es⟩ ⟨(b.next s).arena, es ++ b.reports s⟩ := by
  cases s with
  | install p address =>
      show ReflTransGen Setting ⟨b.arena, es⟩ ⟨(b.next (.install p address)).arena, es ++ []⟩
      rw [List.append_nil]
      rcases b.next_install p address with hrefused | hinstall
      · rw [hrefused]
      · obtain ⟨-, -, -, -, hnext⟩ := install_eq_ok_iff.mp hinstall
        rw [hnext]
        exact settings_placeCode b.arena es p.id _ p.code
  | poke address w =>
      show ReflTransGen Setting ⟨b.arena, es⟩ ⟨b.arena.poke (b.arena.locate address) w, es ++ []⟩
      rw [List.append_nil]
      exact .single (.poke ⟨b.arena, es⟩ _ w)
  | advance | kill | killById => cases hs

/-! ## What playing and taking out touches -/

theorem touches_removeAt (es : List Event) (index id : Nat) :
    ReflTransGen Touch ⟨b.arena, es⟩ ⟨(b.removeAt index id).arena, es⟩ := by
  rw [arena_removeAt]
  split
  · exact .single (.clearOwner ⟨b.arena, es⟩ id)
  · exact .refl

theorem touches_run (es : List Event) {id position : Nat} {result : Except Reason Nat}
    {track : Track}
    (hrun : (Act.execute b.rules id position).eval ⟨b.arena, []⟩ = (result, track)) :
    ReflTransGen Touch ⟨b.arena, es⟩ ⟨track.arena, es ++ track.events⟩ := by
  have haccesses := (Act.execute_accesses b.rules id position ⟨b.arena, []⟩).append es
  rw [hrun, List.append_nil] at haccesses
  exact ReflTransGen.mono (fun _ _ => .access) _ _ haccesses

theorem touches_bury (es : List Event) (index id position : Nat) (reason : Reason) :
    ReflTransGen Touch ⟨b.arena, es⟩
      ⟨(b.bury index id position reason).battle.arena,
        es ++ (b.bury index id position reason).events⟩ := by
  rw [battle_bury, events_bury]
  generalize (if (b.arena.cell position).owner = id then 0
    else (b.arena.cell position).owner) = killer
  refine .head (.killed ⟨b.arena, es⟩ id killer reason (some position)) ?_
  split
  · exact touches_removeAt _ index id
  · split <;> exact .refl

theorem touches_advance (h : b.Invariant) (es : List Event) :
    ReflTransGen Touch ⟨b.arena, es⟩ ⟨b.advance.battle.arena, es ++ b.advance.events⟩ := by
  have hadvance := h.advance
  generalize b.advance = a at hadvance ⊢
  cases hadvance with
  | idle =>
      rw [List.append_nil]
  | moved _ hrun => exact touches_run es hrun
  | @died index id position reason track _ hrun =>
      rw [← List.append_assoc]
      exact (touches_run es hrun).trans
        (touches_bury (b := b.fallen index id track.arena) _ index id position reason)

theorem touches_kill (es : List Event) (index : Nat) :
    ReflTransGen Touch ⟨b.arena, es⟩
      ⟨(b.kill index).battle.arena, es ++ (b.kill index).events⟩ := by
  cases hget : b.groups[index]? with
  | none =>
      rw [kill_of_length_le (List.getElem?_eq_none_iff.mp hget), List.append_nil]
  | some g =>
      rw [kill_of_getElem? hget]
      exact .head (.killed ⟨b.arena, es⟩ g.id 0 .forced none) (touches_removeAt _ index g.id)

theorem touches_next (h : b.Invariant) (es : List Event) {s : Step} (hs : s.setsCells = false) :
    ReflTransGen Touch ⟨b.arena, es⟩ ⟨(b.next s).arena, es ++ b.reports s⟩ := by
  cases s with
  | advance => exact touches_advance h es
  | kill index => exact touches_kill es index
  | killById id =>
      show ReflTransGen Touch ⟨b.arena, es⟩
        ⟨(b.killById id).battle.arena, es ++ (b.killById id).events⟩
      rw [killById_eq_kill]
      exact touches_kill es _
  | install | poke => cases hs

/-! ## Histories -/

theorem changes_next (h : b.Invariant) (es : List Event) (s : Step) :
    ReflTransGen Change ⟨b.arena, es⟩ ⟨(b.next s).arena, es ++ b.reports s⟩ := by
  cases hs : s.setsCells with
  | true => exact ReflTransGen.mono (fun _ _ => .setting) _ _ (settings_next es hs)
  | false => exact ReflTransGen.mono (fun _ _ => .touch) _ _ (touches_next h es hs)

/-- A history is a run of changes. -/
theorem changes_history (h : b.Invariant) (es : List Event) (steps : List Step) :
    ReflTransGen Change ⟨b.arena, es⟩ ⟨(b.after steps).arena, es ++ b.history steps⟩ := by
  induction steps generalizing b es with
  | nil =>
      rw [history_nil, List.append_nil]
      rfl
  | cons s steps ih =>
      rw [history_cons, ← List.append_assoc]
      exact (changes_next h es s).trans (ih (h.next s) _)

theorem sameShape_after (h : b.Invariant) (steps : List Step) :
    b.arena.SameShape (b.after steps).arena :=
  Changes.sameShape (changes_history h [] steps)

/-! ## What a host can bring about -/

theorem rules_after_start (r : Rules) (steps : List Step) : ((start r).after steps).rules = r :=
  (invariant_start r).rules_after steps

theorem size_after_start (r : Rules) (steps : List Step) :
    ((start r).after steps).arena.size = max 1 r.size :=
  (sameShape_after (invariant_start r) steps).size_eq.trans (size_start r)

/-- Whatever a host does with a new battle, programs and pointers fit together on a ring of the size
that the rules ask for, and no advance finds the turn lost. -/
theorem after_start_wellFormed (r : Rules) (steps : List Step) :
    ((start r).after steps).Invariant ∧
      ((start r).after steps).rules = r ∧
      ((start r).after steps).arena.size = max 1 r.size ∧
      ((start r).after steps).warriors.length = ((start r).after steps).groups.length ∧
      (((start r).after steps).isOver = false →
        ((start r).after steps).isTurnLost = false ∧
          ((start r).after steps).mendTurn = (start r).after steps) ∧
      ((start r).after steps).warning? = none := by
  have h := invariant_after_start r steps
  refine ⟨h, rules_after_start r steps, size_after_start r steps, h.length_eq, ?_,
    h.warning?_eq_none⟩
  intro hover
  exact ⟨h.isTurnLost_eq_false hover, mendTurn_of_lt (h.turn_lt_length hover)⟩

end Battle

end CoreArena
