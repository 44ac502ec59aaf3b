import CoreArena.Proofs.Battle.Rota

/-! # Evictions

A host may take out several programs, one after the other, wherever they stand and whoever is about
to play. `Evicted` says what has happened to the battle in the end, and `Invariant.evicted_after`
that this is so: the others are as they were, and stand around the ring as they did. -/

namespace CoreArena.Battle

/-- A battle out of which programs were taken, and to which nothing else has happened. -/
structure Evicted (ids : List Nat) (b c : Battle) : Prop where
  rules_eq : c.rules = b.rules
  warriors_eq : c.warriors = b.warriors.filter (·.id ∉ ids)
  groups_eq : c.groups = b.groups.filter (·.id ∉ ids)
  /-- Around the ring from the place of the turn, the others come as they came. -/
  ring_eq : c.groups.rotate c.turn = (b.groups.rotate b.turn).filter (·.id ∉ ids)
  shape : b.arena.SameShape c.arena
  /-- Cells may forget an owner that is gone, and nothing else. -/
  cell_eq : ∀ i, c.arena.cell i =
    if b.rules.clearOwnership ∧ (b.arena.cell i).owner ∈ ids then
      { b.arena.cell i with owner := 0 }
    else b.arena.cell i

variable {b c d : Battle} {ids more : List Nat} {index id : Nat}

namespace Evicted

theorem refl (b : Battle) : b.Evicted [] b := by
  constructor <;> simp [Arena.SameShape.refl]

theorem filter_not_mem_append {α : Type} (f : α → Nat) (l : List α) :
    (l.filter (f · ∉ ids)).filter (f · ∉ more) = l.filter (f · ∉ ids ++ more) := by
  rw [List.filter_filter]
  refine List.filter_congr fun x _ => ?_
  rw [Bool.and_comm]
  simp

theorem trans (h : b.Evicted ids c) (h' : c.Evicted more d) : b.Evicted (ids ++ more) d where
  rules_eq := h'.rules_eq.trans h.rules_eq
  warriors_eq := by rw [h'.warriors_eq, h.warriors_eq, filter_not_mem_append]
  groups_eq := by rw [h'.groups_eq, h.groups_eq, filter_not_mem_append]
  ring_eq := by rw [h'.ring_eq, h.ring_eq, filter_not_mem_append]
  shape := h.shape.trans h'.shape
  cell_eq i := by
    rw [h'.cell_eq, h.cell_eq, h.rules_eq]
    by_cases hfirst : b.rules.clearOwnership ∧ (b.arena.cell i).owner ∈ ids
    · have hboth : b.rules.clearOwnership ∧ (b.arena.cell i).owner ∈ ids ++ more :=
        ⟨hfirst.1, List.mem_append_left _ hfirst.2⟩
      simp only [if_pos hfirst, if_pos hboth, ite_self]
    · have hsame : (b.rules.clearOwnership ∧ (b.arena.cell i).owner ∈ ids ++ more) ↔
          (b.rules.clearOwnership ∧ (b.arena.cell i).owner ∈ more) := by
        rw [List.mem_append]
        tauto
      simp only [if_neg hfirst, hsame]

/-- Those who stay play in the order in which they were going to. -/
theorem order_eq (h : b.Evicted ids c) : c.order = b.order.filter (· ∉ ids) := by
  rw [order, h.ring_eq, order, PointerGroup.livingIds, PointerGroup.livingIds, List.filter_map,
    List.filter_filter, List.filter_filter]
  refine congrArg _ (List.filter_congr fun g _ => ?_)
  exact Bool.and_comm ..

theorem ids_eq (h : b.Evicted ids c) : c.ids = b.ids.filter (· ∉ ids) := by
  rw [Battle.ids, h.groups_eq, Battle.ids, List.filter_map]
  rfl

end Evicted

theorem evicted_kill (h : b.Invariant) {g : PointerGroup} (hget : b.groups[index]? = some g) :
    b.Evicted [g.id] (b.kill index).battle := by
  obtain ⟨w, hw, hid⟩ := h.exists_warrior hget
  obtain ⟨before, behind, hring, hring'⟩ := h.rotate_kill hget
  have hwarriors : (b.warriors.map Warrior.id).Nodup := h.ids_eq ▸ h.ids_nodup
  have harena : (b.kill index).battle.arena =
      if b.rules.clearOwnership then b.arena.clearOwner g.id else b.arena := by
    rw [kill_of_getElem? hget]
    rfl
  constructor
  case rules_eq => exact b.rules_kill index
  case warriors_eq =>
    rw [kill_of_getElem? hget]
    show b.warriors.eraseIdx index = _
    rw [eraseIdx_eq_filter hwarriors hw, hid]
    simp only [List.mem_singleton]
  case groups_eq =>
    rw [kill_of_getElem? hget]
    show b.groups.eraseIdx index = _
    rw [eraseIdx_eq_filter h.ids_nodup hget]
    simp only [List.mem_singleton]
  case ring_eq =>
    have hnodup : ((before ++ g :: behind).map PointerGroup.id).Nodup := by
      rw [← hring, List.map_rotate]
      exact List.nodup_rotate.mpr h.ids_nodup
    rw [hring', hring, ← filter_ne_of_nodup_map hnodup]
    simp only [List.mem_singleton]
  case shape =>
    rw [harena]
    split
    · exact .clearOwner _ _
    · exact .refl _
  case cell_eq =>
    intro i
    rw [harena]
    split
    · rename_i hclear
      simp only [Arena.cell_clearOwner, hclear, true_and, List.mem_singleton]
    · rename_i hkeep
      rw [if_neg fun hboth => hkeep hboth.1]

theorem Invariant.killById_eq_kill_of_mem (h : b.Invariant) (hid : id ∈ b.ids) :
    ∃ index g, b.groups[index]? = some g ∧ g.id = id ∧ b.killById id = b.kill index := by
  unfold killById
  cases hindex : b.indexOf? id with
  | none => exact absurd hid (h.toRoster.not_mem_ids (by rw [hindex]; rfl))
  | some index =>
      obtain ⟨g, hget, hg⟩ : ∃ g, b.groups[index]? = some g ∧ g.id = id := by
        simpa [ids] using h.getElem?_ids_of_indexOf? hindex
      exact ⟨index, g, hget, hg, rfl⟩

/-- Programs that are taken out one after the other are reported in that order, and the others are
as they were. -/
theorem Invariant.evicted_after (h : b.Invariant) (hnodup : ids.Nodup) (hids : ids ⊆ b.ids) :
    b.Evicted ids (b.after (ids.map .killById)) ∧
      b.history (ids.map .killById) = ids.map fun id => .killed id 0 .forced none := by
  induction ids generalizing b with
  | nil => exact ⟨.refl b, rfl⟩
  | cons id ids ih =>
      obtain ⟨hid, hrest⟩ := List.nodup_cons.mp hnodup
      obtain ⟨hmem, hsubset⟩ := List.cons_subset.mp hids
      obtain ⟨index, g, hget, rfl, hkill⟩ := h.killById_eq_kill_of_mem hmem
      have hfirst : b.Evicted [g.id] (b.next (.killById g.id)) := by
        rw [Battle.next, hkill]
        exact evicted_kill h hget
      have hreport : b.reports (.killById g.id) = [.killed g.id 0 .forced none] := by
        rw [reports, hkill, kill_of_getElem? hget]
      -- The first one is not among the rest, so the rest are still there.
      have hthere : ids ⊆ (b.next (.killById g.id)).ids := by
        intro other hother
        rw [hfirst.ids_eq, List.mem_filter, decide_eq_true_eq, List.mem_singleton]
        exact ⟨hsubset hother, fun hsame => hid (hsame ▸ hother)⟩
      obtain ⟨hothers, hreports⟩ := ih (h.next _) hrest hthere
      refine ⟨hfirst.trans hothers, ?_⟩
      rw [List.map_cons, history_cons, hreport, hreports]
      rfl

/-- The first in the order of play is the one that plays next. -/
theorem Invariant.head?_order (h : b.Invariant) :
    b.order.head? = b.executing?.map Prod.fst := by
  cases hover : b.isOver with
  | true =>
      have hall := b.isOver_iff.mp hover
      rw [order, PointerGroup.livingIds_of_dead fun g hg => hall g (List.mem_rotate.mp hg),
        executing?, hover]
      rfl
  | false =>
      obtain ⟨id, position, hplayer⟩ := h.exists_isPlayer hover
      obtain ⟨front, back, -, -, horder⟩ := hplayer.exists_split
      rw [horder, hplayer.executing]
      rfl

end CoreArena.Battle
