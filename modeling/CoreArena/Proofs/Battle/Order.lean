import CoreArena.Proofs.Battle.Invariant

/-! # The order of play

`order` lists the living programs in the order in which they are going to play. A step lets the
first of them play and go to the end, takes one out, or lets a new one in: `passage_next`. No step
ever moves two of the others past each other. -/

namespace CoreArena

namespace PointerGroup

/-- The numbers of the living, in the order of their groups. -/
def livingIds (groups : List PointerGroup) : List Nat :=
  (groups.filter fun g => !g.isDead).map PointerGroup.id

@[simp] theorem livingIds_append (groups more : List PointerGroup) :
    livingIds (groups ++ more) = livingIds groups ++ livingIds more := by
  rw [livingIds, List.filter_append, List.map_append]
  rfl

theorem livingIds_cons (g : PointerGroup) (groups : List PointerGroup) :
    livingIds (g :: groups) = if g.isDead then livingIds groups else g.id :: livingIds groups := by
  cases h : g.isDead <;> simp [livingIds, h]

theorem livingIds_of_dead {groups : List PointerGroup} (h : ∀ g ∈ groups, g.isDead = true) :
    livingIds groups = [] := by
  rw [livingIds, List.filter_eq_nil_iff.mpr]
  · rfl
  · intro g hg
    rw [h g hg]
    exact Bool.false_ne_true

theorem mem_livingIds {id : Nat} {groups : List PointerGroup} :
    id ∈ livingIds groups ↔ ∃ g ∈ groups, g.isDead = false ∧ g.id = id := by
  simp [livingIds, and_assoc]

theorem livingIds_sublist (groups : List PointerGroup) :
    (livingIds groups).Sublist (groups.map PointerGroup.id) :=
  List.filter_sublist.map _

end PointerGroup

namespace Battle

open PointerGroup

variable {b c : Battle}

def ids (b : Battle) : List Nat :=
  b.groups.map PointerGroup.id

/-- The living programs, the one that plays next first. -/
def order (b : Battle) : List Nat :=
  livingIds (b.groups.rotate b.turn)

/-- The program that a step lets execute an instruction. -/
def playing? (b : Battle) : Step → Option Nat
  | .advance => b.executing?.map Prod.fst
  | .install .. | .kill _ | .killById _ | .poke .. => none

theorem mem_order {id : Nat} :
    id ∈ b.order ↔ ∃ g ∈ b.groups, g.isDead = false ∧ g.id = id := by
  rw [order, mem_livingIds]
  simp only [List.mem_rotate]

theorem mem_ids_of_mem_order {id : Nat} (h : id ∈ b.order) : id ∈ b.ids := by
  obtain ⟨g, hg, -, rfl⟩ := mem_order.mp h
  exact List.mem_map_of_mem hg

theorem Roster.nodup_order (h : b.Roster) : b.order.Nodup := by
  have hsublist := livingIds_sublist (b.groups.rotate b.turn)
  rw [List.map_rotate] at hsublist
  exact hsublist.nodup (List.nodup_rotate.mpr h.ids_nodup)

/-! ## The order seen from a place -/

theorem set_length_append {α : Type} (front back : List α) (x y : α) :
    (front ++ x :: back).set front.length y = front ++ y :: back := by
  rw [List.set_append_right _ _ (Nat.le_refl _), Nat.sub_self, List.set_cons_zero]

theorem eraseIdx_length_append {α : Type} (front back : List α) (x : α) :
    (front ++ x :: back).eraseIdx front.length = front ++ back := by
  rw [List.eraseIdx_append_of_length_le (Nat.le_refl _), Nat.sub_self, List.eraseIdx_cons_zero]

theorem exists_append_of_getElem? {α : Type} {l : List α} {i : Nat} {x : α} (h : l[i]? = some x) :
    ∃ front back, l = front ++ x :: back ∧ i = front.length := by
  obtain ⟨hlt, rfl⟩ := List.getElem?_eq_some_iff.mp h
  refine ⟨l.take i, l.drop (i + 1), ?_, ?_⟩
  · rw [List.cons_getElem_drop_succ, List.take_append_drop]
  · rw [List.length_take, Nat.min_eq_left (Nat.le_of_lt hlt)]

/-- To take out the one entry that has a key is to keep those that have other keys. -/
theorem filter_ne_of_nodup_map {α β : Type} [DecidableEq β] {f : α → β} {front back : List α}
    {x : α} (h : ((front ++ x :: back).map f).Nodup) :
    (front ++ x :: back).filter (fun y => f y ≠ f x) = front ++ back := by
  rw [List.map_append, List.map_cons, List.nodup_middle, List.nodup_cons, ← List.map_append] at h
  have hothers : ∀ y ∈ front ++ back, f y ≠ f x := by
    intro y hy hsame
    exact h.1 (hsame ▸ List.mem_map_of_mem hy)
  have hkept : (front ++ back).filter (fun y => f y ≠ f x) = front ++ back :=
    List.filter_eq_self.mpr fun y hy => decide_eq_true (hothers y hy)
  rw [List.filter_append] at hkept
  rw [List.filter_append, List.filter_cons_of_neg (by simp), hkept]

theorem eraseIdx_eq_filter {α β : Type} [DecidableEq β] {f : α → β} {l : List α} {i : Nat} {x : α}
    (h : (l.map f).Nodup) (hget : l[i]? = some x) :
    l.eraseIdx i = l.filter fun y => f y ≠ f x := by
  obtain ⟨front, back, rfl, rfl⟩ := exists_append_of_getElem? hget
  rw [eraseIdx_length_append, filter_ne_of_nodup_map h]

theorem split_of_append_eq {α : Type} {before behind front back : List α} {x : α}
    (h : before ++ x :: behind = front ++ back) :
    (before.length < front.length ∧
      ∃ between, front = before ++ x :: between ∧ behind = between ++ back) ∨
    (¬ before.length < front.length ∧
      ∃ between, before = front ++ between ∧ back = between ++ x :: behind) := by
  rcases List.append_eq_append_iff.mp h with ⟨between, rfl, hbehind⟩ | ⟨between, rfl, rfl⟩
  · cases between with
    | nil =>
        right
        rw [List.append_nil]
        refine ⟨Nat.lt_irrefl _, [], ?_, hbehind.symm⟩
        rw [List.append_nil]
    | cons y between =>
        obtain ⟨rfl, rfl⟩ := List.cons.inj hbehind
        left
        refine ⟨?_, between, rfl, rfl⟩
        rw [List.length_append, List.length_cons]
        omega
  · right
    refine ⟨?_, between, rfl, rfl⟩
    rw [List.length_append]
    omega

theorem order_of_split {front back : List PointerGroup} (hgroups : b.groups = front ++ back)
    (hturn : b.turn = front.length) : b.order = livingIds (back ++ front) := by
  rw [order, hgroups, hturn, List.rotate_append_length_eq]

/-- A turn behind the last place is at the first one, so it makes no difference to the ring. -/
theorem rotate_keepTurn {front back : List PointerGroup} (hgroups : b.groups = front ++ back)
    (hturn : b.turn = front.length) :
    b.keepTurn.groups.rotate b.keepTurn.turn = back ++ front := by
  cases back with
  | cons g back =>
      have hlt : b.turn < b.groups.length := by
        rw [hgroups, hturn, List.length_append, List.length_cons]
        omega
      have hkept : b.keepTurn.turn = front.length := (if_pos hlt).trans hturn
      rw [hkept, groups_keepTurn, hgroups, List.rotate_append_length_eq]
  | nil =>
      have hge : ¬ b.turn < b.groups.length := by
        rw [hgroups, hturn, List.append_nil]
        exact Nat.lt_irrefl _
      have hzero : b.keepTurn.turn = 0 := if_neg hge
      rw [hzero, List.rotate_zero, groups_keepTurn, hgroups, List.append_nil]
      rfl

theorem order_keepTurn {front back : List PointerGroup} (hgroups : b.groups = front ++ back)
    (hturn : b.turn = front.length) : b.keepTurn.order = livingIds (back ++ front) :=
  congrArg livingIds (rotate_keepTurn hgroups hturn)

/-- Handing the turn on passes over dead programs only. -/
theorem order_passTurn (b : Battle) (index : Nat) :
    (b.passTurn index).order = livingIds (b.groups.rotate (index + 1)) := by
  rw [order, turn_passTurn, groups_passTurn]
  rcases b.nextLiving_spec index with ⟨hover, -⟩ | ⟨dead, g, rest, hring, hdead, -, -, hrot⟩
  · have hall := b.isOver_iff.mp hover
    rw [livingIds_of_dead fun g hg => hall g (List.mem_rotate.mp hg),
      livingIds_of_dead fun g hg => hall g (List.mem_rotate.mp hg)]
  · rw [hring, hrot, livingIds_append, livingIds_append, livingIds_of_dead hdead,
      List.append_nil, List.nil_append]

theorem order_passTurn_of_split {front back : List PointerGroup} {g : PointerGroup}
    (hgroups : b.groups = front ++ g :: back) :
    (b.passTurn front.length).order = livingIds (back ++ front) ++ livingIds [g] := by
  have hring : b.groups.rotate (front.length + 1) = back ++ (front ++ [g]) := by
    have hsplit : b.groups = (front ++ [g]) ++ back := by
      rw [hgroups, List.append_assoc]
      rfl
    rw [hsplit, ← List.length_singleton (a := g), ← List.length_append,
      List.rotate_append_length_eq]
  rw [order_passTurn, hring, ← List.append_assoc, livingIds_append]

theorem Invariant.exists_split (h : b.Invariant) :
    ∃ front back, b.groups = front ++ back ∧ b.turn = front.length := by
  have hturn : b.turn ≤ b.groups.length := by
    have hlength := h.length_eq
    rcases h.turn_lt with hlt | ⟨hzero, -⟩ <;> omega
  refine ⟨b.groups.take b.turn, b.groups.drop b.turn, ?_, ?_⟩
  · rw [List.take_append_drop]
  · rw [List.length_take, Nat.min_eq_left hturn]

/-- The player comes first; the others follow from its place around the ring. -/
theorem IsPlayer.exists_split {index id position : Nat} (h : b.IsPlayer index id position) :
    ∃ front back, b.groups = front ++ ⟨id, [position], 0⟩ :: back ∧ index = front.length ∧
      b.order = id :: livingIds (back ++ front) := by
  obtain ⟨front, back, hgroups, hindex⟩ := exists_append_of_getElem? h.group
  refine ⟨front, back, hgroups, hindex, ?_⟩
  obtain ⟨dead, rest, hdead, hring, hrot⟩ := h.ring
  have hothers : back ++ front = rest ++ dead := by
    rw [hgroups, hindex, List.rotate_append_length_eq] at hrot
    exact (List.cons.inj hrot).2
  rw [order, hring, hothers, livingIds_append, livingIds_append, livingIds_of_dead hdead,
    livingIds_cons, List.nil_append, List.append_nil]
  rfl

/-! ## What a step does to the order -/

/-- How the order may change when one plays, or none does. Nobody joins who has been there before.
-/
inductive Passage {α : Type} (old : α → Prop) : List α → Option α → List α → Prop where
  | plays (x : α) (others : List α) : Passage old (x :: others) (some x) (others ++ [x])
  | dies (x : α) (others : List α) : Passage old (x :: others) (some x) others
  | stays (order : List α) : Passage old order none order
  | leaves (before behind : List α) (x : α) :
      Passage old (before ++ x :: behind) none (before ++ behind)
  | joins (before behind : List α) (x : α) (h : ¬ old x) :
      Passage old (before ++ behind) none (before ++ x :: behind)

namespace Passage

variable {α β : Type} {old : α → Prop} {order order' : List α} {who : Option α} {x y : α}

theorem head (h : Passage old order (some x) order') : ∃ others, order = x :: others := by
  cases h with
  | plays _ others => exact ⟨others, rfl⟩
  | dies => exact ⟨order', rfl⟩

theorem mem_of_mem (h : Passage old order who order') (hx : x ∈ order') (hold : old x) :
    x ∈ order := by
  cases h with
  | plays y others =>
      rcases List.mem_append.mp hx with hx | hx
      · exact List.mem_cons_of_mem y hx
      · rw [List.mem_singleton.mp hx]
        exact List.mem_cons_self
  | dies y => exact List.mem_cons_of_mem y hx
  | stays => exact hx
  | leaves before behind y =>
      rcases List.mem_append.mp hx with hx | hx
      · exact List.mem_append_left _ hx
      · exact List.mem_append_right _ (List.mem_cons_of_mem y hx)
  | joins before behind y hy =>
      rcases List.mem_append.mp hx with hx | hx
      · exact List.mem_append_left _ hx
      · rcases List.mem_cons.mp hx with rfl | hx
        · exact absurd hold hy
        · exact List.mem_append_right _ hx

/-- Of two that stay, the one behind does not play before the other, nor does it get past. -/
theorem keeps_pair (h : Passage old order who order') (hnodup : order.Nodup)
    (hpair : [x, y].Sublist order) (hx : x ∈ order') (hy : y ∈ order') (hwho : who ≠ some x) :
    who ≠ some y ∧ [x, y].Sublist order' := by
  have hothers {z : α} {others : List α} (hz : x ≠ z) (hnodup : (z :: others).Nodup)
      (hpair : [x, y].Sublist (z :: others)) : z ≠ y ∧ [x, y].Sublist others := by
    have hrest : [x, y].Sublist others := by
      cases hpair with
      | cons _ hrest => exact hrest
      | cons_cons => exact absurd rfl hz
    refine ⟨?_, hrest⟩
    rintro rfl
    exact (List.nodup_cons.mp hnodup).1 (hrest.subset (by simp))
  cases h with
  | plays z others =>
      obtain ⟨hz, hrest⟩ := hothers (fun h => hwho (congrArg some h.symm)) hnodup hpair
      exact ⟨fun h => hz (Option.some.inj h), hrest.trans (List.sublist_append_left others [z])⟩
  | dies z =>
      obtain ⟨hz, hrest⟩ := hothers (fun h => hwho (congrArg some h.symm)) hnodup hpair
      exact ⟨fun h => hz (Option.some.inj h), hrest⟩
  | stays => exact ⟨Option.some_ne_none y ∘ Eq.symm, hpair⟩
  | leaves before behind z =>
      -- Both stay, so neither is the one that leaves, and erasing that one keeps the pair.
      classical
      have hz : z ∉ before ++ behind := (List.nodup_cons.mp (List.nodup_middle.mp hnodup)).1
      have herase : (before ++ z :: behind).erase z = before ++ behind := by
        rw [List.erase_append_right _ fun h => hz (List.mem_append_left _ h), List.erase_cons_head]
      have hself : [x, y].erase z = [x, y] := by
        refine List.erase_of_not_mem fun hmem => hz ?_
        rcases List.mem_pair.mp hmem with rfl | rfl
        · exact hx
        · exact hy
      refine ⟨Option.some_ne_none y ∘ Eq.symm, ?_⟩
      rw [← herase, ← hself]
      exact hpair.erase z
  | joins before behind z hz =>
      refine ⟨Option.some_ne_none y ∘ Eq.symm, hpair.trans ?_⟩
      exact (List.Sublist.refl before).append (List.sublist_cons_self z behind)

/-- Whoever has played comes behind all the others. -/
theorem sends_behind (h : Passage old order (some x) order') (hnodup : order.Nodup)
    (hpair : [x, y].Sublist order) (hx : x ∈ order') : [y, x].Sublist order' := by
  cases h with
  | plays _ others => exact hpair.tail.append (List.Sublist.refl [x])
  | dies => exact absurd hx (List.nodup_cons.mp hnodup).1

theorem map (h : Passage old order who order') {new : β → Prop} {f f' : α → β}
    (hsame : ∀ x ∈ order, f' x = f x) (hnew : ∀ x, ¬ old x → ¬ new (f' x)) :
    Passage new (order.map f) (who.map f) (order'.map f') := by
  rw [← List.map_congr_left hsame]
  cases h with
  | plays x others =>
      rw [Option.map_some, ← hsame x List.mem_cons_self, List.map_append]
      exact .plays (f' x) (others.map f')
  | dies x others =>
      rw [Option.map_some, ← hsame x List.mem_cons_self]
      exact .dies (f' x) (order'.map f')
  | stays => exact .stays _
  | leaves before behind x =>
      rw [List.map_append, List.map_append]
      exact .leaves _ _ (f' x)
  | joins before behind x hx =>
      rw [List.map_append, List.map_append]
      exact .joins _ _ (f' x) (hnew x hx)

end Passage

theorem passage_install (h : b.Invariant) {p : Program} {address : Nat}
    (hinstall : b.install p address = .ok c) : Passage (· ∈ b.ids) b.order none c.order := by
  obtain ⟨-, -, -, hfree, hc⟩ := install_eq_ok_iff.mp hinstall
  obtain ⟨front, back, hgroups, hturn⟩ := h.exists_split
  have hgroups' : c.groups = front ++ (back ++ [.start p.id (b.arena.locate address)]) := by
    rw [hc, hgroups, List.append_assoc]
  have hturn' : c.turn = front.length := by
    rw [hc, hturn]
  rw [order_of_split hgroups hturn, order_of_split hgroups' hturn', List.append_assoc,
    livingIds_append, livingIds_append]
  exact .joins _ _ p.id (h.toRoster.not_mem_ids hfree)

theorem passage_moved {index id position next : Nat} {a : Arena}
    (hplayer : b.IsPlayer index id position) :
    Passage (· ∈ b.ids) b.order (some id) (Battle.passTurn { b with
      arena := a
      groups := b.groups.set index ⟨id, [next], 0⟩ } index).order := by
  obtain ⟨front, back, hgroups, rfl, horder⟩ := hplayer.exists_split
  generalize hc : { b with
    arena := a
    groups := b.groups.set front.length ⟨id, [next], 0⟩ } = c
  have hgroups' : c.groups = front ++ ⟨id, [next], 0⟩ :: back := by
    rw [← hc, hgroups, set_length_append]
  rw [horder, order_passTurn_of_split hgroups']
  exact .plays id _

theorem passage_died {index id position : Nat} {reason : Reason} {a : Arena}
    (hplayer : b.IsPlayer index id position) :
    Passage (· ∈ b.ids) b.order (some id)
      ((b.fallen index id a).bury index id position reason).battle.order := by
  obtain ⟨front, back, hgroups, rfl, horder⟩ := hplayer.exists_split
  have hfallen : (b.fallen front.length id a).groups = front ++ ⟨id, [], 0⟩ :: back := by
    show b.groups.set front.length _ = _
    rw [hgroups, set_length_append]
  rw [horder, battle_bury]
  split
  · -- The program leaves its place to the next one, which is the one behind it in the order.
    have hremoved : ((b.fallen front.length id a).removeAt front.length id).groups =
        front ++ back := by
      rw [groups_removeAt, hfallen, eraseIdx_length_append]
    rw [order_keepTurn hremoved rfl]
    exact .dies id _
  · split
    · rw [order_of_split hfallen rfl]
      exact .dies id _
    · rw [order_passTurn_of_split hfallen]
      show Passage _ _ _ (livingIds (back ++ front) ++ [])
      rw [List.append_nil]
      exact .dies id _

theorem passage_without (old : Nat → Prop) (before behind : List PointerGroup) (g : PointerGroup) :
    Passage old (livingIds (before ++ g :: behind)) none (livingIds (before ++ behind)) := by
  rw [livingIds_append, livingIds_append, livingIds_cons]
  split
  · exact .stays _
  · exact .leaves _ _ g.id

/-- Whoever is taken out leaves the others as they stand around the ring. -/
theorem Invariant.rotate_kill (h : b.Invariant) {index : Nat} {g : PointerGroup}
    (hget : b.groups[index]? = some g) :
    ∃ before behind, b.groups.rotate b.turn = before ++ g :: behind ∧
      (b.kill index).battle.groups.rotate (b.kill index).battle.turn = before ++ behind := by
  obtain ⟨before, behind, hplace, rfl⟩ := exists_append_of_getElem? hget
  obtain ⟨front, back, hgroups, hturn⟩ := h.exists_split
  rw [kill_of_getElem? hget, hgroups, hturn, List.rotate_append_length_eq]
  generalize hc : ({ b.removeAt before.length g.id with
    turn := if before.length < front.length then front.length - 1 else front.length } : Battle) = c
  have hgroups' : c.groups = before ++ behind := by
    rw [← hc, groups_removeAt, hplace, eraseIdx_length_append]
  have hturn' : c.turn = if before.length < front.length then front.length - 1
      else front.length := by
    rw [← hc]
  show ∃ l r, back ++ front = l ++ g :: r ∧ c.keepTurn.groups.rotate c.keepTurn.turn = l ++ r
  rcases split_of_append_eq (hplace.symm.trans hgroups) with
    ⟨hpast, between, rfl, rfl⟩ | ⟨hpast, between, rfl, rfl⟩
  · -- The turn is past `g`, so its place moves down with the rest.
    have hplace' : c.turn = (before ++ between).length := by
      rw [hturn', if_pos hpast]
      simp only [List.length_append, List.length_cons]
      omega
    refine ⟨back ++ before, between, (List.append_assoc ..).symm, ?_⟩
    rw [rotate_keepTurn (hgroups'.trans (List.append_assoc ..).symm) hplace', List.append_assoc]
  · rw [if_neg hpast] at hturn'
    refine ⟨between, behind ++ front, List.append_assoc .., ?_⟩
    rw [rotate_keepTurn (hgroups'.trans (List.append_assoc ..)) hturn', List.append_assoc]

theorem passage_kill (h : b.Invariant) (index : Nat) :
    Passage (· ∈ b.ids) b.order none (b.kill index).battle.order := by
  cases hget : b.groups[index]? with
  | none =>
      rw [kill_of_length_le (List.getElem?_eq_none_iff.mp hget)]
      exact .stays _
  | some g =>
      obtain ⟨before, behind, hring, hring'⟩ := h.rotate_kill hget
      rw [order, order, hring, hring']
      exact passage_without _ before behind g

theorem Invariant.passage_next (h : b.Invariant) (s : Step) :
    Passage (· ∈ b.ids) b.order (b.playing? s) (b.next s).order := by
  cases s with
  | install p address =>
      show Passage (· ∈ b.ids) b.order none (b.next (.install p address)).order
      rcases b.next_install p address with hrefused | hinstall
      · rw [hrefused]
        exact .stays _
      · exact passage_install h hinstall
  | advance =>
      show Passage (· ∈ b.ids) b.order (b.executing?.map Prod.fst) b.advance.battle.order
      have hadvance := h.advance
      generalize b.advance = a at hadvance ⊢
      cases hadvance with
      | idle hover =>
          have hnobody : b.executing? = none := by
            rw [executing?, hover]
            rfl
          rw [hnobody]
          exact .stays _
      | moved hplayer =>
          rw [hplayer.executing]
          exact passage_moved hplayer
      | died hplayer =>
          rw [hplayer.executing]
          exact passage_died hplayer
  | kill index => exact passage_kill h index
  | killById id =>
      show Passage (· ∈ b.ids) b.order none (b.killById id).battle.order
      rw [killById_eq_kill]
      exact passage_kill h _
  | poke => exact .stays _

end Battle

end CoreArena
