import CoreArena.Battle.Lemmas
import Mathlib.Data.List.Rotate

/-! # The ring of programs

The programs of a battle stand in a ring. Seen from the place of the turn, handing the turn on
rotates the ring until a living program comes first. -/

namespace CoreArena.Battle

/-! ## Who lives -/

theorem isOver_iff (b : Battle) : b.isOver = true ↔ ∀ g ∈ b.groups, g.isDead = true := by
  simp [isOver]

theorem isOver_eq_false_iff (b : Battle) :
    b.isOver = false ↔ ∃ g ∈ b.groups, g.isDead = false := by
  simp [isOver]

theorem livesAt_of_getElem? {b : Battle} {index : Nat} {g : PointerGroup}
    (h : b.groups[index]? = some g) : b.livesAt index = !g.isDead := by
  rw [livesAt, h]
  rfl

theorem livesAt_rotate (b : Battle) (index : Nat) {k : Nat} {g : PointerGroup}
    (h : (b.groups.rotate (index + 1))[k]? = some g) :
    b.livesAt ((index + 1 + k) % b.groups.length) = !g.isDead := by
  have hk : k < b.groups.length := by
    rw [← List.length_rotate b.groups (index + 1)]
    exact (List.getElem?_eq_some_iff.mp h).1
  rw [List.getElem?_rotate hk, Nat.add_comm k] at h
  exact livesAt_of_getElem? h

/-! ## Handing the turn on -/

theorem nextLiving_eq (b : Battle) (index : Nat) :
    b.nextLiving index =
      (((List.range b.groups.length).find? fun k =>
        b.livesAt ((index + 1 + k) % b.groups.length)).map fun k =>
          (index + 1 + k) % b.groups.length).getD 0 := by
  rw [nextLiving, List.find?_map]
  rfl

theorem nextLiving_of_dead {b : Battle} (h : ∀ g ∈ b.groups, g.isDead = true) (index : Nat) :
    b.nextLiving index = 0 := by
  rw [nextLiving_eq, List.find?_range_eq_none.mpr]
  · rfl
  · intro k hk
    have hk' : k < (b.groups.rotate (index + 1)).length := by rwa [List.length_rotate]
    rw [b.livesAt_rotate index (List.getElem?_eq_getElem hk'),
      h _ (List.mem_rotate.mp (List.getElem_mem hk'))]
    rfl

theorem nextLiving_of_ring {b : Battle} {index : Nat} {dead rest : List PointerGroup}
    {g : PointerGroup} (hring : b.groups.rotate (index + 1) = dead ++ g :: rest)
    (hdead : ∀ d ∈ dead, d.isDead = true) (hlive : g.isDead = false) :
    dead.length < b.groups.length ∧
      b.nextLiving index = (index + 1 + dead.length) % b.groups.length := by
  have hlength : dead.length < b.groups.length := by
    have := congrArg List.length hring
    simp only [List.length_rotate, List.length_append, List.length_cons] at this
    omega
  have hfirst : (List.range b.groups.length).find?
      (fun k => b.livesAt ((index + 1 + k) % b.groups.length)) = some dead.length := by
    refine List.find?_range_eq_some.mpr ⟨?_, List.mem_range.mpr hlength, ?_⟩
    · have hget : (b.groups.rotate (index + 1))[dead.length]? = some g := by
        rw [hring, List.getElem?_append_right (Nat.le_refl _), Nat.sub_self]
        rfl
      rw [b.livesAt_rotate index hget, hlive]
      rfl
    · intro j hj
      have hget : (b.groups.rotate (index + 1))[j]? = some dead[j] := by
        rw [hring, List.getElem?_append_left hj, List.getElem?_eq_getElem hj]
      rw [b.livesAt_rotate index hget, hdead _ (List.getElem_mem hj)]
      rfl
  refine ⟨hlength, ?_⟩
  rw [nextLiving_eq, hfirst]
  rfl

/-- The turn after a place goes to the first living program of the ring that starts behind it, and
nowhere if nobody lives. -/
theorem nextLiving_spec (b : Battle) (index : Nat) :
    (b.isOver = true ∧ b.nextLiving index = 0) ∨
    ∃ dead g rest, b.groups.rotate (index + 1) = dead ++ g :: rest ∧
      (∀ d ∈ dead, d.isDead = true) ∧ g.isDead = false ∧
      b.nextLiving index < b.groups.length ∧
      b.groups.rotate (b.nextLiving index) = g :: rest ++ dead := by
  cases hfind : (b.groups.rotate (index + 1)).find? fun g => !g.isDead with
  | none =>
      have hdead : ∀ g ∈ b.groups, g.isDead = true := by
        intro g hg
        have := List.find?_eq_none.mp hfind g (List.mem_rotate.mpr hg)
        simpa using this
      exact .inl ⟨b.isOver_iff.mpr hdead, nextLiving_of_dead hdead index⟩
  | some g =>
      obtain ⟨hlive, dead, rest, hring, hall⟩ := List.find?_eq_some_iff_append.mp hfind
      have hg : g.isDead = false := by simpa using hlive
      have hdead : ∀ d ∈ dead, d.isDead = true := by simpa using hall
      obtain ⟨hlength, hplace⟩ := nextLiving_of_ring hring hdead hg
      refine .inr ⟨dead, g, rest, hring, hdead, hg, ?_, ?_⟩
      · rw [hplace]
        exact Nat.mod_lt _ (Nat.zero_lt_of_lt hlength)
      · rw [hplace, List.rotate_mod, ← List.rotate_rotate, hring, List.rotate_append_length_eq]

theorem nextLiving_lt {b : Battle} (h : b.groups ≠ []) (index : Nat) :
    b.nextLiving index < b.groups.length := by
  rcases b.nextLiving_spec index with ⟨-, hzero⟩ | ⟨_, _, _, -, -, -, hlt, -⟩
  · rw [hzero]
    exact List.length_pos_iff.mpr h
  · exact hlt

theorem isTurnLost_of_lt {b : Battle} (h : b.turn < b.groups.length) : b.isTurnLost = false := by
  rw [isTurnLost, decide_eq_false_iff_not]
  exact Nat.not_le_of_lt h

theorem mendTurn_of_lt {b : Battle} (h : b.turn < b.groups.length) : b.mendTurn = b := by
  rw [mendTurn, isTurnLost_of_lt h]
  rfl

/-- A dead program that stands last behind a living one leaves the rest of the ring to it. -/
theorem exists_rest_of_last {dead tail rest : List PointerGroup} {g last : PointerGroup}
    (hring : tail ++ [last] = dead ++ g :: rest) (hlast : last.isDead = true)
    (hlive : g.isDead = false) :
    ∃ others, rest = others ++ [last] ∧ tail = dead ++ g :: others := by
  rcases List.eq_nil_or_concat rest with rfl | ⟨others, other, rfl⟩
  · obtain ⟨-, hsame⟩ := List.append_inj' hring rfl
    cases hsame
    rw [hlive] at hlast
    cases hlast
  · have hsplit : tail ++ [last] = (dead ++ g :: others) ++ [other] := by
      rw [hring]
      simp
    obtain ⟨rfl, hsame⟩ := List.append_inj' hsplit rfl
    cases hsame
    exact ⟨others, by simp, rfl⟩

/-- The turn passes over the dead to the first living program of its ring. -/
theorem skipDead_spec {b : Battle} (hturn : b.turn < b.groups.length) (hover : b.isOver = false) :
    ∃ dead g rest, b.groups.rotate b.turn = dead ++ g :: rest ∧
      (∀ d ∈ dead, d.isDead = true) ∧ g.isDead = false ∧
      b.groups[b.skipDead.turn]? = some g ∧
      b.groups.rotate b.skipDead.turn = g :: rest ++ dead := by
  obtain ⟨first, tail, hring⟩ : ∃ first tail, b.groups.rotate b.turn = first :: tail := by
    refine List.exists_cons_of_ne_nil fun hnil => ?_
    rw [List.rotate_eq_nil_iff.mp hnil] at hturn
    exact Nat.not_lt_zero _ hturn
  have hget : b.groups[b.turn]? = some first := by
    rw [← List.head?_rotate hturn, hring]
    rfl
  cases hfirst : first.isDead with
  | false =>
      have hskip : b.skipDead.turn = b.turn := by
        rw [skipDead, livesAt_of_getElem? hget, hfirst]
        rfl
      refine ⟨[], first, tail, hring, by simp, hfirst, ?_, ?_⟩
      · rw [hskip, hget]
      · rw [hskip, hring, List.append_nil]
  | true =>
      have hskip : b.skipDead.turn = b.nextLiving b.turn := by
        rw [skipDead, livesAt_of_getElem? hget, hfirst]
        rfl
      rcases b.nextLiving_spec b.turn with ⟨hdead, -⟩ | ⟨dead, g, rest, hnext, hdead, hg, hlt, hrot⟩
      · rw [hover] at hdead
        cases hdead
      · have hbehind : tail ++ [first] = dead ++ g :: rest := by
          rw [← hnext, ← List.rotate_rotate, hring, List.rotate_cons_succ, List.rotate_zero]
        obtain ⟨others, rfl, rfl⟩ := exists_rest_of_last hbehind hfirst hg
        refine ⟨first :: dead, g, others, hring, ?_, hg, ?_, ?_⟩
        · intro d hd
          rcases List.mem_cons.mp hd with rfl | hd
          · exact hfirst
          · exact hdead d hd
        · rw [hskip, ← List.head?_rotate hlt, hrot]
          rfl
        · rw [hskip, hrot]
          simp

end CoreArena.Battle
