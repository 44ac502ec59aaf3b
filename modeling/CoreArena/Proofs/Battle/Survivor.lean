import CoreArena.Proofs.Battle.Verdict

/-! # Whether the last survivor is announced

A tournament comes down to one living program in a single step. If that is an advance, the program
is announced as the last survivor at once. If the host takes the other program out by force, nobody
is ever announced: `survivor_announced_iff`. -/

namespace CoreArena

namespace Battle

variable {b : Battle} {id : Nat}

/-! ## Fewer and fewer -/

theorem Passage.length_le {α : Type} {old : α → Prop} {order order' : List α} {who : Option α}
    (h : Passage old order who order') : order.length ≤ order'.length + 1 := by
  cases h with
  | plays | dies | stays => simp
  | leaves | joins =>
      simp only [List.length_append, List.length_cons]
      omega

/-- If there are no more than before, nobody has joined. -/
theorem Passage.subset {α : Type} {old : α → Prop} {order order' : List α} {who : Option α}
    (h : Passage old order who order') (hlength : order'.length ≤ order.length) :
    order' ⊆ order := by
  intro x hx
  cases h with
  | plays y others => simpa [or_comm] using hx
  | dies y => exact List.mem_cons_of_mem y hx
  | stays => exact hx
  | leaves before behind y =>
      rw [List.mem_append] at hx ⊢
      exact hx.imp_right (List.mem_cons_of_mem y)
  | joins before behind y =>
      simp only [List.length_append, List.length_cons] at hlength
      omega

theorem Invariant.order_subset_next (h : b.Invariant) {s : Step} (hs : s.isInstall = false) :
    (b.next s).order ⊆ b.order :=
  (h.passage_next s).subset (h.length_order_next hs)

theorem Invariant.order_subset_after (h : b.Invariant) {steps : List Step}
    (hsteps : ∀ s ∈ steps, s.isInstall = false) : (b.after steps).order ⊆ b.order := by
  induction steps generalizing b with
  | nil => exact List.Subset.refl _
  | cons s steps ih =>
      obtain ⟨hs, hsteps⟩ := List.forall_mem_cons.mp hsteps
      exact List.Subset.trans (ih (h.next s) hsteps) (h.order_subset_next hs)

/-- An installation takes nobody out. -/
theorem length_order_install {s : Step} (hs : s.isInstall = true) :
    b.order.length ≤ (b.next s).order.length := by
  cases s with
  | install p address =>
      rcases b.next_install p address with hrefused | hinstall
      · rw [hrefused]
      · obtain ⟨-, -, -, -, hnext⟩ := install_eq_ok_iff.mp hinstall
        rw [length_order, length_order, hnext, List.countP_append]
        exact Nat.le_add_right _ _
  | advance | kill | killById | poke => cases hs

/-! ## The step that leaves one -/

/-- After a step a program is the only one that lives, and before it there was one other. -/
structure LeavesAlone (b : Battle) (s : Step) (id : Nat) : Prop where
  two : b.order.length = 2
  alone : (b.next s).order = [id]

/-- The living come down to one in a single step. -/
theorem Invariant.exists_crossing (h : b.Invariant) {steps : List Step} (hmany : 2 ≤ b.order.length)
    (hfew : (b.after steps).order.length ≤ 1) :
    ∃ front s back, steps = front ++ s :: back ∧ (b.after front).order.length = 2 ∧
      ((b.after front).next s).order.length = 1 := by
  induction steps generalizing b with
  | nil =>
      rw [after_nil] at hfew
      omega
  | cons s steps ih =>
      have hone := (h.passage_next s).length_le
      by_cases hnext : 2 ≤ (b.next s).order.length
      · obtain ⟨front, s', back, rfl, htwo, hlast⟩ := ih (h.next s) hnext hfew
        exact ⟨s :: front, s', back, rfl, htwo, hlast⟩
      · refine ⟨[], s, steps, rfl, ?_, ?_⟩
        all_goals
          rw [after_nil]
          omega

/-! ## The announcement -/

/-- Whether a host is told that a program is the last survivor. -/
def Reply.announces (id : Nat) (r : Reply) : Bool :=
  match r.answer with
  | .advanced (some (.decided (some s))) => s.id == id
  | _ => false

theorem mem_replies (b : Battle) (front : List Step) (s : Step) (back : List Step) :
    ⟨(b.after front).answer s, (b.after front).reports s⟩ ∈ b.replies (front ++ s :: back) := by
  rw [replies_append]
  exact List.mem_append_right _ List.mem_cons_self

theorem Reply.isWin_of_announces {r : Reply} (h : r.announces id = true) : r.isWin = true := by
  obtain ⟨answer, events⟩ := r
  rcases answer with refusal | ⟨_ | ⟨_ | survivor⟩ | _⟩ | victim | _
  all_goals first | rfl | cases h

theorem IsSurvivor.mem_order {s : Survivor} (h : b.IsSurvivor s) : s.id ∈ b.order := by
  obtain ⟨g, hg, hid⟩ := h.group
  have hlives := (h.alone s.index).mpr rfl
  rw [livesAt_of_getElem? hg, Bool.not_eq_true'] at hlives
  exact Battle.mem_order.mpr ⟨g, List.mem_of_getElem? hg, hlives, hid⟩

/-- An advance that leaves one program alone announces it. -/
theorem Invariant.announced_of_advance (h : b.Invariant) (htournament : b.rules.runForever = false)
    (hlast : b.LeavesAlone .advance id) :
    ∃ s, b.advance.result = some (.decided (some s)) ∧ s.id = id := by
  have htwo := hlast.two
  have halone : b.advance.battle.order = [id] := hlast.alone
  have hroster : b.advance.battle.Roster := (h.next .advance).toRoster
  have hadvance := h.advance
  generalize b.advance = a at hadvance halone hroster ⊢
  cases hadvance with
  | idle =>
      dsimp only at halone
      rw [halone] at htwo
      cases htwo
  | moved hplayer =>
      have hone := congrArg List.length halone
      rw [length_order_moved hplayer, htwo] at hone
      cases hone
  | @died index victim position reason track hplayer =>
      have hfallen : (b.fallen index victim track.arena).rules.runForever = false := htournament
      dsimp only at halone hroster ⊢
      rw [result_bury hfallen]
      generalize ((b.fallen index victim track.arena).bury index victim position reason).battle = c
        at halone hroster ⊢
      obtain ⟨i, hliving⟩ : ∃ i, c.living = [i] := by
        rw [← List.length_eq_one_iff, length_living, halone]
        rfl
      obtain ⟨s, houtcome, hsurvivor⟩ := outcomeAmong?_singleton hroster hliving
      have hmem := hsurvivor.mem_order
      rw [halone, List.mem_singleton] at hmem
      exact ⟨s, houtcome, hmem⟩

/-- Nobody is announced but by an advance. -/
theorem countP_isWin_of_no_advance {steps : List Step} (hsteps : ∀ s ∈ steps, s ≠ .advance) :
    (b.replies steps).countP Reply.isWin = 0 := by
  induction steps generalizing b with
  | nil => rfl
  | cons s steps ih =>
      obtain ⟨hs, hsteps⟩ := List.forall_mem_cons.mp hsteps
      have hnone : ¬ Reply.isWin ⟨b.answer s, b.reports s⟩ = true :=
        fun hwin => hs (exists_survivor_of_isWin hwin).1
      rw [replies, List.countP_cons_of_neg hnone]
      exact ih hsteps

/-- Nobody is announced as long as two are left. -/
theorem Invariant.countP_isWin_of_two (h : b.Invariant) (htournament : b.rules.runForever = false)
    {steps : List Step} (hsteps : ∀ s ∈ steps, s.isInstall = false)
    (htwo : 2 ≤ (b.after steps).order.length) : (b.replies steps).countP Reply.isWin = 0 := by
  induction steps generalizing b with
  | nil => rfl
  | cons s steps ih =>
      obtain ⟨hs, hsteps⟩ := List.forall_mem_cons.mp hsteps
      have hnone : ¬ Reply.isWin ⟨b.answer s, b.reports s⟩ = true := by
        intro hwin
        have hone := (h.length_order_of_isWin htournament hwin).2
        have hfewer := (h.next s).length_order_after hsteps
        rw [after_cons] at htwo
        omega
      rw [replies, List.countP_cons_of_neg hnone]
      refine ih (h.next s) ?_ hsteps htwo
      rw [h.rules_next s, htournament]

/-- If the last other program is taken out by force, nobody is ever announced. -/
theorem Invariant.countP_isWin_of_force (h : b.Invariant) (htournament : b.rules.runForever = false)
    {front back : List Step} {s : Step} (hsteps : ∀ t ∈ front ++ s :: back, t.isInstall = false)
    (hlast : (b.after front).LeavesAlone s id) (hs : s ≠ .advance) :
    (b.replies (front ++ s :: back)).countP Reply.isWin = 0 := by
  obtain ⟨hfront, hrest⟩ := List.forall_mem_append.mp hsteps
  have hafter : (b.after front).Invariant := after_induction (fun _ s h => h.next s) h front
  have hrules : ((b.after front).next s).rules.runForever = false := by
    rw [hafter.rules_next s, h.rules_after front, htournament]
  have hstep : ¬ Reply.isWin ⟨(b.after front).answer s, (b.after front).reports s⟩ = true :=
    fun hwin => hs (exists_survivor_of_isWin hwin).1
  have halone : ((b.after front).next s).order.length ≤ 1 := by
    rw [hlast.alone]
    exact Nat.le_refl 1
  rw [replies_append, List.countP_append, replies, List.countP_cons_of_neg hstep,
    h.countP_isWin_of_two htournament hfront (Nat.le_of_eq hlast.two.symm),
    (hafter.next s).countP_isWin_eq_zero hrules (List.forall_mem_cons.mp hrest).2 halone]

/-! ## Tournaments -/

theorem exists_front_of_append_eq {installs fight before back : List Step} {s : Step}
    (hinstalls : ∀ t ∈ installs, t.isInstall = true) (hs : s.isInstall = false)
    (h : before ++ s :: back = installs ++ fight) :
    ∃ front, before = installs ++ front ∧ fight = front ++ s :: back := by
  rcases split_of_append_eq h with ⟨-, between, rfl, -⟩ | ⟨-, front, rfl, rfl⟩
  · have hinstall := hinstalls s (by simp)
    rw [hs] at hinstall
    cases hinstall
  · exact ⟨front, rfl, rfl⟩

section Start

variable {r : Rules} {installs fight earlier later front back : List Step} {s : Step}

/-- Where two programs or more were alive and one is left, a single step has left it alone. -/
theorem exists_leavesAlone (hinstalls : ∀ s ∈ installs, s.isInstall = true)
    (hfight : ∀ s ∈ fight, s.isInstall = false) (hsplit : installs ++ fight = earlier ++ later)
    (htwo : 2 ≤ ((start r).after earlier).order.length)
    (hone : ((start r).after (installs ++ fight)).order = [id]) :
    ∃ front s back, fight = front ++ s :: back ∧
      ((start r).after (installs ++ front)).LeavesAlone s id := by
  have hfew : (((start r).after earlier).after later).order.length ≤ 1 := by
    rw [← after_append, ← hsplit, hone]
    exact Nat.le_refl 1
  obtain ⟨between, s, back, rfl, hbefore, hafter⟩ :=
    (invariant_after_start r earlier).exists_crossing htwo hfew
  have hs : s.isInstall = false := by
    rw [← Bool.not_eq_true]
    intro hinstall
    have hmore := length_order_install (b := ((start r).after earlier).after between) hinstall
    omega
  rw [← List.append_assoc] at hsplit
  obtain ⟨front, hfront, rfl⟩ := exists_front_of_append_eq hinstalls hs hsplit.symm
  rw [← after_append, hfront] at hbefore hafter
  refine ⟨front, s, back, rfl, hbefore, ?_⟩
  -- The one that is left at the end has been the only one ever since.
  obtain ⟨x, hx⟩ := List.length_eq_one_iff.mp hafter
  have hback := (List.forall_mem_cons.mp (List.forall_mem_append.mp hfight).2).2
  have hsubset := ((invariant_after_start r (installs ++ front)).next s).order_subset_after hback
  rw [← after_cons, ← after_append, List.append_assoc, hone, hx] at hsubset
  rw [hx, List.mem_singleton.mp (hsubset List.mem_cons_self)]

theorem never_announced (htournament : r.runForever = false)
    (hinstalls : ∀ s ∈ installs, s.isInstall = true)
    (hsteps : ∀ t ∈ front ++ s :: back, t.isInstall = false)
    (hlast : ((start r).after (installs ++ front)).LeavesAlone s id) (hs : s ≠ .advance) :
    ((start r).replies (installs ++ (front ++ s :: back))).countP Reply.isWin = 0 := by
  have hinstalled := invariant_after_start r installs
  have hrules : ((start r).after installs).rules.runForever = false := by
    rw [(invariant_start r).rules_after, start, htournament]
  have hnone : ∀ t ∈ installs, t ≠ .advance := by
    rintro t ht rfl
    cases hinstalls _ ht
  rw [after_append] at hlast
  rw [replies_append, List.countP_append, countP_isWin_of_no_advance hnone,
    hinstalled.countP_isWin_of_force hrules hsteps hlast hs]

/-- When two programs or more were alive in a tournament and one is left, a single step has left it
alone. It has been announced by now, or is by the next advance, just when that step was an advance,
which then announced it at once. Otherwise nobody is ever announced. -/
theorem survivor_announced_iff (htournament : r.runForever = false)
    (hinstalls : ∀ s ∈ installs, s.isInstall = true) (hfight : ∀ s ∈ fight, s.isInstall = false)
    (hsplit : installs ++ fight = earlier ++ later)
    (htwo : 2 ≤ ((start r).after earlier).order.length)
    (hone : ((start r).after (installs ++ fight)).order = [id]) :
    ∃ front s back, fight = front ++ s :: back ∧
      ((start r).after (installs ++ front)).LeavesAlone s id ∧
      (((start r).replies (installs ++ fight ++ [.advance])).any (Reply.announces id) = true ↔
        s = .advance) ∧
      (s = .advance → ∃ t, ((start r).after (installs ++ front)).advance.result =
        some (.decided (some t)) ∧ t.id = id) ∧
      (s ≠ .advance → ∀ more, (∀ t ∈ more, t.isInstall = false) →
        ((start r).replies (installs ++ fight ++ more)).countP Reply.isWin = 0) := by
  obtain ⟨front, s, back, rfl, hlast⟩ :=
    exists_leavesAlone hinstalls hfight hsplit htwo hone
  have hrules : ((start r).after (installs ++ front)).rules.runForever = false := by
    rw [(invariant_start r).rules_after, start, htournament]
  have hannounced : s = .advance → ∃ t, ((start r).after (installs ++ front)).advance.result =
      some (.decided (some t)) ∧ t.id = id := by
    rintro rfl
    exact (invariant_after_start r (installs ++ front)).announced_of_advance hrules hlast
  have hnever : s ≠ .advance → ∀ more, (∀ t ∈ more, t.isInstall = false) →
      ((start r).replies (installs ++ (front ++ s :: back) ++ more)).countP Reply.isWin = 0 := by
    intro hs more hmore
    rw [List.append_assoc, List.append_assoc, List.cons_append]
    refine never_announced htournament hinstalls ?_ hlast hs
    rw [← List.cons_append, ← List.append_assoc]
    exact List.forall_mem_append.mpr ⟨hfight, hmore⟩
  refine ⟨front, s, back, rfl, hlast, ⟨fun htold => ?_, ?_⟩, hannounced, hnever⟩
  · by_contra hs
    obtain ⟨reply, hreply, htold⟩ := List.any_eq_true.mp htold
    have hnone := List.countP_eq_zero.mp (hnever hs [.advance] (by simp [Step.isInstall]))
    exact hnone reply hreply (Reply.isWin_of_announces htold)
  · rintro rfl
    obtain ⟨t, hresult, hid⟩ := hannounced rfl
    have hreply := mem_replies (start r) (installs ++ front) .advance (back ++ [.advance])
    have hsteps : installs ++ (front ++ .advance :: back) ++ [.advance] =
        installs ++ front ++ .advance :: (back ++ [.advance]) := by
      simp
    rw [hsteps]
    refine List.any_eq_true.mpr ⟨_, hreply, ?_⟩
    simp [Reply.announces, answer, hresult, hid]

end Start

/-- Two programs that stay where they are. -/
def trappers : List Step :=
  [.install (trapper 1) 0, .install (trapper 2) 50]

/-- The host takes out the first, and nobody tells of the second. -/
theorem trapper_left_unannounced :
    ((start .tournament).after trappers).order = [1, 2] ∧
      ((start .tournament).after (trappers ++ [.kill 0])).order = [2] ∧
      ((start .tournament).replies (trappers ++ [.kill 0] ++ [.advance])).any
        (Reply.announces 2) = false := by
  decide +kernel

theorem survivor_announced_iff_trappers :
    ((start .tournament).replies (trappers ++ [.kill 0] ++ [.advance, .advance])).countP
      Reply.isWin = 0 := by
  have htwo : 2 ≤ ((start .tournament).after trappers).order.length := by decide +kernel
  have hone : ((start .tournament).after (trappers ++ [.kill 0])).order = [2] := by decide +kernel
  obtain ⟨front, s, back, hsteps, -, -, -, hnever⟩ :=
    survivor_announced_iff rfl (by decide) (by decide) rfl htwo hone
  refine hnever ?_ [.advance, .advance] (by decide)
  rintro rfl
  have hmem : Step.advance ∈ [Step.kill 0] := by
    rw [hsteps]
    simp
  simp at hmem

end Battle

end CoreArena
