import CoreArena.Proofs.Battle.Order

/-! # Seats and turns

In a persistent battle everybody lives, so who plays next is told by the seats of the programs and
the place of the turn. `Rota` keeps just these. An installation joins the rota, a forced removal
leaves it, and whoever plays either passes the turn on or leaves at its own turn:
`Invariant.rota_advance`. -/

namespace CoreArena

/-- Seats in a row, one of which has the turn. -/
structure Rota (α : Type) where
  seats : List α
  turn : Nat

namespace Rota

variable {α β : Type}

/-- The turn goes back to the first seat once it is behind the last one. -/
def wrap (r : Rota α) : Rota α :=
  ⟨r.seats, if r.turn < r.seats.length then r.turn else 0⟩

def pass (r : Rota α) : Rota α :=
  wrap ⟨r.seats, r.turn + 1⟩

def leave (r : Rota α) (index : Nat) : Rota α :=
  wrap ⟨r.seats.eraseIdx index, if index < r.turn then r.turn - 1 else r.turn⟩

def join (r : Rota α) (newcomers : List α) : Rota α :=
  ⟨r.seats ++ newcomers, r.turn⟩

/-- Who has the turn. -/
def player? (r : Rota α) : Option α :=
  r.seats[r.turn]?

/-- Those whose turn comes before it goes back to the first seat. -/
def waiting (r : Rota α) : List α :=
  r.seats.drop r.turn

/-- The turn is at a seat, or at the first place if there is none. -/
def InRange (r : Rota α) : Prop :=
  r.turn < r.seats.length ∨ r.turn = 0

variable {r : Rota α} {x : α} {index : Nat}

theorem inRange_wrap (r : Rota α) : r.wrap.InRange := by
  unfold wrap InRange
  dsimp only
  split
  · exact .inl ‹_›
  · exact .inr rfl

theorem turn_wrap (r : Rota α) : r.wrap.turn = 0 ∨ r.wrap.turn = r.turn := by
  unfold wrap
  dsimp only
  split
  · exact .inr rfl
  · exact .inl rfl

theorem InRange.turn_le (h : r.InRange) : r.turn ≤ r.seats.length := by
  rcases h with h | h <;> omega

@[simp] theorem seats_pass (r : Rota α) : r.pass.seats = r.seats := rfl

@[simp] theorem seats_leave (r : Rota α) (index : Nat) :
    (r.leave index).seats = r.seats.eraseIdx index := rfl

@[simp] theorem seats_join (r : Rota α) (newcomers : List α) :
    (r.join newcomers).seats = r.seats ++ newcomers := rfl

@[simp] theorem turn_join (r : Rota α) (newcomers : List α) :
    (r.join newcomers).turn = r.turn := rfl

@[simp] theorem join_nil (r : Rota α) : r.join [] = r := by
  simp [join]

theorem join_join (r : Rota α) (xs ys : List α) : (r.join xs).join ys = r.join (xs ++ ys) := by
  simp [join]

theorem turn_pass_of_lt (h : r.turn + 1 < r.seats.length) : r.pass.turn = r.turn + 1 :=
  if_pos h

theorem turn_pass_of_ge (h : r.seats.length ≤ r.turn + 1) : r.pass.turn = 0 :=
  if_neg (Nat.not_lt.mpr h)

theorem lt_length_of_player? (h : r.player? = some x) : r.turn < r.seats.length :=
  (List.getElem?_eq_some_iff.mp h).1

theorem length_leave_turn (h : r.turn < r.seats.length) :
    (r.leave r.turn).seats.length + 1 = r.seats.length := by
  rw [seats_leave, List.length_eraseIdx_of_lt h]
  omega

theorem turn_leave_turn_of_lt (h : r.turn + 1 < r.seats.length) :
    (r.leave r.turn).turn = r.turn := by
  have hlength := List.length_eraseIdx_of_lt (Nat.lt_of_succ_lt h)
  simp only [leave, wrap, Nat.lt_irrefl, if_false]
  rw [if_pos]
  omega

theorem turn_leave_turn_of_ge (h : r.seats.length ≤ r.turn + 1) :
    (r.leave r.turn).turn = 0 := by
  have hlength := List.length_eraseIdx (l := r.seats) (i := r.turn)
  simp only [leave, wrap, Nat.lt_irrefl, if_false]
  rw [if_neg]
  split at hlength <;> omega

/-! ## Who is still waiting -/

theorem waiting_of_player? (h : r.player? = some x) :
    r.waiting = x :: r.seats.drop (r.turn + 1) := by
  obtain ⟨hlt, rfl⟩ := List.getElem?_eq_some_iff.mp h
  exact List.drop_eq_getElem_cons hlt

theorem waiting_join (h : r.InRange) (newcomers : List α) :
    (r.join newcomers).waiting = r.waiting ++ newcomers :=
  List.drop_append_of_le_length h.turn_le

theorem waiting_pass_of_lt (h : r.player? = some x) (hlast : r.turn + 1 < r.seats.length) :
    r.waiting = x :: r.pass.waiting := by
  rw [waiting_of_player? h, waiting, seats_pass, turn_pass_of_lt hlast]

theorem drop_eraseIdx_of_lt {l : List α} {i k : Nat} (hi : i < k) (hk : k ≤ l.length) :
    (l.eraseIdx i).drop (k - 1) = l.drop k := by
  have htake : (l.take i).length = i := by
    rw [List.length_take]
    omega
  have hpast : (l.take i).drop (k - 1) = [] := by
    apply List.drop_eq_nil_of_le
    omega
  have hrest : i + 1 + (k - 1 - i) = k := by omega
  rw [List.eraseIdx_eq_take_drop_succ, List.drop_append, hpast, htake, List.drop_drop, hrest,
    List.nil_append]

/-- Whoever leaves at its own turn leaves the others waiting. -/
theorem waiting_leave_turn_of_lt (h : r.player? = some x)
    (hlast : r.turn + 1 < r.seats.length) : r.waiting = x :: (r.leave r.turn).waiting := by
  rw [waiting_of_player? h, waiting, seats_leave, turn_leave_turn_of_lt hlast,
    ← drop_eraseIdx_of_lt (Nat.lt_succ_self r.turn) (Nat.le_of_lt hlast)]
  rfl

/-- Nobody starts to wait because somebody else leaves, unless everybody waits again. -/
theorem waiting_leave (h : r.InRange) (index : Nat) :
    (r.leave index).turn = 0 ∨ (r.leave index).waiting ⊆ r.waiting := by
  rcases turn_wrap ⟨r.seats.eraseIdx index, if index < r.turn then r.turn - 1 else r.turn⟩ with
    hzero | hturn
  · exact .inl hzero
  · right
    show (r.seats.eraseIdx index).drop (r.leave index).turn ⊆ r.seats.drop r.turn
    rw [leave, hturn]
    dsimp only
    split
    · rw [drop_eraseIdx_of_lt ‹_› h.turn_le]
      exact List.Subset.refl _
    · exact ((List.eraseIdx_sublist r.seats index).drop r.turn).subset

theorem turn_leave_of_turn_eq_zero (h : r.turn = 0) (index : Nat) : (r.leave index).turn = 0 := by
  simp [leave, wrap, h]

end Rota

/-- Nobody is reported dead while an instruction is executed. -/
theorem Accesses.victims_eq {program writer : Nat} {t u : Track}
    (h : Accesses program writer t u) : Event.victims u.events = Event.victims t.events := by
  induction h with
  | refl => rfl
  | tail _ hlast ih =>
      rw [← ih]
      cases hlast <;> simp [Event.victims, Event.victim?]

namespace Battle

variable {b c : Battle} {index id position : Nat}

def rota (b : Battle) : Rota Nat :=
  ⟨b.ids, b.turn⟩

theorem length_ids (b : Battle) : b.ids.length = b.groups.length :=
  List.length_map _

theorem Invariant.inRange_rota (h : b.Invariant) : b.rota.InRange := by
  have hlength := h.length_eq
  have hids := b.length_ids
  rcases h.turn_lt with hlt | ⟨hzero, -⟩
  · left
    show b.turn < b.ids.length
    omega
  · exact .inr hzero

theorem Invariant.map_id_warriors (h : b.Invariant) : b.warriors.map Warrior.id = b.ids :=
  h.ids_eq

theorem rota_install {p : Program} {address : Nat} (h : b.install p address = .ok c) :
    c.rota = b.rota.join [p.id] := by
  obtain ⟨-, -, -, -, rfl⟩ := install_eq_ok_iff.mp h
  simp [rota, ids, Rota.join, PointerGroup.start]

theorem rota_keepTurn (b : Battle) : b.keepTurn.rota = b.rota.wrap := by
  simp [rota, ids, Rota.wrap, keepTurn]

theorem rota_kill {g : PointerGroup} (h : b.groups[index]? = some g) :
    (b.kill index).battle.rota = b.rota.leave index := by
  rw [kill_of_getElem? h, rota_keepTurn, Rota.leave]
  show Rota.wrap ⟨(b.groups.eraseIdx index).map PointerGroup.id, _⟩ = _
  rw [← List.eraseIdx_map]
  rfl

theorem Invariant.getElem?_ids_of_indexOf? (h : b.Invariant) (hindex : b.indexOf? id = some index) :
    b.ids[index]? = some id := by
  obtain ⟨hlt, hid, -⟩ := List.findIdx?_eq_some_iff_getElem.mp hindex
  have hwarrior : (b.warriors.map Warrior.id)[index]? = some id := by
    rw [List.getElem?_map, List.getElem?_eq_getElem hlt]
    exact congrArg some (eq_of_beq hid)
  rwa [h.map_id_warriors] at hwarrior

/-- A removal by number takes out the one program of that number, if there is one. -/
theorem Invariant.rota_killById (h : b.Invariant) (id : Nat) :
    (id ∉ b.ids ∧ (b.killById id).battle = b ∧ Event.victims (b.killById id).events = []) ∨
      ∃ index, b.ids[index]? = some id ∧
        (b.killById id).battle.rota = b.rota.leave index ∧
        Event.victims (b.killById id).events = [id] := by
  unfold killById
  cases hindex : b.indexOf? id with
  | none =>
      left
      refine ⟨?_, rfl, rfl⟩
      exact h.toRoster.not_mem_ids (by rw [hindex]; rfl)
  | some index =>
      right
      have hget := h.getElem?_ids_of_indexOf? hindex
      obtain ⟨g, hg, hid⟩ : ∃ g, b.groups[index]? = some g ∧ g.id = id := by
        simpa [ids] using hget
      refine ⟨index, hget, rota_kill hg, ?_⟩
      show Event.victims (b.kill index).events = [id]
      rw [kill_of_getElem? hg, hid]
      rfl

/-! ## Playing -/

/-- Where everybody lives, the turn goes to the next seat. -/
theorem nextLiving_of_alive (halive : ∀ g ∈ b.groups, g.isDead = false)
    (hindex : index < b.groups.length) :
    b.nextLiving index = if index + 1 < b.groups.length then index + 1 else 0 := by
  obtain ⟨g, rest, hring⟩ : ∃ g rest, b.groups.rotate (index + 1) = g :: rest := by
    refine List.exists_cons_of_ne_nil fun hnil => ?_
    rw [List.rotate_eq_nil_iff.mp hnil] at hindex
    exact Nat.not_lt_zero _ hindex
  have hlive : g.isDead = false := by
    apply halive
    rw [← List.mem_rotate (n := index + 1), hring]
    exact List.mem_cons_self
  have hfirst : b.groups.rotate (index + 1) = [] ++ g :: rest := hring
  obtain ⟨-, hnext⟩ := nextLiving_of_ring hfirst (by simp) hlive
  rw [hnext, List.length_nil, Nat.add_zero]
  split
  · exact Nat.mod_eq_of_lt ‹_›
  · have hlast : index + 1 = b.groups.length := by omega
    rw [hlast, Nat.mod_self]

/-- Where everybody lives, nobody stands between the turn and the player. -/
theorem IsPlayer.index_eq {position : Nat} (hplayer : b.IsPlayer index id position)
    (h : b.Invariant) (halive : ∀ g ∈ b.groups, g.isDead = false) : index = b.turn := by
  obtain ⟨dead, rest, hdead, hring, -⟩ := hplayer.ring
  have hnone : dead = [] := by
    cases dead with
    | nil => rfl
    | cons d dead =>
        have hmem : d ∈ b.groups := by
          rw [← List.mem_rotate (n := b.turn), hring]
          exact List.mem_cons_self
        have hboth := halive d hmem
        rw [hdead d List.mem_cons_self] at hboth
        cases hboth
  rw [hnone, List.nil_append] at hring
  have hindex := (List.getElem?_eq_some_iff.mp hplayer.group).1
  have hturn : b.turn < b.groups.length := by
    have hlength := h.length_eq
    rcases h.turn_lt with hlt | ⟨-, hzero⟩ <;> omega
  have hfirst : b.groups[b.turn]? = some ⟨id, [position], 0⟩ := by
    rw [← List.head?_rotate hturn, hring]
    rfl
  have hsame : b.ids[index]? = b.ids[b.turn]? := by
    simp only [ids, List.getElem?_map, hplayer.group, hfirst]
  exact (List.getElem?_inj (by simpa using hindex) h.ids_nodup).mp hsame

theorem rota_moved {position next : Nat} {a : Arena} (h : b.Invariant)
    (halive : ∀ g ∈ b.groups, g.isDead = false) (hplayer : b.IsPlayer index id position) :
    (Battle.passTurn { b with
      arena := a
      groups := b.groups.set index ⟨id, [next], 0⟩ } index).rota = b.rota.pass := by
  obtain rfl := hplayer.index_eq h halive
  obtain ⟨hturn, hgroup⟩ := List.getElem?_eq_some_iff.mp hplayer.group
  generalize hc : ({ b with
    arena := a
    groups := b.groups.set b.turn ⟨id, [next], 0⟩ } : Battle) = c
  have hgroups : c.groups = b.groups.set b.turn ⟨id, [next], 0⟩ := by rw [← hc]
  have hids : c.ids = b.ids := by
    have hlt : b.turn < b.ids.length := by rwa [length_ids]
    have hid : b.ids[b.turn] = id := by simp [ids, hgroup]
    calc c.ids = b.ids.set b.turn id := by rw [ids, hgroups, List.map_set, ids]
      _ = b.ids.set b.turn b.ids[b.turn] := by rw [hid]
      _ = b.ids := List.set_getElem_self hlt
  have hlength : c.groups.length = b.groups.length := by rw [hgroups, List.length_set]
  have halive' : ∀ g ∈ c.groups, g.isDead = false := by
    intro g hg
    rw [hgroups] at hg
    rcases List.mem_or_eq_of_mem_set hg with hg | rfl
    · exact halive g hg
    · rfl
  have hnext := nextLiving_of_alive halive' (hlength ▸ hturn)
  rw [rota, turn_passTurn, hnext, hlength, Rota.pass, Rota.wrap, ← length_ids]
  exact congrArg (Rota.mk · _) hids

theorem rota_died {position : Nat} {reason : Reason} {a : Arena} (h : b.Invariant)
    (hforever : b.rules.runForever = true) (hplayer : b.IsPlayer index id position) :
    ((b.fallen index id a).bury index id position reason).battle.rota =
      b.rota.leave b.rota.turn := by
  obtain rfl := hplayer.index_eq h (h.alive hforever)
  have hrules : (b.fallen b.turn id a).rules.runForever = true := hforever
  have hself : (if b.turn < b.turn then b.turn - 1 else b.turn) = b.turn := if_neg (Nat.lt_irrefl _)
  rw [battle_bury, if_pos hrules, rota_keepTurn]
  show Rota.wrap ⟨((b.groups.set b.turn _).eraseIdx b.turn).map PointerGroup.id, b.turn⟩ =
    Rota.wrap ⟨b.ids.eraseIdx b.turn, if b.turn < b.turn then b.turn - 1 else b.turn⟩
  rw [List.eraseIdx_set_eq, ← List.eraseIdx_map, hself]
  rfl

theorem victims_of_run {position : Nat} {result : Except Reason Nat} {track : Track}
    (hrun : (Act.execute b.rules id position).eval ⟨b.arena, []⟩ = (result, track)) :
    Event.victims track.events = [] := by
  have hvictims := (Act.execute_accesses b.rules id position ⟨b.arena, []⟩).victims_eq
  rwa [hrun] at hvictims

/-- In a persistent battle the program at the turn plays. It passes the turn on, or it dies and
leaves. -/
theorem Invariant.rota_advance (h : b.Invariant) (hforever : b.rules.runForever = true)
    (hids : b.ids ≠ []) :
    ∃ id position, b.executing? = some (id, position) ∧ b.rota.player? = some id ∧
      (b.advance.battle.rota = b.rota.pass ∧ Event.victims b.advance.events = [] ∨
        b.advance.battle.rota = b.rota.leave b.rota.turn ∧
          Event.victims b.advance.events = [id]) := by
  have halive := h.alive hforever
  have hplays {index id position : Nat} (hplayer : b.IsPlayer index id position) :
      b.rota.player? = some id := by
    obtain rfl := hplayer.index_eq h halive
    simp [rota, Rota.player?, ids, hplayer.group]
  have hadvance := h.advance
  generalize b.advance = a at hadvance ⊢
  cases hadvance with
  | idle hover =>
      exfalso
      apply hids
      rw [ids, List.map_eq_nil_iff, List.eq_nil_iff_forall_not_mem]
      intro g hg
      have hdead := b.isOver_iff.mp hover g hg
      rw [halive g hg] at hdead
      cases hdead
  | @moved index id position next track hplayer hrun =>
      refine ⟨id, position, hplayer.executing, hplays hplayer, .inl ⟨?_, victims_of_run hrun⟩⟩
      exact rota_moved h halive hplayer
  | @died index id position reason track hplayer hrun =>
      refine ⟨id, position, hplayer.executing, hplays hplayer, .inr ⟨?_, ?_⟩⟩
      · exact rota_died h hforever hplayer
      · rw [Event.victims_append, victims_of_run hrun, events_bury]
        rfl

end Battle

end CoreArena
