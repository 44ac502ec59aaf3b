import CoreArena.Proofs.Battle.Rota
import CoreArena.Proofs.Shard.Step
import Mathlib.Data.List.Perm.Basic
import Mathlib.Data.List.Perm.Subperm

/-! # The books of a shard

A shard lends numbers to programs and gets them back when the programs die. `Books` says that none
is ever lost or lent twice, and every step of a shard keeps it. -/

namespace CoreArena

theorem Rota.perm_leave {α : Type} {r : Rota α} {index : Nat} {x : α}
    (h : r.seats[index]? = some x) : (x :: (r.leave index).seats).Perm r.seats := by
  obtain ⟨hlt, rfl⟩ := List.getElem?_eq_some_iff.mp h
  exact List.getElem_cons_eraseIdx_perm hlt

theorem length_insertAscending {bs : List Nat} {a : Nat} (h : a ∉ bs) :
    (insertAscending a bs).length = bs.length + 1 := by
  induction bs with
  | nil => rfl
  | cons b bs ih =>
      obtain ⟨hne, hrest⟩ := not_or.mp (mt List.mem_cons.mpr h)
      unfold insertAscending
      rw [if_neg hne]
      split
      · rfl
      · rw [List.length_cons, ih hrest, List.length_cons]

/-- Whether the number of a program is to blame. -/
def InstallError.blamesNumber : InstallError → Bool
  | reservedId | duplicateId _ => true
  | emptyProgram | programTooLarge .. => false

def ShardError.blamesNumber : ShardError → Bool
  | install cause => cause.blamesNumber
  | _ => false

namespace Battle

variable {b : Battle}

/-- A removal by number loses nobody but its victim. -/
theorem Invariant.ids_killById (h : b.Invariant) (id : Nat) :
    b.ids.Perm (Event.victims (b.killById id).events ++ (b.killById id).battle.ids) := by
  rcases h.rota_killById id with ⟨-, hbattle, hvictims⟩ | ⟨index, hget, hrota, hvictims⟩
  · rw [hbattle, hvictims]
    exact .refl _
  · rw [hvictims]
    have hleave := (Rota.perm_leave (r := b.rota) hget).symm
    rwa [← hrota] at hleave

/-- An advance loses nobody but the program that dies at it. -/
theorem Invariant.ids_advance (h : b.Invariant) (hforever : b.rules.runForever = true)
    (hids : b.ids ≠ []) :
    b.ids.Perm (Event.victims b.advance.events ++ b.advance.battle.ids) := by
  obtain ⟨id, -, -, hplayer, ⟨hrota, hvictims⟩ | ⟨hrota, hvictims⟩⟩ := h.rota_advance hforever hids
  · rw [hvictims]
    exact .of_eq (congrArg Rota.seats hrota).symm
  · rw [hvictims]
    have hleave := (Rota.perm_leave hplayer).symm
    rwa [← hrota] at hleave

end Battle

namespace Shard

/-- The numbers that a shard has for programs. -/
def numbers : List Nat :=
  (List.range roundLength).map (· + 1)

theorem nodup_numbers : numbers.Nodup := by
  decide

/-- Every number is free or lent to one program, and bystanders are programs. -/
structure Books (rules : Rules) (maxPrograms : Nat) (s : Shard) : Prop where
  battle : s.battle.Invariant
  rules_eq : s.battle.rules = { rules with runForever := true }
  maxPrograms_eq : s.maxPrograms = maxPrograms
  ids_perm : (s.freeIds ++ s.battle.ids).Perm numbers
  bystanders_sorted : s.bystanders.Pairwise (· < ·)
  bystanders_subset : s.bystanders ⊆ s.battle.ids
  bystanders_le : s.bystanders.length ≤ rules.bystanderCount

/-- The books are kept and players have not more programs than they may. -/
structure InOrder (rules : Rules) (maxPrograms : Nat) (s : Shard) : Prop
    extends Books rules maxPrograms s where
  players_le : s.playerCount ≤ maxPrograms

variable {rules : Rules} {maxPrograms : Nat} {s t : Shard}

namespace Books

theorem congr (h : s.Books rules maxPrograms) (hbattle : t.battle = s.battle)
    (hmax : t.maxPrograms = s.maxPrograms) (hfree : t.freeIds = s.freeIds)
    (hbystanders : t.bystanders = s.bystanders) : t.Books rules maxPrograms where
  battle := hbattle ▸ h.battle
  rules_eq := hbattle ▸ h.rules_eq
  maxPrograms_eq := hmax.trans h.maxPrograms_eq
  ids_perm := by rw [hbattle, hfree]; exact h.ids_perm
  bystanders_sorted := hbystanders ▸ h.bystanders_sorted
  bystanders_subset := by rw [hbattle, hbystanders]; exact h.bystanders_subset
  bystanders_le := hbystanders ▸ h.bystanders_le

theorem nodup (h : s.Books rules maxPrograms) : (s.freeIds ++ s.battle.ids).Nodup :=
  h.ids_perm.nodup_iff.mpr nodup_numbers

theorem not_mem_ids (h : s.Books rules maxPrograms) {id : Nat} (hid : id ∈ s.freeIds) :
    id ∉ s.battle.ids :=
  fun hmem => (List.nodup_append.mp h.nodup).2.2 id hid id hmem rfl

theorem id_ne_zero (h : s.Books rules maxPrograms) {id : Nat} (hid : id ∈ s.freeIds) :
    id ≠ 0 := by
  have hnumber : id ∈ numbers := h.ids_perm.subset (List.mem_append_left _ hid)
  obtain ⟨k, -, rfl⟩ := List.mem_map.mp hnumber
  omega

theorem length_warriors (h : s.Books rules maxPrograms) :
    s.battle.warriors.length = s.battle.ids.length := by
  simpa using congrArg List.length h.battle.map_id_warriors

/-- There are never more bystanders than programs, so the number of players is their difference. -/
theorem playerCount_add (h : s.Books rules maxPrograms) :
    s.playerCount + s.bystanders.length = s.battle.ids.length := by
  have hnodup : s.bystanders.Nodup := h.bystanders_sorted.imp Nat.ne_of_lt
  have hle := (hnodup.subperm h.bystanders_subset).length_le
  have hlength := h.length_warriors
  unfold playerCount
  omega

/-! ## Installation -/

/-- A free number is as good as any. -/
theorem isSome_indexOf? (h : s.Books rules maxPrograms) {id : Nat} (hid : id ∈ s.freeIds) :
    (s.battle.indexOf? id).isSome = false := by
  cases hindex : s.battle.indexOf? id with
  | none => rfl
  | some index =>
      have hmem := List.mem_of_getElem? (h.battle.getElem?_ids_of_indexOf? hindex)
      exact absurd hmem (h.not_mem_ids hid)

/-- Whatever is wrong with a program that the battle refuses, it is not its number. -/
theorem blamesNumber_of_refused (h : s.Books rules maxPrograms) {id address : Nat} {name : String}
    {code : List Word} {cause : InstallError} (hid : id ∈ s.freeIds)
    (hinstall : s.battle.install ⟨id, name, code⟩ address = .error cause) :
    cause.blamesNumber = false := by
  have hindex := h.isSome_indexOf? hid
  unfold Battle.install at hinstall
  split at hinstall
  · cases hinstall
    rfl
  · split at hinstall
    · cases hinstall
      rfl
    · rw [if_neg (h.id_ne_zero hid), hindex] at hinstall
      cases hinstall

theorem blamesNumber_of_place (h : s.Books rules maxPrograms) {name : String} {code : List Word}
    {cause : ShardError} (hplace : (s.place name code).result = .error cause) :
    cause.blamesNumber = false := by
  have hplaced := s.placed_place name code
  generalize s.place name code = reply at hplaced hplace
  cases hplaced with
  | full =>
      cases hplace
      rfl
  | refused hfree hinstall =>
      cases hplace
      refine h.blamesNumber_of_refused ?_ hinstall
      rw [hfree]
      exact List.mem_cons_self
  | placed => cases hplace

theorem place (h : s.Books rules maxPrograms) (name : String) (code : List Word) :
    (s.place name code).shard.Books rules maxPrograms := by
  have hplaced := s.placed_place name code
  generalize s.place name code = reply at hplaced ⊢
  cases hplaced with
  | full => exact h
  | @refused id freeIds cause hfree =>
      have hrotate : (freeIds ++ [id]).Perm s.freeIds := by
        rw [hfree]
        exact List.perm_append_singleton id freeIds
      exact { h with ids_perm := (hrotate.append_right _).trans h.ids_perm }
  | @placed id freeIds battle notices hfree hinstall =>
      have hids : battle.ids = s.battle.ids ++ [id] :=
        congrArg Rota.seats (Battle.rota_install hinstall)
      have hrules : battle.rules = s.battle.rules := by
        obtain ⟨-, -, -, -, rfl⟩ := Battle.install_eq_ok_iff.mp hinstall
        rfl
      have hmove : (freeIds ++ (s.battle.ids ++ [id])).Perm (s.freeIds ++ s.battle.ids) := by
        rw [hfree, ← List.append_assoc]
        exact List.perm_append_singleton id _
      exact {
        battle := h.battle.install hinstall
        rules_eq := hrules.trans h.rules_eq
        maxPrograms_eq := h.maxPrograms_eq
        ids_perm := by
          rw [hids]
          exact hmove.trans h.ids_perm
        bystanders_sorted := h.bystanders_sorted
        bystanders_subset := by
          rw [hids]
          exact List.Subset.trans h.bystanders_subset (List.subset_append_left _ _)
        bystanders_le := h.bystanders_le }

theorem addBystander (h : s.Books rules maxPrograms) {id : Nat} (hid : id ∈ s.battle.ids)
    (hnew : id ∉ s.bystanders) (hroom : s.bystanders.length < rules.bystanderCount) :
    Books rules maxPrograms { s with bystanders := insertAscending id s.bystanders } where
  battle := h.battle
  rules_eq := h.rules_eq
  maxPrograms_eq := h.maxPrograms_eq
  ids_perm := h.ids_perm
  bystanders_sorted := by
    refine pairwise_insertAscending Nat.lt_trans ?_ h.bystanders_sorted
    intro a b hne hge
    exact Nat.lt_of_le_of_ne (Nat.not_lt.mp hge) hne.symm
  bystanders_subset := by
    intro other hother
    rcases mem_insertAscending.mp hother with rfl | hother
    · exact hid
    · exact h.bystanders_subset hother
  bystanders_le := by
    rw [length_insertAscending hnew]
    exact hroom

end Books

/-- Whoever is placed comes last. -/
theorem place_of_ok {name : String} {code : List Word} {id position : Nat}
    (hplace : (s.place name code).result = .ok (id, position)) :
    (s.place name code).shard.battle.ids = s.battle.ids ++ [id] ∧
      (s.place name code).shard.bystanders = s.bystanders ∧ id ∈ s.freeIds := by
  have hplaced := s.placed_place name code
  generalize s.place name code = reply at hplaced hplace ⊢
  cases hplaced with
  | full => cases hplace
  | refused => cases hplace
  | placed hfree hinstall =>
      cases hplace
      refine ⟨congrArg Rota.seats (Battle.rota_install hinstall), rfl, ?_⟩
      rw [hfree]
      exact List.mem_cons_self

/-- A program that could not be placed is not in the battle. -/
theorem place_of_error {name : String} {code : List Word} {cause : ShardError}
    (hplace : (s.place name code).result = .error cause) :
    (s.place name code).shard.battle = s.battle ∧
      (s.place name code).shard.bystanders = s.bystanders := by
  have hplaced := s.placed_place name code
  generalize s.place name code = reply at hplaced hplace ⊢
  cases hplaced with
  | full | refused => exact ⟨rfl, rfl⟩
  | placed => cases hplace

namespace InOrder

theorem congr (h : s.InOrder rules maxPrograms) (hbattle : t.battle = s.battle)
    (hmax : t.maxPrograms = s.maxPrograms) (hfree : t.freeIds = s.freeIds)
    (hbystanders : t.bystanders = s.bystanders) : t.InOrder rules maxPrograms where
  toBooks := h.toBooks.congr hbattle hmax hfree hbystanders
  players_le := by
    rw [playerCount, hbattle, hbystanders]
    exact h.players_le

/-- Nobody is a new player in books with as many programs that are no bystanders. -/
theorem of_books (h : s.InOrder rules maxPrograms) (ht : t.Books rules maxPrograms)
    (hle : t.battle.ids.length + s.bystanders.length ≤ s.battle.ids.length + t.bystanders.length) :
    t.InOrder rules maxPrograms := by
  refine ⟨ht, ?_⟩
  have hs := h.playerCount_add
  have ht := ht.playerCount_add
  have hplayers := h.players_le
  omega

theorem place_of_error (h : s.InOrder rules maxPrograms) {name : String} {code : List Word}
    {cause : ShardError} (hplace : (s.place name code).result = .error cause) :
    (s.place name code).shard.InOrder rules maxPrograms := by
  obtain ⟨hbattle, hbystanders⟩ := Shard.place_of_error hplace
  refine h.of_books (h.place name code) ?_
  rw [hbattle, hbystanders]

/-- A bystander takes a number, but no place of a player. -/
theorem spawn (h : s.InOrder rules maxPrograms) (hwants : s.wantsBystander = true) :
    s.spawn.shard.InOrder rules maxPrograms := by
  have hspawned := s.spawned_spawn
  generalize s.spawn = reply at hspawned ⊢
  cases hspawned with
  | misread => exact h.congr rfl rfl rfl rfl
  | @refused random name code cause drawn notices hdrawn hplace =>
      have hstart : drawn.InOrder rules maxPrograms := by
        subst hdrawn
        exact h.congr rfl rfl rfl rfl
      exact hstart.place_of_error hplace
  | @added random name code id position drawn notices hdrawn hplace =>
      have hstart : drawn.InOrder rules maxPrograms := by
        subst hdrawn
        exact h.congr rfl rfl rfl rfl
      have hroom : drawn.bystanders.length < rules.bystanderCount := by
        subst hdrawn
        have hlt := (Bool.and_eq_true_iff.mp hwants).2
        rw [decide_eq_true_eq, h.rules_eq] at hlt
        exact hlt
      obtain ⟨hids, hbystanders, hfree⟩ := place_of_ok hplace
      have hnew : id ∉ drawn.bystanders :=
        fun hmem => hstart.not_mem_ids hfree (hstart.bystanders_subset hmem)
      refine hstart.of_books ((hstart.place name code).addBystander ?_ ?_ ?_) ?_
      · rw [hids]
        exact List.mem_append_right _ List.mem_cons_self
      · rwa [hbystanders]
      · rwa [hbystanders]
      · have hlength := length_insertAscending hnew
        rw [← hbystanders] at hlength
        simp only [hids, hbystanders, List.length_append, List.length_singleton] at hlength ⊢
        omega

theorem topUp (h : s.InOrder rules maxPrograms) (missing : Nat) :
    (s.topUp missing).shard.InOrder rules maxPrograms :=
  topUp_induction (fun _ hwants h => h.spawn hwants) h missing

theorem repopulateIfDue (h : s.InOrder rules maxPrograms) :
    s.repopulateIfDue.shard.InOrder rules maxPrograms :=
  repopulateIfDue_induction (fun _ hwants h => h.spawn hwants) h

/-- A player's program is let in only while there is a place for it. -/
theorem install (h : s.InOrder rules maxPrograms) (name source : String)
    (filter : Option Admission.Filter) (address : Option String) :
    (s.install name source filter address).shard.InOrder rules maxPrograms := by
  have hsubmitted := s.submitted_install name source filter address
  generalize s.install name source filter address = reply at hsubmitted ⊢
  cases hsubmitted with
  | turnedAway => exact h
  | admitted assembled hroom =>
      show (s.place (Text.trimmed name) assembled.words).shard.InOrder rules maxPrograms
      have hbooks := h.place (Text.trimmed name) assembled.words
      cases hplace : (s.place (Text.trimmed name) assembled.words).result with
      | error cause => exact h.place_of_error hplace
      | ok placed =>
          obtain ⟨id, position⟩ := placed
          obtain ⟨hids, hbystanders, -⟩ := place_of_ok hplace
          refine ⟨hbooks, ?_⟩
          have hbefore := h.playerCount_add
          have hafter := hbooks.playerCount_add
          rw [h.maxPrograms_eq] at hroom
          rw [hids, hbystanders, List.length_append, List.length_singleton] at hafter
          omega

/-! ## Deaths -/

/-- Numbers of the dead come back, and the dead are struck from the bystanders. -/
theorem settle (h : s.InOrder rules maxPrograms) {b : Battle} {events : List Event}
    (hbattle : b.Invariant) (hrules : b.rules = s.battle.rules)
    (hids : s.battle.ids.Perm (Event.victims events ++ b.ids)) :
    (Shard.settle { s with battle := b } events).1.InOrder rules maxPrograms := by
  have hsettled := settled_settle { s with battle := b } events
  generalize (Shard.settle { s with battle := b } events).1 = t at hsettled ⊢
  have hbook : t.battle = b := hsettled.battle_eq
  have hleft : t.bystanders = s.bystanders.filter (· ∉ Event.victims events) :=
    hsettled.bystanders_eq
  have hsublist : t.bystanders.Sublist s.bystanders := by
    rw [hleft]
    exact List.filter_sublist
  have hbooks : t.Books rules maxPrograms := {
    battle := by rwa [hbook]
    rules_eq := by rw [hbook, hrules, h.rules_eq]
    maxPrograms_eq := hsettled.maxPrograms_eq.trans h.maxPrograms_eq
    ids_perm := by
      rw [hsettled.freeIds_eq, hbook, List.append_assoc]
      exact (hids.symm.append_left s.freeIds).trans h.ids_perm
    bystanders_sorted := h.bystanders_sorted.sublist hsublist
    bystanders_subset := by
      intro id hid
      rw [hleft, List.mem_filter, decide_eq_true_eq] at hid
      rw [hbook]
      have hmem := hids.subset (h.bystanders_subset hid.1)
      exact (List.mem_append.mp hmem).resolve_left hid.2
    bystanders_le := hsublist.length_le.trans h.bystanders_le }
  refine h.of_books hbooks ?_
  -- Among the bystanders that are struck out no victim counts twice.
  have hstruck : (s.bystanders.filter (· ∈ Event.victims events)).length ≤
      (Event.victims events).length := by
    have hnodup : s.bystanders.Nodup := h.bystanders_sorted.imp Nat.ne_of_lt
    refine ((hnodup.filter _).subperm ?_).length_le
    intro id hid
    simpa using (List.mem_filter.mp hid).2
  have hsplit := List.length_eq_length_filter_add (l := s.bystanders) (· ∈ Event.victims events)
  have hlength := hids.length_eq
  simp only [← decide_not] at hsplit
  rw [hbook, hleft]
  rw [List.length_append] at hlength
  omega

theorem kill (h : s.InOrder rules maxPrograms) (id : Nat) :
    (s.kill id).shard.InOrder rules maxPrograms := by
  rw [shard_kill]
  refine h.settle ?_ ?_ (h.battle.ids_killById id)
  · exact h.battle.next (.killById id)
  · exact h.battle.rules_next (.killById id)

theorem checkNames (h : s.InOrder rules maxPrograms) (names : Admission.NameMatcher) :
    (s.checkNames names).shard.InOrder rules maxPrograms := by
  rw [shard_checkNames]
  obtain ⟨hbattle, hrules, hids⟩ := s.expel_induction
    (P := fun b events => b.Invariant ∧ b.rules = s.battle.rules ∧
      s.battle.ids.Perm (Event.victims events ++ b.ids))
    ⟨h.battle, rfl, .refl _⟩
    (by
      rintro b events id ⟨hb, hrules, hids⟩
      refine ⟨hb.next (.killById id), (hb.rules_next (.killById id)).trans hrules, ?_⟩
      rw [Event.victims_append, List.append_assoc]
      exact hids.trans ((hb.ids_killById id).append_left _))
    (s.offenders names)
  exact h.settle hbattle hrules hids

/-! ## Ticks -/

theorem ids_ne_nil_of_isPlayTick (h : s.InOrder rules maxPrograms) (hdue : s.isPlayTick = true) :
    s.battle.ids ≠ [] := by
  intro hnil
  have hlength := h.length_warriors
  rw [hnil] at hlength
  simp [isPlayTick, hlength] at hdue

theorem runForever (h : s.InOrder rules maxPrograms) : s.battle.rules.runForever = true := by
  rw [h.rules_eq]

theorem playIfDue (h : s.InOrder rules maxPrograms) :
    s.playIfDue.shard.InOrder rules maxPrograms := by
  cases hdue : s.isPlayTick with
  | false => rwa [playIfDue_of_not_due hdue]
  | true =>
      rw [playIfDue_of_due hdue, play_shard]
      have hids := h.battle.ids_advance h.runForever (h.ids_ne_nil_of_isPlayTick hdue)
      have hsettled : (Shard.settle { s with battle := s.battle.advance.battle }
          s.battle.advance.events).1.InOrder rules maxPrograms :=
        h.settle (h.battle.next .advance) (h.battle.rules_next .advance) hids
      exact hsettled.congr rfl rfl rfl rfl

theorem pass (h : s.InOrder rules maxPrograms) : s.pass.shard.InOrder rules maxPrograms := by
  rw [pass_shard]
  exact h.playIfDue.repopulateIfDue.congr rfl rfl rfl rfl

/-- Every step keeps the books. -/
theorem next (h : s.InOrder rules maxPrograms) (step : Step) :
    (s.next step).InOrder rules maxPrograms := by
  cases step with
  | install name source filter address => exact h.install name source filter address
  | pass => exact h.pass
  | kill id => exact h.kill id
  | checkNames names => exact h.checkNames names
  | repopulate => exact h.topUp _

theorem after (h : s.InOrder rules maxPrograms) (steps : List Step) :
    (s.after steps).InOrder rules maxPrograms :=
  after_induction (fun _ step h => h.next step) h steps

end InOrder

theorem inOrder_start (id : Nat) (rules : Rules) (maxPrograms maxNameLength : Nat)
    (random : Xoshiro) :
    (start id rules maxPrograms maxNameLength random).InOrder rules maxPrograms where
  battle := Battle.invariant_start _
  rules_eq := rfl
  maxPrograms_eq := rfl
  ids_perm := .of_eq (List.append_nil _)
  bystanders_sorted := .nil
  bystanders_subset := List.nil_subset _
  bystanders_le := Nat.zero_le _
  players_le := Nat.zero_le _

theorem inOrder_after_start (id : Nat) (rules : Rules) (maxPrograms maxNameLength : Nat)
    (random : Xoshiro) (steps : List Step) :
    ((start id rules maxPrograms maxNameLength random).after steps).InOrder rules maxPrograms :=
  (inOrder_start ..).after steps

/-! ## Attempts to install -/

/-- What came of each attempt of a top-up to add a bystander. -/
def spawns (s : Shard) : Nat → List (Except ShardError Nat)
  | 0 => []
  | missing + 1 =>
    if s.wantsBystander then
      match s.spawn.result with
      | .error cause => [.error cause]
      | .ok id => .ok id :: s.spawn.shard.spawns missing
    else []

def repopulations (s : Shard) : List (Except ShardError Nat) :=
  s.spawns (s.battle.rules.bystanderCount - s.bystanders.length)

/-- What came of each attempt of a step to let a program in. -/
def attempts (s : Shard) : Step → List (Except ShardError Nat)
  | .install name source filter address =>
    [(s.install name source filter address).result.map Installed.id]
  | .pass => if s.playIfDue.shard.isTopUpTick then s.playIfDue.shard.repopulations else []
  | .repopulate => s.repopulations
  | .kill _ | .checkNames _ => []

def blamesNumber : Except ShardError Nat → Bool
  | .error cause => cause.blamesNumber
  | .ok _ => false

namespace InOrder

theorem blamesNumber_of_spawn (h : s.InOrder rules maxPrograms) {cause : ShardError}
    (hspawn : s.spawn.result = .error cause) : cause.blamesNumber = false := by
  have hspawned := s.spawned_spawn
  generalize s.spawn = reply at hspawned hspawn
  cases hspawned with
  | misread =>
      cases hspawn
      rfl
  | @refused random name code why drawn notices hdrawn hplace =>
      cases hspawn
      have hstart : drawn.Books rules maxPrograms := by
        rw [hdrawn]
        exact h.toBooks.congr rfl rfl rfl rfl
      exact hstart.blamesNumber_of_place hplace
  | added => cases hspawn

theorem blamesNumber_of_spawns (h : s.InOrder rules maxPrograms) {missing : Nat}
    {cause : ShardError} (hcause : .error cause ∈ s.spawns missing) :
    cause.blamesNumber = false := by
  induction missing generalizing s with
  | zero => cases hcause
  | succ missing ih =>
      unfold spawns at hcause
      cases hwants : s.wantsBystander with
      | false =>
          rw [hwants] at hcause
          cases hcause
      | true =>
          rw [hwants, if_pos rfl] at hcause
          cases hspawn : s.spawn.result with
          | error why =>
              rw [hspawn] at hcause
              cases List.mem_singleton.mp hcause
              exact h.blamesNumber_of_spawn hspawn
          | ok id =>
              rw [hspawn] at hcause
              rcases List.mem_cons.mp hcause with hcause | hcause
              · cases hcause
              · exact ih (h.spawn hwants) hcause

theorem blamesNumber_of_install (h : s.InOrder rules maxPrograms) {name source : String}
    {filter : Option Admission.Filter} {address : Option String} {cause : ShardError}
    (hinstall : (s.install name source filter address).result = .error cause) :
    cause.blamesNumber = false := by
  have hsubmitted := s.submitted_install name source filter address
  generalize s.install name source filter address = reply at hsubmitted hinstall
  cases hsubmitted with
  | turnedAway why notices hwhy =>
      cases hinstall
      cases cause with
      | install why => exact absurd rfl (hwhy why)
      | _ => rfl
  | admitted assembled hroom =>
      cases hplace : (s.place (Text.trimmed name) assembled.words).result with
      | error why =>
          rw [hplace] at hinstall
          cases hinstall
          exact h.blamesNumber_of_place hplace
      | ok placed =>
          rw [hplace] at hinstall
          cases hinstall

/-- No program is ever kept out because of the number that it was to have. -/
theorem blamesNumber_of_attempt (h : s.InOrder rules maxPrograms) {step : Step}
    {cause : ShardError} (hcause : .error cause ∈ s.attempts step) :
    cause.blamesNumber = false := by
  cases step with
  | install name source filter address =>
      have hresult := (List.mem_singleton.mp hcause).symm
      cases hinstall : (s.install name source filter address).result with
      | error why =>
          rw [hinstall] at hresult
          cases hresult
          exact h.blamesNumber_of_install hinstall
      | ok installed =>
          rw [hinstall] at hresult
          cases hresult
  | pass =>
      rw [attempts] at hcause
      split at hcause
      · exact h.playIfDue.blamesNumber_of_spawns hcause
      · cases hcause
  | repopulate => exact h.blamesNumber_of_spawns hcause
  | kill | checkNames => cases hcause

end InOrder

/-- Whatever happens to a shard, each number is free or that of one program, bystanders are
programs, neither bystanders nor players are too many, and no program is kept out because of its
number. -/
theorem numbers_conserved (id : Nat) (rules : Rules) (maxPrograms maxNameLength : Nat)
    (random : Xoshiro) (steps : List Step) :
    let s := (start id rules maxPrograms maxNameLength random).after steps
    (s.freeIds ++ s.battle.warriors.map Warrior.id).Perm (List.range' 1 31) ∧
      (s.freeIds ++ s.battle.warriors.map Warrior.id).Nodup ∧
      s.bystanders.Nodup ∧ s.bystanders ⊆ s.battle.warriors.map Warrior.id ∧
      s.playerCount + s.bystanders.length = s.battle.warriors.length ∧
      s.bystanders.length ≤ rules.bystanderCount ∧ s.playerCount ≤ maxPrograms ∧
      ∀ step, (s.attempts step).any blamesNumber = false := by
  intro s
  have h := inOrder_after_start id rules maxPrograms maxNameLength random steps
  have hids := h.battle.map_id_warriors
  refine ⟨?_, ?_, h.bystanders_sorted.imp Nat.ne_of_lt, ?_, ?_, h.bystanders_le, h.players_le, ?_⟩
  · rw [hids]
    exact h.ids_perm
  · rw [hids]
    exact h.nodup
  · rw [hids]
    exact h.bystanders_subset
  · rw [h.length_warriors]
    exact h.playerCount_add
  · intro step
    rw [List.any_eq_false]
    intro attempt hattempt
    cases attempt with
    | ok id => exact Bool.false_ne_true
    | error cause =>
        rw [blamesNumber, h.blamesNumber_of_attempt hattempt]
        exact Bool.false_ne_true

end Shard

end CoreArena
