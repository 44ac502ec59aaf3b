import CoreArena.Proofs.Admission.Gatehouse

/-! # Updates that fail

To update a list takes several steps: a file is read, terms are made into patterns, a file is
written, and at last the gate takes over the new list. Each step but the last may fail, and what was
done before it failed stays done. `Update` lists the steps one by one; an update that fails has not
come to the last of them, so that the gate decides as before: `gate_kept_unless_updated`. -/

namespace CoreArena.Admission

open Text

/-- Why a list was not updated. -/
inductive UpdateError where
  | file (cause : FileError)
  /-- The terms could not be made into patterns. -/
  | pattern (message : String)
  deriving DecidableEq

/-- What is beyond the control of a gate. -/
structure Outside where
  /-- Why no patterns can be made of some terms, if there is a reason. -/
  complaint? : NameMatcher → Option String
  /-- What a failed attempt to write to a path leaves of a disk. -/
  wreck : Disk → String → Disk

/-- Steps at a gatehouse. What was done before one that fails stays done. -/
abbrev Update := ExceptT UpdateError (StateM Gatehouse)

namespace Update

variable {α β : Type}

/-- What comes of an update, and the gatehouse after it. -/
def perform (u : Update α) (h : Gatehouse) : Except UpdateError α × Gatehouse :=
  (u.run.run h).run

/-- Reads a file that need not be given and need not be there. -/
def read (path : Option String) : Update (Option String) := do
  match Gate.contents? (← get).disk path with
  | .ok text => return text
  | .error cause => throw (.file cause)

/-- Makes the terms of a list into patterns. -/
def compile (w : Outside) (names : NameMatcher) : Update Unit :=
  match w.complaint? names with
  | none => return
  | some message => throw (.pattern message)

/-- Writes a file that need not be given. -/
def save (w : Outside) (text : String) : Option String → Update Unit
  | none => return
  | some path => do
    let h ← get
    match h.disk.writeText path text with
    | .ok disk => set { h with disk }
    | .error fault =>
      set { h with disk := w.wreck h.disk path }
      throw (.file ⟨path, fault⟩)

/-- Has the gate take over a list. -/
def install (change : Gate → Gate) : Update Unit :=
  modify fun h => { h with gate := change h.gate }

def ban (w : Outside) (address : String) : Update Bool := do
  let gate := (← get).gate
  if gate.filter.bans.admits address then
    let bans := gate.filter.bans.insert address
    save w bans.serialize gate.bansPath
    install fun gate => { gate with filter.bans := bans }
    return true
  else
    return false

def refreshNames (w : Outside) : Update Unit := do
  let text ← read (← get).gate.namesPath
  compile w (.ofWordList (text.getD ""))
  install (·.installNames text)

def refreshBans : Update Unit := do
  let text ← read (← get).gate.bansPath
  install (·.installBans text)

/-! ## Single steps -/

variable (w : Outside) (h : Gatehouse)

theorem perform_get : (get : Update Gatehouse).perform h = (.ok h, h) := rfl

theorem perform_set (k : Gatehouse) : (set k : Update PUnit).perform h = (.ok ⟨⟩, k) := rfl

/-- After a failure the steps that would follow are not done, and those before it stay done. -/
theorem perform_bind (u : Update α) (f : α → Update β) :
    (u >>= f).perform h =
      match u.perform h with
      | (.ok a, k) => (f a).perform k
      | (.error e, k) => (.error e, k) := by
  cases hu : u.perform h with
  | mk result k =>
      have hrun : u.run.run h = (result, k) := hu
      rw [perform, ExceptT.run_bind, StateT.run_bind, hrun]
      cases result <;> rfl

theorem perform_read (path : Option String) :
    (read path).perform h =
      match Gate.contents? h.disk path with
      | .ok text => (.ok text, h)
      | .error cause => (.error (.file cause), h) := by
  rw [read, perform_bind, perform_get]
  dsimp only
  cases Gate.contents? h.disk path <;> rfl

theorem perform_compile (names : NameMatcher) :
    (compile w names).perform h =
      match w.complaint? names with
      | none => (.ok (), h)
      | some message => (.error (.pattern message), h) := by
  rw [compile]
  cases w.complaint? names <;> rfl

theorem perform_save (text path : String) :
    (save w text (some path)).perform h =
      match h.disk.writeText path text with
      | .ok disk => (.ok (), { h with disk })
      | .error fault => (.error (.file ⟨path, fault⟩), { h with disk := w.wreck h.disk path }) := by
  rw [save, perform_bind, perform_get]
  dsimp only
  cases h.disk.writeText path text with
  | ok disk => rfl
  | error fault =>
      rw [perform_bind, perform_set]
      rfl

/-! ## Failures -/

section Failures

variable {w h} {u : Update α} {f : α → Update β}

/-- Steps that leave the gate alone. -/
def IsQuiet (u : Update α) : Prop :=
  ∀ h, (u.perform h).2.gate = h.gate

/-- Steps that leave the gate alone unless all of them are done. -/
def IsAtomic (u : Update α) : Prop :=
  ∀ h e k, u.perform h = (.error e, k) → k.gate = h.gate

/-- The gate must not be touched before the last step that can fail. -/
theorem IsQuiet.bind (hu : IsQuiet u) (hf : ∀ a, IsAtomic (f a)) : IsAtomic (u >>= f) := by
  intro h e k hfailed
  have hquiet := hu h
  rw [perform_bind] at hfailed
  cases hperform : u.perform h with
  | mk result m =>
      rw [hperform] at hfailed hquiet
      cases result with
      | error cause =>
          cases hfailed
          exact hquiet
      | ok a => exact (hf a m e k hfailed).trans hquiet

theorem isQuiet_get : IsQuiet (get : Update Gatehouse) := fun _ => rfl

theorem isQuiet_read (path : Option String) : IsQuiet (read path) := by
  intro h
  rw [perform_read]
  split <;> rfl

theorem isQuiet_compile (names : NameMatcher) : IsQuiet (compile w names) := by
  intro h
  rw [perform_compile]
  split <;> rfl

theorem isQuiet_save (text : String) (path : Option String) : IsQuiet (save w text path) := by
  intro h
  cases path with
  | none => rfl
  | some path =>
      rw [perform_save]
      split <;> rfl

/-- To take over a list does not fail. -/
theorem isAtomic_install (change : Gate → Gate) : IsAtomic (install change) := by
  rintro h e k ⟨⟩

theorem isAtomic_ban (address : String) : IsAtomic (ban w address) := by
  refine isQuiet_get.bind fun h => ?_
  dsimp only
  split
  · refine (isQuiet_save _ _).bind fun _ => ?_
    rintro h e k ⟨⟩
  · rintro h e k ⟨⟩

theorem isAtomic_refreshNames : IsAtomic (refreshNames w) :=
  isQuiet_get.bind fun _ => (isQuiet_read _).bind fun _ => (isQuiet_compile _).bind fun _ =>
    isAtomic_install _

theorem isAtomic_refreshBans : IsAtomic refreshBans :=
  isQuiet_get.bind fun _ => (isQuiet_read _).bind fun _ => isAtomic_install _

end Failures

/-! ## Updates -/

/-- The steps of a ban do what a gate does. -/
theorem perform_ban (address : String) :
    (ban w address).perform h =
      match h.gate.ban h.disk address with
      | .ok (added, gate, disk) => (.ok added, ⟨gate, disk⟩)
      | .error cause => (.error (.file cause), ⟨h.gate, w.wreck h.disk cause.path⟩) := by
  obtain ⟨⟨filter, namesPath, bansPath⟩, disk⟩ := h
  rw [ban, perform_bind, perform_get, Gate.ban]
  dsimp only
  cases filter.bans.admits address with
  | false => rfl
  | true =>
      rw [if_pos rfl, if_pos rfl, perform_bind]
      cases bansPath with
      | none => rfl
      | some path =>
          rw [perform_save]
          dsimp only
          cases disk.writeText path (filter.bans.insert address).serialize <;> rfl

/-- Names are replaced as a gate does it, unless no patterns can be made of them. -/
theorem perform_refreshNames :
    (refreshNames w).perform h =
      match h.gate.refreshNames h.disk with
      | .error cause => (.error (.file cause), h)
      | .ok gate =>
        match w.complaint? gate.filter.names with
        | none => (.ok (), { h with gate })
        | some message => (.error (.pattern message), h) := by
  rw [refreshNames, perform_bind, perform_get, Gate.refreshNames]
  dsimp only
  rw [perform_bind, perform_read]
  cases Gate.contents? h.disk h.gate.namesPath with
  | error cause => rfl
  | ok text =>
      dsimp only [Except.map, Gate.installNames]
      rw [perform_bind, perform_compile]
      cases w.complaint? (.ofWordList (text.getD "")) <;> rfl

theorem perform_refreshBans :
    refreshBans.perform h =
      match h.gate.refreshBans h.disk with
      | .error cause => (.error (.file cause), h)
      | .ok gate => (.ok (), { h with gate }) := by
  rw [refreshBans, perform_bind, perform_get, Gate.refreshBans]
  dsimp only
  rw [perform_bind, perform_read]
  cases Gate.contents? h.disk h.gate.bansPath <;> rfl

end Update

namespace Gatehouse

variable {h : Gatehouse}

/-- No file is there to read a list from. -/
def Lacks (h : Gatehouse) (path : Option String) : Prop :=
  ∀ p ∈ path, h.disk.lookup p = .error .notFound

theorem Lacks.contents? {path : Option String} (hlacks : h.Lacks path) :
    Gate.contents? h.disk path = .ok none := by
  cases path with
  | none => rfl
  | some path =>
      rw [Gate.contents?, Disk.readText?, Disk.readText, Disk.readBytes, hlacks path rfl]

/-- A ban that succeeds tells whether the address is new. Then it is in memory and on disk. -/
theorem ban_eq_ok {address : String} {added : Bool} {gate : Gate} {disk : Disk}
    (hban : h.gate.ban h.disk address = .ok (added, gate, disk)) :
    added = h.gate.filter.bans.admits address ∧
      (added = false → gate = h.gate ∧ disk = h.disk) ∧
      (added = true → gate = { h.gate with filter.bans := h.gate.filter.bans.insert address } ∧
        ∀ path ∈ h.gate.bansPath, Holds ⟨gate, disk⟩ path gate.filter.bans.serialize) := by
  obtain ⟨⟨filter, namesPath, bansPath⟩, d⟩ := h
  unfold Gate.ban at hban
  dsimp only at hban ⊢
  cases hadmits : filter.bans.admits address with
  | false =>
      rw [hadmits] at hban
      cases hban
      exact ⟨rfl, fun _ => ⟨rfl, rfl⟩, nofun⟩
  | true =>
      rw [hadmits, if_pos rfl] at hban
      cases bansPath with
      | none =>
          cases hban
          exact ⟨rfl, nofun, fun _ => ⟨rfl, nofun⟩⟩
      | some path =>
          dsimp only at hban
          cases hwrite : d.writeText path (filter.bans.insert address).serialize with
          | error fault =>
              rw [hwrite] at hban
              cases hban
          | ok written =>
              rw [hwrite] at hban
              cases hban
              have hread := Disk.readText?_of_writeText hwrite
              refine ⟨rfl, nofun, fun _ => ⟨rfl, fun p hp => ?_⟩⟩
              cases hp
              dsimp only [Holds]
              exact hread

end Gatehouse

namespace Update

open Gatehouse

variable {w : Outside} {h k : Gatehouse}

/-- A word list that is not there is one without words. -/
theorem refreshNames_of_lacks (hbuiltin : w.complaint? .builtin = none)
    (hlacks : h.Lacks h.gate.namesPath) :
    (refreshNames w).perform h = (.ok (), { h with gate.filter.names := .builtin }) := by
  have hnames : h.gate.refreshNames h.disk = .ok { h.gate with filter.names := .builtin } := by
    rw [Gate.refreshNames, hlacks.contents?]
    rfl
  rw [perform_refreshNames, hnames]
  dsimp only
  rw [hbuiltin]

/-- A ban list that is not there replaces none. -/
theorem refreshBans_of_lacks (hlacks : h.Lacks h.gate.bansPath) :
    refreshBans.perform h = (.ok (), h) := by
  rw [perform_refreshBans, Gate.refreshBans, hlacks.contents?]
  rfl

theorem ban_perform_eq_ok {address : String} {added : Bool}
    (hdone : (ban w address).perform h = (.ok added, k)) :
    h.gate.ban h.disk address = .ok (added, k.gate, k.disk) := by
  rw [perform_ban] at hdone
  cases hban : h.gate.ban h.disk address with
  | error cause =>
      rw [hban] at hdone
      cases hdone
  | ok done =>
      rw [hban] at hdone
      cases hdone
      rfl

/-- An update that fails leaves the gate to decide as before, whatever it leaves on disk. A word
list that is not there stands for no words but the built-in ones, a ban list that is not there for
the one in memory. A ban that succeeds tells whether the address is new, and a new one is banned in
memory and on disk. -/
theorem gate_kept_unless_updated (w : Outside) (hbuiltin : w.complaint? .builtin = none)
    (h : Gatehouse) :
    (∀ address e k, (ban w address).perform h = (.error e, k) → k.gate = h.gate) ∧
      (∀ e k, (refreshNames w).perform h = (.error e, k) → k.gate = h.gate) ∧
      (∀ e k, refreshBans.perform h = (.error e, k) → k.gate = h.gate) ∧
      (h.Lacks h.gate.namesPath →
        (refreshNames w).perform h = (.ok (), { h with gate.filter.names := .builtin })) ∧
      (h.Lacks h.gate.bansPath → refreshBans.perform h = (.ok (), h)) ∧
      ∀ address added k, (ban w address).perform h = (.ok added, k) →
        (added = true ↔
          trimmed address ≠ "" ∧ h.gate.filter.bans.contains address = false) ∧
        (added = true →
          k.gate = { h.gate with filter.bans := h.gate.filter.bans.insert address } ∧
            ∀ path ∈ h.gate.bansPath, k.Holds path k.gate.filter.bans.serialize) ∧
        (added = false → k = h) := by
  refine ⟨fun address => isAtomic_ban address h, isAtomic_refreshNames h, isAtomic_refreshBans h,
    refreshNames_of_lacks hbuiltin, refreshBans_of_lacks, fun address added k hdone => ?_⟩
  obtain ⟨hadded, hkept, hnew⟩ := ban_eq_ok (ban_perform_eq_ok hdone)
  refine ⟨?_, hnew, fun hold => ?_⟩
  · rw [hadded]
    simp [BanList.admits]
  · obtain ⟨hgate, hdisk⟩ := hkept hold
    cases h
    cases k
    cases hgate
    cases hdisk
    rfl

/-! ## A ban list that is none -/

/-- A gatehouse where a directory stands in place of the ban list. -/
def blocked : Gatehouse :=
  ⟨(withBanFile .empty none).gate, ⟨[(["bans.txt"], .directory)], []⟩⟩

theorem writeText_blocked (text : String) :
    blocked.disk.writeText "bans.txt" text = .error .isADirectory :=
  Disk.writeBytes_of_directory (locate_list rfl (.inr rfl)) rfl

theorem lacks_list {d : Disk} {g : Gate} {name : String} (hhome : d.home = [])
    (hname : name = "names.txt" ∨ name = "bans.txt") (hnone : d.node? [name] = none) :
    Lacks ⟨g, d⟩ (some name) := by
  rintro _ ⟨⟩
  rw [Disk.lookup, locate_list hhome hname]
  dsimp only
  rw [hnone]

/-- Nobody can be banned where the list cannot be saved, and whoever is banned elsewhere is in the
list that is saved there. -/
theorem gate_kept_unless_updated_blocked :
    ∃ (w : Outside) (e : UpdateError) (k l : Gatehouse), w.complaint? .builtin = none ∧
      (ban w "10.0.0.1").perform blocked = (.error e, k) ∧ k.gate = blocked.gate ∧
      (refreshNames w).perform blocked =
        (.ok (), { blocked with gate.filter.names := .builtin }) ∧
      refreshBans.perform (withBanFile .empty none) = (.ok (), withBanFile .empty none) ∧
      (ban w "10.0.0.1").perform (withBanFile .empty none) = (.ok true, l) ∧
      l.Holds "bans.txt" l.gate.filter.bans.serialize := by
  let w : Outside := ⟨fun _ => none, fun d _ => d⟩
  have hempty : BanList.empty.contains worm.text = false := by decide +kernel
  have hfailed : (ban w "10.0.0.1").perform blocked =
      (.error (.file ⟨"bans.txt", .isADirectory⟩), blocked) := by
    have hban := ban_of_not_bans (h := blocked) (a := worm)
      (show _ = some "bans.txt" from rfl) hempty
    rw [writeText_blocked] at hban
    rw [perform_ban, show blocked.gate.ban blocked.disk "10.0.0.1" = _ from hban]
  have hdone : (ban w "10.0.0.1").perform (withBanFile .empty none) =
      (.ok true, withBanFile (BanList.empty.insert "10.0.0.1")
        (some (BanList.empty.insert "10.0.0.1").serialize)) := by
    have hban := ban_of_not_bans (h := withBanFile .empty none) (a := worm)
      (show _ = some "bans.txt" from rfl) hempty
    rw [writeText_withBanFile] at hban
    rw [perform_ban, show (withBanFile .empty none).gate.ban _ "10.0.0.1" = _ from hban]
    rfl
  obtain ⟨hban, -, -, hnames, -, -⟩ := gate_kept_unless_updated w rfl blocked
  obtain ⟨-, -, -, -, hbans, hsaved⟩ := gate_kept_unless_updated w rfl (withBanFile .empty none)
  exact ⟨w, _, _, _, rfl, hfailed, hban _ _ _ hfailed,
    hnames (lacks_list rfl (.inl rfl) rfl), hbans (lacks_list rfl (.inr rfl) rfl), hdone,
    ((hsaved _ _ _ hdone).2.1 rfl).2 _ rfl⟩

end Update

end CoreArena.Admission
