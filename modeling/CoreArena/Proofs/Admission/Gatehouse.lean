import CoreArena.Admission.Gate
import CoreArena.Disk.Lemmas
import CoreArena.Proofs.Admission.BanList

/-! # A ban list in two places

A gate with files has its bans in memory and on disk, and each of the two replaces the other: a new
ban saves what is in memory, and reading the list again takes over what is on disk. So a ban that
the gate itself made stays, but an address that an operator wrote into the file is gone if somebody
is banned before the file is read again: `bans_after_files`. -/

namespace CoreArena.Admission

open Text

/-- An address on a line of its own. -/
structure Address where
  text : String
  ne_blank : trimmed text ≠ ""
  lineFeed_not_mem : '\n' ∉ text.toList

/-- Addresses are told apart by what is between the blanks around them. -/
def Address.Same (a b : Address) : Prop :=
  trimmed a.text = trimmed b.text

/-- A gate, and the disk that its files are on. -/
structure Gatehouse where
  gate : Gate
  disk : Disk

namespace Gatehouse

/-- What the gate does, or an operator. -/
inductive Step where
  | ban (a : Address)
  | reload
  /-- An operator replaces the text of the ban file by one with one more line. -/
  | append (a : Address) (text : String)

/-- The gatehouse after a step, if no file operation fails and an operator does append a line. -/
def attempt (h : Gatehouse) : Step → Option Gatehouse
  | .ban a =>
    match h.gate.ban h.disk a.text with
    | .ok (_, gate, disk) => some ⟨gate, disk⟩
    | .error _ => none
  | .reload =>
    match h.gate.refreshBans h.disk with
    | .ok gate => some ⟨gate, h.disk⟩
    | .error _ => none
  | .append a text => do
    let path ← h.gate.bansPath
    let old ← (h.disk.readText? path).toOption
    if linesOf text = linesOf (old.getD "") ++ [a.text] then
      let disk ← (h.disk.writeText path text).toOption
      some ⟨h.gate, disk⟩
    else none

def after? (h : Gatehouse) : List Step → Option Gatehouse
  | [] => some h
  | step :: steps => (h.attempt step).bind (·.after? steps)

/-- The address that a step bans, if the gate says that it was not banned before. -/
def added? (h : Gatehouse) : Step → Option Address
  | .ban a =>
    match h.gate.ban h.disk a.text with
    | .ok (true, _) => some a
    | _ => none
  | .reload | .append .. => none

/-- The addresses that some steps newly ban. -/
def added (h : Gatehouse) : List Step → List Address
  | [] => []
  | step :: steps => (h.added? step).toList ++ ((h.attempt step).map (·.added steps)).getD []

/-- Whether an address is refused. -/
def bans (h : Gatehouse) (a : Address) : Bool :=
  h.gate.filter.bans.contains a.text

/-- The text of a file. -/
def Holds (h : Gatehouse) (path text : String) : Prop :=
  h.disk.readText? path = .ok (some text)

/-- A file has an address on a line. -/
def Lists (h : Gatehouse) (path : String) (a : Address) : Prop :=
  ∃ text, h.Holds path text ∧ (BanList.parse text).contains a.text = true

/-- A gate whose bans are in a file and can be saved there. -/
structure Sound (path : String) (h : Gatehouse) : Prop where
  bansPath_eq : h.gate.bansPath = some path
  isClean : h.gate.filter.bans.IsClean

variable {path text : String} {h k : Gatehouse} {a : Address} {step : Step}

/-! ## Single steps -/

/-- What a step does to the bans in memory and to those in the file. -/
inductive Done (path : String) (h : Gatehouse) : Step → Option Address → Gatehouse → Prop where
  | known {a : Address} (hold : h.bans a = true) : Done path h (.ban a) none h
  | saved {a : Address} {k : Gatehouse} {text : String} (hnew : h.bans a = false)
      (hbans : ∀ x, k.bans x = true ↔ h.bans x = true ∨ x.Same a) (hfile : k.Holds path text)
      (hlists : ∀ x, k.Lists path x ↔ k.bans x = true) : Done path h (.ban a) (some a) k
  | kept (hfile : ∀ text, ¬ h.Holds path text) : Done path h .reload none h
  | reloaded {k : Gatehouse} {text : String} (hfile : h.Holds path text)
      (hdisk : k.disk = h.disk) (hbans : ∀ x, k.bans x = true ↔ h.Lists path x) :
      Done path h .reload none k
  | appended {a : Address} {k : Gatehouse} {text : String} (hgate : k.gate = h.gate)
      (hfile : k.Holds path text) (hlists : ∀ x, k.Lists path x ↔ h.Lists path x ∨ x.Same a) :
      Done path h (.append a text) none k

theorem lists_iff_of_holds (h' : h.Holds path text) (a : Address) :
    h.Lists path a ↔ (BanList.parse text).contains a.text = true := by
  constructor
  · rintro ⟨text', htext', ha⟩
    cases htext'.symm.trans h'
    exact ha
  · intro ha
    exact ⟨text, h', ha⟩

theorem lists_congr (hdisk : k.disk = h.disk) (a : Address) : k.Lists path a ↔ h.Lists path a := by
  unfold Lists Holds
  rw [hdisk]

theorem admits_eq (h : Gatehouse) (a : Address) :
    h.gate.filter.bans.admits a.text = !h.bans a := by
  have hblank : (trimmed a.text).isEmpty = false := by
    rw [← Bool.not_eq_true, String.isEmpty_iff]
    exact a.ne_blank
  rw [BanList.admits, hblank]
  rfl

theorem ban_of_bans (hold : h.bans a = true) :
    h.gate.ban h.disk a.text = .ok (false, h.gate, h.disk) := by
  rw [Gate.ban, admits_eq, hold]
  rfl

theorem ban_of_not_bans (hpath : h.gate.bansPath = some path) (hnew : h.bans a = false) :
    h.gate.ban h.disk a.text =
      match h.disk.writeText path (h.gate.filter.bans.insert a.text).serialize with
      | .error fault => .error ⟨path, fault⟩
      | .ok disk =>
        .ok (true, ⟨⟨h.gate.filter.names, h.gate.filter.bans.insert a.text⟩, h.gate.namesPath,
          some path⟩, disk) := by
  rw [Gate.ban, admits_eq, hnew, hpath]
  rfl

/-- Of an address that is not blank, it is only asked whether it is the same as another. -/
theorem contains_insert_iff (b : BanList) (a x : Address) :
    (b.insert a.text).contains x.text = true ↔ b.contains x.text = true ∨ x.Same a := by
  rw [BanList.contains_insert_iff]
  exact or_congr_right (and_iff_right x.ne_blank)

theorem contains_parse_iff (x : Address) :
    (BanList.parse text).contains x.text = true ↔
      ∃ l ∈ linesOf text, trimmed x.text = trimmed l := by
  rw [BanList.contains_parse_iff]
  exact and_iff_right x.ne_blank

/-- A file with one more line lists one more address. -/
theorem lists_append_iff {old : Option String} (hread : h.disk.readText? path = .ok old)
    (hfile : k.Holds path text) (hlines : linesOf text = linesOf (old.getD "") ++ [a.text])
    (x : Address) : k.Lists path x ↔ h.Lists path x ∨ x.Same a := by
  rw [lists_iff_of_holds hfile, contains_parse_iff, hlines]
  simp only [List.mem_append, List.mem_singleton, or_and_right, exists_or, exists_eq_left]
  refine or_congr_left ?_
  cases old with
  | none =>
      refine iff_of_false (fun hnone => ?_) fun hlists => ?_
      · obtain ⟨l, hl, -⟩ := hnone
        cases hl
      · obtain ⟨text', hholds, -⟩ := hlists
        cases hholds.symm.trans hread
  | some old => rw [lists_iff_of_holds hread, contains_parse_iff, Option.getD_some]

namespace Sound

theorem done_ban (hs : h.Sound path) (hk : h.attempt (.ban a) = some k) :
    Done path h (.ban a) (h.added? (.ban a)) k ∧ k.Sound path := by
  rw [attempt] at hk
  rw [added?]
  cases hbans : h.bans a with
  | true =>
      rw [ban_of_bans hbans] at hk ⊢
      cases hk
      exact ⟨.known hbans, hs⟩
  | false =>
      rw [ban_of_not_bans hs.bansPath_eq hbans] at hk ⊢
      cases hwrite : h.disk.writeText path (h.gate.filter.bans.insert a.text).serialize with
      | error fault =>
          rw [hwrite] at hk
          cases hk
      | ok disk =>
          rw [hwrite] at hk
          cases hk
          have hclean := hs.isClean.insert a.lineFeed_not_mem
          have hfile := Disk.readText?_of_writeText hwrite
          refine ⟨.saved hbans (fun x => ?_) hfile fun x => ?_, rfl, by simpa only using hclean⟩
          · simpa only [bans] using contains_insert_iff h.gate.filter.bans a x
          · rw [lists_iff_of_holds (Disk.readText?_of_writeText hwrite),
              hclean.contains_parse_serialize, bans]

theorem done_reload (hs : h.Sound path) (hk : h.attempt .reload = some k) :
    Done path h .reload none k ∧ k.Sound path := by
  rw [attempt, Gate.refreshBans, hs.bansPath_eq, Gate.contents?] at hk
  cases hread : h.disk.readText? path with
  | error e =>
      rw [hread] at hk
      cases hk
  | ok file =>
      rw [hread] at hk
      cases file with
      | none =>
          cases hk
          refine ⟨.kept fun text htext => ?_, hs⟩
          cases htext.symm.trans hread
      | some text =>
          cases hk
          refine ⟨.reloaded hread rfl fun x => ?_, hs.bansPath_eq, BanList.isClean_parse text⟩
          rw [lists_iff_of_holds hread, bans, Gate.installBans]

theorem done_append (hs : h.Sound path) (hk : h.attempt (.append a text) = some k) :
    Done path h (.append a text) none k ∧ k.Sound path := by
  rw [attempt, hs.bansPath_eq, Option.bind_eq_bind, Option.bind_some] at hk
  cases hread : h.disk.readText? path with
  | error e =>
      rw [hread] at hk
      cases hk
  | ok old =>
      rw [hread] at hk
      change (if linesOf text = linesOf (old.getD "") ++ [a.text] then
        (h.disk.writeText path text).toOption.bind fun disk => some ⟨h.gate, disk⟩
        else none) = some k at hk
      split at hk
      · rename_i hlines
        cases hwrite : h.disk.writeText path text with
        | error fault =>
            rw [hwrite] at hk
            cases hk
        | ok disk =>
            rw [hwrite] at hk
            cases hk
            have hfile : Holds ⟨h.gate, disk⟩ path text := Disk.readText?_of_writeText hwrite
            exact ⟨.appended rfl hfile (lists_append_iff hread hfile hlines), hs.bansPath_eq,
              hs.isClean⟩
      · cases hk

/-- Every step that succeeds does one of these things, and leaves a gate of the same kind. -/
theorem done (hs : h.Sound path) (hk : h.attempt step = some k) :
    Done path h step (h.added? step) k ∧ k.Sound path := by
  cases step with
  | ban a => exact hs.done_ban hk
  | reload => exact hs.done_reload hk
  | append a text => exact hs.done_append hk

end Sound

/-! ## Runs -/

theorem after?_cons_eq_some_iff {steps : List Step} :
    h.after? (step :: steps) = some k ↔
      ∃ next, h.attempt step = some next ∧ next.after? steps = some k :=
  Option.bind_eq_some_iff

theorem after?_eq_some_of_attempt {steps : List Step} {next : Gatehouse}
    (hnext : h.attempt step = some next) (hk : next.after? steps = some k) :
    h.after? (step :: steps) = some k :=
  after?_cons_eq_some_iff.mpr ⟨next, hnext, hk⟩

theorem after?_append_eq_some_iff {steps more : List Step} :
    h.after? (steps ++ more) = some k ↔
      ∃ next, h.after? steps = some next ∧ next.after? more = some k := by
  induction steps generalizing h with
  | nil => simp [after?]
  | cons step steps ih =>
      simp only [List.cons_append, after?_cons_eq_some_iff, ih]
      constructor
      · rintro ⟨first, hfirst, next, hnext, hmore⟩
        exact ⟨next, ⟨first, hfirst, hnext⟩, hmore⟩
      · rintro ⟨next, ⟨first, hfirst, hnext⟩, hmore⟩
        exact ⟨first, hfirst, next, hnext, hmore⟩

theorem Sound.after (hs : h.Sound path) {steps : List Step} (hk : h.after? steps = some k) :
    k.Sound path := by
  induction steps generalizing h with
  | nil =>
      cases hk
      exact hs
  | cons step steps ih =>
      obtain ⟨next, hnext, hrest⟩ := after?_cons_eq_some_iff.mp hk
      exact ih (hs.done hnext).2 hrest

/-- An address that is banned and on a line of the file. -/
def Kept (path : String) (h : Gatehouse) (a : Address) : Prop :=
  h.bans a = true ∧ h.Lists path a

theorem Kept.done {added : Option Address} (h' : h.Kept path a)
    (hdone : Done path h step added k) : k.Kept path a := by
  obtain ⟨hbans, hlists⟩ := h'
  cases hdone with
  | known => exact ⟨hbans, hlists⟩
  | saved _ hsaved _ hsame =>
      have hk := (hsaved a).mpr (.inl hbans)
      exact ⟨hk, (hsame a).mpr hk⟩
  | kept => exact ⟨hbans, hlists⟩
  | reloaded _ hdisk hread => exact ⟨(hread a).mpr hlists, (lists_congr hdisk a).mpr hlists⟩
  | appended hgate _ hmore =>
      refine ⟨?_, (hmore a).mpr (.inl hlists)⟩
      rw [bans, hgate]
      exact hbans

/-- Nothing lifts the ban of an address that is in both places. -/
theorem Kept.after (hs : h.Sound path) (h' : h.Kept path a) {steps : List Step}
    (hk : h.after? steps = some k) : k.Kept path a := by
  induction steps generalizing h with
  | nil =>
      cases hk
      exact h'
  | cons step steps ih =>
      obtain ⟨next, hnext, hrest⟩ := after?_cons_eq_some_iff.mp hk
      obtain ⟨hdone, hsound⟩ := hs.done hnext
      exact ih hsound (h'.done hdone) hrest

/-- What happens before the list is read again without touching the line of an address. -/
def Step.Passes (a : Address) : Step → Prop
  | .ban _ => True
  | .reload => False
  | .append b _ => ¬ a.Same b

/-- Such a step either bans nobody anew and leaves the address as it is, or puts what is in memory
into the file. -/
theorem Done.passes {added : Option Address} (hdone : Done path h step added k)
    (hstep : step.Passes a) :
    (added = none ∧ k.bans a = h.bans a ∧ (k.Lists path a ↔ h.Lists path a)) ∨
      ∃ b, added = some b ∧ (k.bans a = true ↔ h.bans a = true ∨ a.Same b) ∧
        (k.Lists path a ↔ k.bans a = true) := by
  cases hdone with
  | known => exact .inl ⟨rfl, rfl, Iff.rfl⟩
  | saved _ hsaved _ hsame => exact .inr ⟨_, rfl, hsaved a, hsame a⟩
  | kept => exact hstep.elim
  | reloaded => exact hstep.elim
  | appended hgate _ hmore =>
      refine .inl ⟨rfl, ?_, (hmore a).trans (or_iff_left hstep)⟩
      rw [bans, bans, hgate]

/-- Until the list is read again, an address stays in the file if it is banned or nobody is banned
anew. -/
theorem lists_after_iff (hs : h.Sound path) (hin : h.bans a = true → h.Lists path a)
    {steps : List Step} (hsteps : ∀ step ∈ steps, step.Passes a) (hk : h.after? steps = some k) :
    k.Lists path a ↔
      h.bans a = true ∨ (∃ b ∈ h.added steps, a.Same b) ∨ h.added steps = [] ∧ h.Lists path a := by
  induction steps generalizing h with
  | nil =>
      cases hk
      simpa [added] using hin
  | cons step steps ih =>
      obtain ⟨next, hnext, hrest⟩ := after?_cons_eq_some_iff.mp hk
      obtain ⟨hdone, hsound⟩ := hs.done hnext
      obtain ⟨hstep, hlater⟩ := List.forall_mem_cons.mp hsteps
      rw [added, hnext, Option.map_some, Option.getD_some]
      rcases hdone.passes hstep with ⟨hnone, hbans, hlists⟩ | ⟨b, hsome, hbans, hlists⟩
      · rw [ih hsound (fun hb => hlists.mpr (hin (hbans ▸ hb))) hlater hrest, hnone, hbans, hlists]
        rfl
      · -- The file now has what is in memory, whatever an operator wrote before.
        rw [ih hsound hlists.mpr hlater hrest, hlists, hbans, hsome, Option.toList_some,
          List.singleton_append, List.exists_mem_cons_iff]
        simp only [List.cons_ne_nil, false_and, or_false]
        constructor
        · rintro ((hold | hself) | hmore | ⟨-, hold | hself⟩)
          · exact .inl hold
          · exact .inr (.inl hself)
          · exact .inr (.inr hmore)
          · exact .inl hold
          · exact .inr (.inl hself)
        · rintro (hold | hself | hmore)
          · exact .inl (.inl hold)
          · exact .inl (.inr hself)
          · exact .inr (.inl hmore)

/-- A file that is there stays there. -/
theorem exists_holds_after (hs : h.Sound path) (hfile : ∃ text, h.Holds path text)
    {steps : List Step} (hk : h.after? steps = some k) : ∃ text, k.Holds path text := by
  induction steps generalizing h with
  | nil =>
      cases hk
      exact hfile
  | cons step steps ih =>
      obtain ⟨next, hnext, hrest⟩ := after?_cons_eq_some_iff.mp hk
      obtain ⟨hdone, hsound⟩ := hs.done hnext
      refine ih hsound ?_ hrest
      generalize h.added? step = new at hdone
      cases hdone with
      | known | kept => exact hfile
      | saved _ _ hthere => exact ⟨_, hthere⟩
      | @reloaded _ text hthere hdisk =>
          refine ⟨text, ?_⟩
          rw [Holds, hdisk]
          exact hthere
      | appended _ hthere => exact ⟨_, hthere⟩

/-! ## Reading the list again -/

theorem isClean_installBans {g : Gate} (hclean : g.filter.bans.IsClean) (file : Option String) :
    (g.installBans file).filter.bans.IsClean := by
  cases file with
  | none => exact hclean
  | some text => exact BanList.isClean_parse text

theorem exists_of_withFiles {names : String} {d : Disk} {g : Gate}
    (hload : Gate.withFiles names path d = .ok g) :
    ∃ words file,
      g = (Gate.installNames ⟨.builtin, some names, some path⟩ words).installBans file := by
  unfold Gate.withFiles Gate.refreshNames at hload
  cases hwords : Gate.contents? d (some names) with
  | error e =>
      rw [hwords] at hload
      cases hload
  | ok words =>
      rw [hwords] at hload
      change (Gate.contents? d (some path)).map
        (Gate.installNames ⟨.builtin, some names, some path⟩ words).installBans = .ok g at hload
      cases hfile : Gate.contents? d (some path) with
      | error e =>
          rw [hfile] at hload
          cases hload
      | ok file =>
          rw [hfile] at hload
          cases hload
          exact ⟨words, file, rfl⟩

theorem sound_withFiles {names : String} {d : Disk} {g : Gate}
    (hload : Gate.withFiles names path d = .ok g) : (⟨g, d⟩ : Gatehouse).Sound path := by
  obtain ⟨words, file, rfl⟩ := exists_of_withFiles hload
  refine ⟨?_, isClean_installBans BanList.isClean_empty file⟩
  cases file <;> rfl

theorem kept_of_added (hs : h.Sound path) (hk : h.attempt (.ban a) = some k)
    (hadded : h.added? (.ban a) = some a) : k.Kept path a := by
  have hdone := (hs.done_ban hk).1
  rw [hadded] at hdone
  cases hdone with
  | saved _ hsaved _ hsame =>
      have hbans := (hsaved a).mpr (.inr rfl)
      exact ⟨hbans, (hsame a).mpr hbans⟩

/-- Reading a list that is there bans who is on it, and nobody else. -/
theorem Sound.bans_reload (hs : h.Sound path) (hfile : ∃ text, h.Holds path text)
    (hk : h.attempt .reload = some k) (a : Address) :
    (k.bans a = true ↔ h.Lists path a) ∧ (k.bans a = true → k.Kept path a) := by
  obtain ⟨text, hfile⟩ := hfile
  have hdone := (hs.done_reload hk).1
  cases hdone with
  | kept hnone => exact absurd hfile (hnone text)
  | reloaded _ hdisk hread =>
      refine ⟨hread a, fun hbans => ⟨hbans, ?_⟩⟩
      rw [lists_congr hdisk]
      exact (hread a).mp hbans

/-! ## A small gatehouse -/

/-- A gate with some bans whose ban file has some text, if it is there. -/
def withBanFile (bans : BanList) (file : Option String) : Gatehouse :=
  ⟨⟨⟨.ofWordList "", bans⟩, some "names.txt", some "bans.txt"⟩,
    ⟨file.toList.map fun text => (["bans.txt"], .file text.toUTF8), []⟩⟩

/-- The files of the lists lie at the root. -/
theorem locate_list {d : Disk} (hhome : d.home = []) {name : String}
    (hname : name = "names.txt" ∨ name = "bans.txt") : d.locate name = .ok [name] := by
  have husable : Disk.unusable? name = none := by
    obtain rfl | rfl := hname <;>
      exact Disk.unusable?_eq_none (by simp) (by decide +kernel) (by decide +kernel)
  have hroot : d.node? d.home = some .directory := by
    rw [hhome]
    rfl
  have hplace : [name] = d.home ++ [name] := by rw [hhome, List.nil_append]
  rw [hplace]
  obtain rfl | rfl := hname <;>
    exact Disk.locate_name husable (by decide +kernel) (by decide +kernel) (by decide +kernel)
      (by decide +kernel) (by decide +kernel) hroot

theorem writeText_withBanFile (bans : BanList) (file : Option String) (text : String) :
    (withBanFile bans file).disk.writeText "bans.txt" text =
      .ok (withBanFile bans (some text)).disk := by
  refine (Disk.writeBytes_of_locate (by decide +kernel) (locate_list rfl (.inr rfl))
    ?_ ?_).trans ?_
  · cases file <;> simp [withBanFile, Disk.node?]
  · cases file <;> simp [withBanFile, Disk.node?]
  · cases file <;> simp [withBanFile, Disk.put]

theorem readText?_withBanFile (bans : BanList) (file : Option String) :
    (withBanFile bans file).disk.readText? "bans.txt" = .ok file := by
  cases file with
  | none => exact Disk.readText?_of_missing (locate_list rfl (.inr rfl)) rfl
  | some text => exact Disk.readText?_of_writeText (writeText_withBanFile bans none text)

theorem withFiles_empty :
    Gate.withFiles "names.txt" "bans.txt" .empty = .ok (withBanFile .empty none).gate := by
  have hnames : Disk.empty.readText? "names.txt" = .ok none :=
    Disk.readText?_of_missing (locate_list rfl (.inl rfl)) rfl
  have hbans : Disk.empty.readText? "bans.txt" = .ok none := readText?_withBanFile .empty none
  rw [Gate.withFiles, Gate.refreshNames, Gate.contents?, hnames]
  change (Gate.contents? Disk.empty (some "bans.txt")).map _ = _
  rw [Gate.contents?, hbans]
  rfl

theorem attempt_append_withBanFile (bans : BanList) (file : Option String)
    (h : linesOf text = linesOf (file.getD "") ++ [a.text]) :
    (withBanFile bans file).attempt (.append a text) = some (withBanFile bans (some text)) := by
  have hpath : (withBanFile bans file).gate.bansPath = some "bans.txt" := rfl
  rw [attempt, hpath, Option.bind_eq_bind, Option.bind_some, readText?_withBanFile]
  change (if linesOf text = linesOf (file.getD "") ++ [a.text] then _ else _) = _
  rw [if_pos h, writeText_withBanFile]
  rfl

theorem attempt_ban_withBanFile (bans : BanList) (file : Option String)
    (h : (withBanFile bans file).bans a = false) :
    (withBanFile bans file).attempt (.ban a) =
        some (withBanFile (bans.insert a.text) (some (bans.insert a.text).serialize)) ∧
      (withBanFile bans file).added? (.ban a) = some a := by
  rw [attempt, added?, ban_of_not_bans rfl h, writeText_withBanFile]
  exact ⟨rfl, rfl⟩

theorem attempt_reload_withBanFile (bans : BanList) (text : String) :
    (withBanFile bans (some text)).attempt .reload =
      some (withBanFile (.parse text) (some text)) := by
  have hpath : (withBanFile bans (some text)).gate.bansPath = some "bans.txt" := rfl
  rw [attempt, Gate.refreshBans, hpath, Gate.contents?, readText?_withBanFile]
  rfl

def worm : Address := ⟨"10.0.0.1", by decide +kernel, by decide +kernel⟩

def visitor : Address := ⟨"10.0.0.2", by decide +kernel, by decide +kernel⟩

/-! ## A lost address -/

/-- Whatever was done with a gate that has its lists in files: an address that it bans and did not
ban before is banned from then on. An address that an operator appends to the file is banned when
the file is next read exactly if it was banned before, or until then nobody is banned who was not,
or it is itself; and then it is banned from then on. -/
theorem bans_after_files {names path : String} {d : Disk} {g : Gate}
    (hload : Gate.withFiles names path d = .ok g) {before : List Step} {h : Gatehouse}
    (hbefore : Gatehouse.after? ⟨g, d⟩ before = some h) :
    (∀ a later k, h.added? (.ban a) = some a → h.after? (.ban a :: later) = some k →
      k.bans a = true) ∧
    (∀ a text between entered k, h.attempt (.append a text) = some entered →
      (∀ step ∈ between, step.Passes a) → entered.after? (between ++ [.reload]) = some k →
      (k.bans a = true ↔ h.bans a = true ∨ entered.added between = [] ∨
        ∃ b ∈ entered.added between, a.Same b) ∧
      (k.bans a = true → ∀ later k', k.after? later = some k' → k'.bans a = true)) := by
  have hs : h.Sound path := (sound_withFiles hload).after hbefore
  refine ⟨fun a later k hadded hk => ?_, fun a text between entered k hentered hsteps hk => ?_⟩
  · obtain ⟨next, hnext, hlater⟩ := after?_cons_eq_some_iff.mp hk
    exact ((kept_of_added hs hnext hadded).after (hs.done hnext).2 hlater).1
  · obtain ⟨hdone, hsound⟩ := hs.done_append hentered
    cases hdone with
    | appended hgate hfile hlists =>
        have hin : entered.Lists path a := (hlists a).mpr (.inr rfl)
        have hbans : entered.bans a = h.bans a := by
          rw [bans, bans, hgate]
        obtain ⟨last, hlast, hreload⟩ := after?_append_eq_some_iff.mp hk
        obtain ⟨read, hread, hnil⟩ := after?_cons_eq_some_iff.mp hreload
        cases hnil
        have hsound' := hsound.after hlast
        have hthere := exists_holds_after hsound ⟨text, hfile⟩ hlast
        obtain ⟨hiff, hkept⟩ := hsound'.bans_reload hthere hread a
        refine ⟨?_, fun hbanned later k' hk' => ?_⟩
        · rw [hiff, lists_after_iff hsound (fun _ => hin) hsteps hlast, hbans, or_comm (b := _ ∧ _)]
          simp only [hin, and_true]
        · exact ((hkept hbanned).after (hsound'.done hread).2 hk').1

/-- The line that an operator writes is taken over if nobody is banned meanwhile, and who is banned
is so after the file is read. -/
theorem bans_after_files_visitor :
    ∃ g h entered read banned, Gate.withFiles "names.txt" "bans.txt" .empty = .ok g ∧
      Gatehouse.after? ⟨g, .empty⟩ [] = some h ∧
      h.attempt (.append visitor "10.0.0.2\n") = some entered ∧
      entered.after? ([] ++ [.reload]) = some read ∧ read.bans visitor = true ∧
      h.added? (.ban worm) = some worm ∧ h.after? [.ban worm, .reload] = some banned ∧
      banned.bans worm = true := by
  have hbefore : Gatehouse.after? ⟨(withBanFile .empty none).gate, .empty⟩ [] =
      some (withBanFile .empty none) := rfl
  have hentered : (withBanFile .empty none).attempt (.append visitor "10.0.0.2\n") =
      some (withBanFile .empty (some "10.0.0.2\n")) :=
    attempt_append_withBanFile .empty none (by decide +kernel)
  have hread : (withBanFile .empty (some "10.0.0.2\n")).after? ([] ++ [.reload]) =
      some (withBanFile (.parse "10.0.0.2\n") (some "10.0.0.2\n")) :=
    after?_eq_some_of_attempt (attempt_reload_withBanFile _ _) rfl
  obtain ⟨hban, hadded⟩ := attempt_ban_withBanFile (a := worm) .empty none (by decide +kernel)
  have hbanned := after?_eq_some_of_attempt hban (after?_eq_some_of_attempt
    (attempt_reload_withBanFile _ _) (rfl : Gatehouse.after? _ [] = some _))
  obtain ⟨hworm, hvisitor⟩ := bans_after_files withFiles_empty hbefore
  refine ⟨_, _, _, _, _, withFiles_empty, hbefore, hentered, hread, ?_, hadded, hbanned,
    hworm worm [.reload] _ hadded hbanned⟩
  exact ((hvisitor visitor _ [] _ _ hentered (List.forall_mem_nil _) hread).1).mpr
    (.inr (.inl rfl))

/-- The line is lost if somebody is banned before the gate has read it. -/
theorem visitor_not_banned :
    ∃ g k, Gate.withFiles "names.txt" "bans.txt" .empty = .ok g ∧
      Gatehouse.after? ⟨g, .empty⟩ [.append visitor "10.0.0.2\n", .ban worm, .reload] = some k ∧
      k.bans visitor = false := by
  have hentered : (withBanFile .empty none).attempt (.append visitor "10.0.0.2\n") =
      some (withBanFile .empty (some "10.0.0.2\n")) :=
    attempt_append_withBanFile .empty none (by decide +kernel)
  have hbanned := (attempt_ban_withBanFile (a := worm) .empty (some "10.0.0.2\n")
    (by decide +kernel)).1
  refine ⟨_, _, withFiles_empty, after?_eq_some_of_attempt hentered
    (after?_eq_some_of_attempt hbanned
      (after?_eq_some_of_attempt (attempt_reload_withBanFile _ _) rfl)), ?_⟩
  decide +kernel

end Gatehouse

end CoreArena.Admission
