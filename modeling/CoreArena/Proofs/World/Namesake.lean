import CoreArena.Proofs.World.Containment

/-! # Namesakes in an archive

A file name shows letters, digits and hyphens as they are, and all else as the underscore that also
stands between a name and its author. So submissions of different names may share their files. What
was kept of a submission stays until a namesake comes, which takes its place:
`kept_until_namesake`. -/

namespace CoreArena.Archive

open Source Text

variable {x y : Char} {cs ds : List Char} {part name author name' author' : String}

/-! ## Names that are shown alike -/

/-- A character that is shown as an underscore. -/
def IsBlurred (x : Char) : Prop :=
  ¬ (x.isAlphanum = true ∨ x = '-')

/-- Two characters that file names do not tell apart. -/
def Alike (x y : Char) : Prop :=
  x = y ∨ IsBlurred x ∧ IsBlurred y

instance (x : Char) : Decidable (IsBlurred x) :=
  inferInstanceAs (Decidable (¬ (x.isAlphanum = true ∨ x = '-')))

instance : DecidableRel Alike := fun x y =>
  inferInstanceAs (Decidable (x = y ∨ IsBlurred x ∧ IsBlurred y))

theorem shown_of_not_isBlurred (h : ¬ IsBlurred x) : shown x = x := by
  refine shown_of_isHarmless (isHarmless_iff.mpr ?_)
  rcases not_not.mp h with halnum | hhyphen
  · exact .inl halnum
  · exact .inr (.inl hhyphen)

theorem isBlurred_underscore : IsBlurred '_' := by
  decide

theorem shown_of_isBlurred (h : IsBlurred x) : shown x = '_' := by
  unfold shown
  split
  · rename_i hharmless
    rcases isHarmless_iff.mp hharmless with halnum | hhyphen | hunderscore
    · exact absurd (.inl halnum) h
    · exact absurd (.inr hhyphen) h
    · exact hunderscore
  · rfl

theorem isBlurred_shown_iff : IsBlurred (shown x) ↔ IsBlurred x := by
  by_cases hx : IsBlurred x
  · rw [shown_of_isBlurred hx]
    exact iff_of_true isBlurred_underscore hx
  · rw [shown_of_not_isBlurred hx]

theorem shown_eq_shown_iff : shown x = shown y ↔ Alike x y := by
  constructor
  · intro h
    by_cases hx : IsBlurred x
    · exact .inr ⟨hx, isBlurred_shown_iff.mp (h ▸ isBlurred_shown_iff.mpr hx)⟩
    · have hy : ¬ IsBlurred y := mt isBlurred_shown_iff.mpr (h ▸ mt isBlurred_shown_iff.mp hx)
      rw [shown_of_not_isBlurred hx, shown_of_not_isBlurred hy] at h
      exact .inl h
  · rintro (rfl | ⟨hx, hy⟩)
    · rfl
    · rw [shown_of_isBlurred hx, shown_of_isBlurred hy]

example : Alike ' ' '_' ∧ ¬ Alike '-' '_' := by decide

/-- The text that the stem of a submission's files shows. -/
def signature (name author : String) : List Char :=
  meant name ++ '_' :: meant author

theorem toList_stem_eq_map (name author : String) :
    (stem name author).toList = (signature name author).map shown := by
  rw [toList_stem, toList_sanitize, toList_sanitize, signature, List.map_append, List.map_cons]
  rfl

/-- Submissions share the stem of their files if one is like the other in each character. -/
theorem stem_eq_iff :
    stem name author = stem name' author' ↔
      List.Forall₂ Alike (signature name author) (signature name' author') := by
  rw [← String.toList_inj, toList_stem_eq_map, toList_stem_eq_map, ← List.forall₂_eq_eq_eq,
    List.forall₂_map_left_iff, List.forall₂_map_right_iff]
  simp only [shown_eq_shown_iff]

/-- A name may go on into that of the author. -/
example : stem "imp_ada" "eve" = stem "imp" "ada_eve" := by decide +kernel

/-! ## Names that are told apart -/

/-- A part of a file name that is all letters, digits and hyphens. -/
def IsPlain (part : String) : Prop :=
  ∀ x ∈ meant part, ¬ IsBlurred x

theorem eq_of_map_shown (h : cs.map shown = ds) (hds : ∀ x ∈ ds, ¬ IsBlurred x) : cs = ds := by
  rw [← h]
  refine ((List.map_congr_left fun x hx => ?_).trans (List.map_id cs)).symm
  have hshown := hds (shown x) (h ▸ List.mem_map_of_mem hx)
  exact shown_of_not_isBlurred (mt isBlurred_shown_iff.mpr hshown)

theorem map_shown_meant (h : IsPlain part) : (meant part).map shown = meant part :=
  (List.map_congr_left fun x hx => shown_of_not_isBlurred (h x hx)).trans (List.map_id _)

/-- In a plain signature, the underscore stands between the name and the author only. -/
theorem meant_eq_of_stem_eq (hname : IsPlain name) (hauthor : IsPlain author)
    (h : stem name author = stem name' author') :
    meant name' = meant name ∧ meant author' = meant author := by
  rw [← String.toList_inj, toList_stem, toList_stem, toList_sanitize, toList_sanitize,
    toList_sanitize, toList_sanitize, map_shown_meant hname, map_shown_meant hauthor,
    List.append_cons_inj_of_notMem (fun hmem => hname _ hmem isBlurred_underscore)
      (fun hmem => hauthor _ hmem isBlurred_underscore)] at h
  exact ⟨eq_of_map_shown h.1.symm hname, eq_of_map_shown h.2.2.symm hauthor⟩

/-- A character that is shown like the given one, and is another if that is blurred. -/
def double (x : Char) : Char :=
  if x = '_' then '.' else shown x

theorem shown_double (x : Char) : shown (double x) = shown x := by
  unfold double
  split
  · rename_i hx
    rw [hx]
    rfl
  · exact shown_of_isHarmless (isHarmless_shown x)

theorem isBlank_double (x : Char) : isBlank (double x) = false := by
  unfold double
  split
  · rfl
  · exact isBlank_of_isHarmless (isHarmless_shown x)

theorem double_ne (h : IsBlurred x) : double x ≠ x := by
  unfold double
  split
  · rename_i hx
    rw [hx]
    decide
  · rename_i hx
    rw [shown_of_isBlurred h]
    exact Ne.symm hx

/-- A part of a file name that is shown like the given one. -/
def doublePart (part : String) : String :=
  String.ofList ((meant part).map double)

theorem meant_doublePart (part : String) : meant (doublePart part) = (meant part).map double := by
  have hlist : (doublePart part).toList = (meant part).map double := String.toList_ofList
  rw [meant_of_not_isBlank, hlist]
  · rw [hlist]
    exact mt List.map_eq_nil_iff.mp (meant_ne_nil part)
  · rw [hlist]
    exact List.forall_mem_map.mpr fun x _ => isBlank_double x

theorem sanitize_doublePart (part : String) : sanitize (doublePart part) = sanitize part := by
  rw [← String.toList_inj, toList_sanitize, toList_sanitize, meant_doublePart, List.map_map]
  exact List.map_congr_left fun x _ => shown_double x

theorem isPlain_of_meant_doublePart (h : meant (doublePart part) = meant part) : IsPlain part := by
  rw [meant_doublePart] at h
  have hdouble := List.map_inj_left.mp (h.trans (List.map_id (meant part)).symm)
  exact fun x hx hblurred => double_ne hblurred (hdouble x hx)

/-! ## Captures -/

/-- What an archive is told about a submission: the bytes of its program, or why it was refused. -/
structure Capture where
  name : String
  author : String
  source : String
  verdict : Except String (List UInt8)

/-- Keeps what is told. Tells the path of the source. -/
def keep (a : Archive) (d : Disk) (c : Capture) : Except FileError String × Disk :=
  match c.verdict with
  | .ok bytes => a.keepAccepted d c.name c.author c.source bytes
  | .error reason => a.keepRefused d c.name c.author c.source reason

/-- Keeps one after the other, whether or not this succeeds. -/
def keepAll (a : Archive) (d : Disk) (cs : List Capture) : Disk :=
  cs.foldl (fun d c => (a.keep d c).2) d

namespace Capture

def stem (c : Capture) : String :=
  Archive.stem c.name c.author

def directory (c : Capture) (a : Archive) : String :=
  if c.verdict.isOk then a.directory else a.refusedDirectory

/-- The endings of the files and what is in them. -/
def contents (c : Capture) : List (String × ByteArray) :=
  match c.verdict with
  | .ok bytes => [(".src", (acceptedText c.author c.source).toUTF8), (".bin", ⟨bytes.toArray⟩)]
  | .error reason => [(".src", (refusedText c.author c.source reason).toUTF8)]

def path (c : Capture) (a : Archive) (ending : String) : String :=
  Path.join (c.directory a) (c.stem ++ ending)

/-- The files are on a disk. -/
def Stored (c : Capture) (a : Archive) (d : Disk) : Prop :=
  ∀ f ∈ c.contents, d.readBytes (c.path a f.1) = .ok f.2

/-- Both are accepted or both refused, and no file name tells them apart. -/
def Namesake (c c' : Capture) : Prop :=
  c.verdict.isOk = c'.verdict.isOk ∧
    List.Forall₂ Alike (signature c.name c.author) (signature c'.name c'.author)

variable {a : Archive} {d : Disk} {c c' : Capture} {f f' : String × ByteArray}

theorem namesake_iff :
    c.Namesake c' ↔ c.verdict.isOk = c'.verdict.isOk ∧ c.stem = c'.stem := by
  rw [Namesake, stem, stem, stem_eq_iff]

theorem fst_of_mem_contents (h : f ∈ c.contents) : f.1 = ".src" ∨ f.1 = ".bin" := by
  unfold contents at h
  split at h <;> simp only [List.mem_cons, List.not_mem_nil, or_false] at h
  · rcases h with rfl | rfl
    · exact .inl rfl
    · exact .inr rfl
  · exact .inl (congrArg Prod.fst h)

theorem isName_of_mem_contents (h : f ∈ c.contents) : Path.IsName (c.stem ++ f.1) := by
  rcases fst_of_mem_contents h with hending | hending <;> rw [hending]
  · exact isName_stem _ _ _ (by decide) (by decide)
  · exact isName_stem _ _ _ (by decide) (by decide)

/-- Endings are of one length, so that they are told from stems. -/
theorem stem_eq_of_entry_eq (hf : f ∈ c.contents) (hf' : f' ∈ c'.contents)
    (h : c.stem ++ f.1 = c'.stem ++ f'.1) : c.stem = c'.stem := by
  have hlength {c : Capture} {f} (hf : f ∈ c.contents) : f.1.toList.length = 4 := by
    rcases fst_of_mem_contents hf with hending | hending <;> rw [hending] <;> rfl
  rw [← String.toList_inj, String.toList_append, String.toList_append] at h
  exact String.toList_inj.mp
    (List.append_inj_left' h ((hlength hf).trans (hlength hf').symm))

/-! ### Places -/

/-- No directory is both that of the archive and the one for the refused. -/
theorem isOk_eq_of_houses {place : List String} (h : d.Houses (c.directory a) place)
    (h' : d.Houses (c'.directory a) place) : c.verdict.isOk = c'.verdict.isOk := by
  have hapart (hkept : d.Houses a.directory place)
      (hrefused : d.Houses a.refusedDirectory place) : False := by
    obtain ⟨parent, hparent, hplace⟩ := exists_parent_of_houses hrefused
    rw [hparent.unique hkept] at hplace
    simp at hplace
  unfold directory at h h'
  split at h <;> split at h' <;> rename_i hc hc'
  · exact hc.trans hc'.symm
  · exact (hapart h h').elim
  · exact (hapart h' h).elim
  · rw [eq_false_of_ne_true hc, eq_false_of_ne_true hc']

theorem place_ne_of_not_namesake (hne : ¬ c.Namesake c') {place place' : List String}
    (h : d.Houses (c.directory a) place) (h' : d.Houses (c'.directory a) place')
    (hf : f ∈ c.contents) (hf' : f' ∈ c'.contents) :
    place ++ [c.stem ++ f.1] ≠ place' ++ [c'.stem ++ f'.1] := by
  intro heq
  obtain ⟨rfl, hentry⟩ := List.append_inj' heq
    (List.length_singleton.trans List.length_singleton.symm)
  exact hne (namesake_iff.mpr
    ⟨isOk_eq_of_houses h h', stem_eq_of_entry_eq hf hf' (List.singleton_inj.mp hentry)⟩)

/-! ### Steps and runs -/

theorem filed_keep (a : Archive) (d : Disk) (c : Capture) :
    (makeDirectories d (c.directory a)).1.Filed (c.directory a)
      (c.contents.map fun f => c.stem ++ f.1) (a.keep d c).2 := by
  obtain ⟨name, author, source, verdict⟩ := c
  cases verdict with
  | error reason => exact filed_keepRefused a d name author source reason
  | ok bytes => exact filed_keepAccepted a d name author source bytes

theorem stored_of_keep {path : String} (h : (a.keep d c).1 = .ok path) :
    path = c.path a ".src" ∧ c.Stored a (a.keep d c).2 := by
  obtain ⟨name, author, source, verdict⟩ := c
  cases verdict with
  | error reason =>
      obtain ⟨rfl, htext⟩ := readText_of_keepRefused h
      exact ⟨rfl, List.forall_mem_singleton.mpr (Disk.readBytes_of_readText htext)⟩
  | ok bytes =>
      obtain ⟨hpath, hsource, hbytes⟩ := kept_of_fst_keepAccepted h
      rw [base, ← Path.join_append] at hsource hbytes
      exact ⟨hpath, List.forall_mem_cons.mpr
        ⟨Disk.readBytes_of_readText hsource, List.forall_mem_singleton.mpr hbytes⟩⟩

/-- What is stored stays when another is kept that is no namesake. -/
theorem Stored.keep (h : c.Stored a d) (hne : ¬ c.Namesake c') : c.Stored a (a.keep d c').2 := by
  intro f hf
  have hread := (Disk.grown_makeDirectories d (c'.directory a)).readBytes (h f hf)
  obtain ⟨q, hq, -⟩ := Disk.readBytes_eq_ok_iff.mp hread
  obtain ⟨place, hplace, rfl⟩ := Disk.exists_houses_of_locate (isName_of_mem_contents hf) hq
  refine (filed_keep a d c').readBytes_of_elsewhere hq hread fun place' hplace' entry hentry => ?_
  obtain ⟨f', hf', rfl⟩ := List.mem_map.mp hentry
  exact place_ne_of_not_namesake hne hplace hplace' hf hf'

theorem Stored.keepAll {later : List Capture} (h : c.Stored a d)
    (hlater : ∀ c' ∈ later, ¬ c.Namesake c') : c.Stored a (a.keepAll d later) := by
  induction later generalizing d with
  | nil => exact h
  | cons c' later ih =>
      obtain ⟨hne, hlater⟩ := List.forall_mem_cons.mp hlater
      exact ih (h.keep hne) hlater

theorem Stored.load (h : c.Stored a d) {ws : List Word}
    (hverdict : c.verdict = .ok (Bytecode.encode ws)) : load d (c.path a ".bin") = .ok ws := by
  refine load_of_readBytes (h (".bin", _) ?_)
  rw [contents, hverdict]
  exact List.mem_cons_of_mem _ List.mem_cons_self

/-! ### Paths -/

theorem join_directory_ne {entry entry' : String} (h : Path.IsName entry)
    (h' : Path.IsName entry') :
    Path.join a.directory entry ≠ Path.join a.refusedDirectory entry' := by
  obtain ⟨front, -, hkept⟩ := Path.exists_names_join a.directory
  obtain ⟨front', hdir, hrefused⟩ := Path.exists_names_join a.refusedDirectory
  have hfront : front' = front ++ ["invalid"] := by
    rw [refusedDirectory, hkept _ isName_invalid] at hdir
    rcases hdir with hdir | hdir
    · exact hdir.symm
    · have hlast := List.singleton_inj.mp (List.append_inj_right' hdir rfl)
      exact absurd hlast (by decide)
  intro heq
  have hnames := congrArg Path.names heq
  rw [hkept _ h, hrefused _ h', hfront] at hnames
  have hlength := congrArg List.length hnames
  simp at hlength

theorem path_eq_iff : c'.path a ".src" = c.path a ".src" ↔ c.Namesake c' := by
  have hname (c : Capture) : Path.IsName (c.stem ++ ".src") :=
    isName_stem _ _ _ (by decide) (by decide)
  rw [namesake_iff]
  unfold path directory
  cases hc : c.verdict.isOk <;> cases hc' : c'.verdict.isOk
  · rw [Path.join_right_inj, String.append_left_inj, and_iff_right rfl, eq_comm]
  · exact iff_of_false (join_directory_ne (hname c') (hname c)) nofun
  · exact iff_of_false (join_directory_ne (hname c) (hname c')).symm nofun
  · rw [Path.join_right_inj, String.append_left_inj, and_iff_right rfl, eq_comm]

theorem path_eq_of_namesake (h : c.Namesake c') (ending : String) :
    c'.path a ending = c.path a ending := by
  obtain ⟨hkind, hstem⟩ := namesake_iff.mp h
  rw [path, path, directory, directory, hkind, hstem]

/-! ### Namesakes -/

/-- Of two namesakes that are both stored, nothing differs. -/
theorem Stored.contents_eq (h : c.Stored a d) (h' : c'.Stored a d) (hsame : c.Namesake c') :
    c.contents = c'.contents := by
  have hread {ending : String} {old new : ByteArray} (hold : (ending, old) ∈ c.contents)
      (hnew : (ending, new) ∈ c'.contents) : old = new := by
    have hpath := h' _ hnew
    rw [path_eq_of_namesake hsame] at hpath
    exact Except.ok.inj ((h _ hold).symm.trans hpath)
  have hkind := hsame.1
  obtain ⟨name, author, source, reason | bytes⟩ := c <;>
    obtain ⟨name', author', source', reason' | bytes'⟩ := c'
  · have htext := hread List.mem_cons_self List.mem_cons_self
    exact congrArg (fun text => [(".src", text)]) htext
  · cases hkind
  · cases hkind
  · have htext := hread List.mem_cons_self List.mem_cons_self
    have hbytes := hread (List.mem_cons_of_mem _ List.mem_cons_self)
      (List.mem_cons_of_mem _ List.mem_cons_self)
    exact congrArg₂ (fun text bytes => [(".src", text), (".bin", bytes)]) htext hbytes

/-- A namesake takes the place of what was stored. -/
theorem stored_iff_of_namesake (hsame : c.Namesake c') (h' : c'.Stored a d) :
    c.Stored a d ↔ c.contents = c'.contents := by
  refine ⟨fun h => h.contents_eq h' hsame, fun heq f hf => ?_⟩
  rw [← path_eq_of_namesake hsame]
  exact h' f (heq ▸ hf)

theorem namesakes_meant_iff :
    (∀ c', c.Namesake c' → meant c'.name = meant c.name ∧ meant c'.author = meant c.author) ↔
      IsPlain c.name ∧ IsPlain c.author := by
  constructor
  · intro h
    let other : Capture := ⟨doublePart c.name, doublePart c.author, c.source, c.verdict⟩
    have hstem : c.stem = other.stem := by
      rw [stem, stem, Archive.stem, Archive.stem, sanitize_doublePart, sanitize_doublePart]
    obtain ⟨hname, hauthor⟩ := h other (namesake_iff.mpr ⟨rfl, hstem⟩)
    exact ⟨isPlain_of_meant_doublePart hname, isPlain_of_meant_doublePart hauthor⟩
  · rintro ⟨hname, hauthor⟩ c' h
    exact meant_eq_of_stem_eq hname hauthor (namesake_iff.mp h).2

end Capture

/-- What was kept of a submission stays in the archive, whatever else is kept or refused, until a
namesake comes. It gets the same path, and takes the place of what was there. All namesakes of a
submission have its name and its author exactly if these are letters, digits and hyphens only. -/
theorem kept_until_namesake {a : Archive} {d : Disk} {c : Capture} {path : String}
    {later : List Capture} (hkeep : (a.keep d c).1 = .ok path)
    (hlater : ∀ c' ∈ later, ¬ c.Namesake c') :
    let after := a.keepAll (a.keep d c).2 later
    (path = c.path a ".src" ∧ c.Stored a after ∧
      ∀ ws, c.verdict = .ok (Bytecode.encode ws) → load after (c.path a ".bin") = .ok ws) ∧
    (∀ c' path', (a.keep after c').1 = .ok path' →
      (path' = path ↔ c.Namesake c') ∧ c'.Stored a (a.keep after c').2 ∧
      (c.Stored a (a.keep after c').2 ↔ (c.Namesake c' → c.contents = c'.contents))) ∧
    ((∀ c', c.Namesake c' → meant c'.name = meant c.name ∧ meant c'.author = meant c.author) ↔
      IsPlain c.name ∧ IsPlain c.author) := by
  obtain ⟨rfl, hstored⟩ := Capture.stored_of_keep hkeep
  have hafter := hstored.keepAll hlater
  refine ⟨⟨rfl, hafter, fun ws => hafter.load⟩, fun c' path' hkeep' => ?_,
    Capture.namesakes_meant_iff⟩
  obtain ⟨rfl, hstored'⟩ := Capture.stored_of_keep hkeep'
  refine ⟨Capture.path_eq_iff, hstored', ?_⟩
  by_cases hsame : c.Namesake c'
  · rw [Capture.stored_iff_of_namesake hsame hstored', forall_prop_of_true hsame]
  · exact iff_of_true (hafter.keep hsame) fun h => absurd h hsame

/-- Neither another author's program nor a refused one of the same name makes a difference. -/
theorem kept_until_namesake_others :
    ∃ d, programs.keepAccepted .empty "worm" "ada" "jump 0" (Bytecode.encode [268435456]) =
        (.ok "programs/worm_ada.src", d) ∧
      load (programs.keepAll d
        [⟨"worm", "eve", "nop", .ok (Bytecode.encode [Instruction.noop.encode])⟩,
          ⟨"worm", "ada", "copy 0 to 1", .error "is simple worm"⟩]) "programs/worm_ada.bin" =
        .ok [268435456] := by
  have hbase : programs.base "worm" "ada" = "programs/worm_ada" := by decide +kernel
  obtain ⟨d, hkeep⟩ : ∃ d, programs.keepAccepted .empty "worm" "ada" "jump 0"
      (Bytecode.encode [268435456]) = (.ok (programs.base "worm" "ada" ++ ".src"), d) :=
    exists_keepAccepted makeDirectories_programs
      (hbase ▸ accepts_opened "worm_ada.src" (by simp) (by decide +kernel))
      (hbase ▸ accepts_opened "worm_ada.bin" (by simp) (by decide +kernel)) _ _
  let c : Capture := ⟨"worm", "ada", "jump 0", .ok (Bytecode.encode [268435456])⟩
  have hc : programs.keep .empty c = (.ok (programs.base "worm" "ada" ++ ".src"), d) := hkeep
  have heve : ¬ c.Namesake
      ⟨"worm", "eve", "nop", .ok (Bytecode.encode [Instruction.noop.encode])⟩ :=
    fun h => absurd (Capture.namesake_iff.mp h).2 (by decide +kernel)
  have hrefused : ¬ c.Namesake ⟨"worm", "ada", "copy 0 to 1", .error "is simple worm"⟩ := nofun
  obtain ⟨⟨-, -, hload⟩, -⟩ := kept_until_namesake (congrArg Prod.fst hc)
    (List.forall_mem_cons.mpr ⟨heve, List.forall_mem_singleton.mpr hrefused⟩)
  rw [hc] at hload
  have hsource : programs.base "worm" "ada" ++ ".src" = "programs/worm_ada.src" := by decide +kernel
  have hbytes : c.path programs ".bin" = "programs/worm_ada.bin" := by decide +kernel
  exact ⟨d, hsource ▸ hkeep, hbytes ▸ hload [268435456] rfl⟩

/-- A program is lost to one by another author. -/
theorem archived_program_replaced :
    ∃ path d d', programs.keepAccepted .empty "imp" "ada b" "jump 0"
        (Bytecode.encode [268435456]) = (.ok path, d) ∧
      programs.keepAccepted d "imp" "ada_b" "nop" (Bytecode.encode [Instruction.noop.encode]) =
        (.ok path, d') ∧
      trim "ada b".toList ≠ [] ∧ trim "ada_b".toList ≠ [] ∧
      trim "ada b".toList ≠ trim "ada_b".toList ∧
      load d "programs/imp_ada_b.bin" = .ok [268435456] ∧
      load d' "programs/imp_ada_b.bin" = .ok [Instruction.noop.encode] ∧
      Instruction.noop.encode ≠ 268435456 := by
  have hbase : programs.base "imp" "ada b" = "programs/imp_ada_b" := by decide +kernel
  have hbase' : programs.base "imp" "ada_b" = "programs/imp_ada_b" := by decide +kernel
  have hsource : opened.Accepts "programs/imp_ada_b.src" :=
    accepts_opened "imp_ada_b.src" (by simp) (by decide +kernel)
  have hbytes : opened.Accepts "programs/imp_ada_b.bin" :=
    accepts_opened "imp_ada_b.bin" (by simp) (by decide +kernel)
  obtain ⟨d, hkeep⟩ : ∃ d, programs.keepAccepted .empty "imp" "ada b" "jump 0"
      (Bytecode.encode [268435456]) = (.ok (programs.base "imp" "ada b" ++ ".src"), d) :=
    exists_keepAccepted makeDirectories_programs (hbase ▸ hsource) (hbase ▸ hbytes) _ _
  have hfiled := filed_keepAccepted programs .empty "imp" "ada b" "jump 0"
    (Bytecode.encode [268435456])
  rw [makeDirectories_programs, hkeep] at hfiled
  have hhouses : opened.Houses programs.directory ["programs"] := ⟨by decide +kernel, rfl⟩
  have hmade : makeDirectories d programs.directory = (d, none) := by
    rw [makeDirectories, Disk.makeDirectories_of_houses _ _ (hfiled.covers.houses hhouses)]
    · rfl
    · exact Disk.unusable?_eq_none (by simp [programs]) (by decide +kernel) (by decide +kernel)
    · decide +kernel
  obtain ⟨d', hkeep'⟩ : ∃ d', programs.keepAccepted d "imp" "ada_b" "nop"
      (Bytecode.encode [Instruction.noop.encode]) =
        (.ok (programs.base "imp" "ada_b" ++ ".src"), d') :=
    exists_keepAccepted hmade (hbase' ▸ hfiled.accepts hsource) (hbase' ▸ hfiled.accepts hbytes) _ _
  have hkept := (kept_of_keepAccepted hkeep).2.bytes_eq
  have hkept' := (kept_of_keepAccepted hkeep').2.bytes_eq
  rw [hbase] at hkeep hkept
  rw [hbase'] at hkeep' hkept'
  refine ⟨_, d, d', hkeep, hkeep', ?_, ?_, ?_, load_of_readBytes hkept, load_of_readBytes hkept',
    ?_⟩ <;> decide +kernel

end CoreArena.Archive
