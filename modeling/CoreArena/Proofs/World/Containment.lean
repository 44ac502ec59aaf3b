import CoreArena.Disk.Entry
import CoreArena.Proofs.World.Replay

/-! # Archives keep to their directories

Whatever a submission and its author are called, the files about them get harmless names, and an
archive changes nothing on a disk but the entries of these names in its own directories:
`captures_stay_inside`. -/

namespace CoreArena

namespace Disk

variable {d e e' : Disk} {dir : String} {place q : List String} {entries : List String}

/-! ## Putting files into a directory -/

/-- Files were put at some entries of a directory, one after the other, and nothing else was
done. -/
inductive Filed (dir : String) (entries : List String) (d : Disk) : Disk → Prop where
  | refl : Filed dir entries d d
  | put {e : Disk} {place : List String} {entry : String} (h : Filed dir entries d e)
      (hentry : entry ∈ entries) (hhouses : d.Houses dir place)
      (hfree : e.node? (place ++ [entry]) ≠ some .directory) (content : ByteArray) :
      Filed dir entries d (e.put (place ++ [entry]) (.file content))

namespace Filed

theorem covers (h : Filed dir entries d e) : d.Covers e := by
  induction h with
  | refl => exact .refl d
  | put _ _ _ hfree content ih => exact ih.trans (covers_put_file hfree content)

/-- No file makes a directory or takes the place of one. -/
theorem houses_iff (h : Filed dir entries d e) : e.Houses dir place ↔ d.Houses dir place := by
  refine ⟨fun he => ?_, h.covers.houses⟩
  cases h with
  | refl => exact he
  | @put e' place' entry h hentry hhouses hfree content =>
      have hkept := (Filed.put h hentry hhouses hfree content).covers.houses hhouses
      rwa [hkept.unique he]

/-- What has changed are entries of the directory. -/
theorem node_eq_or (h : Filed dir entries d e) (q : List String) :
    e.node? q = d.node? q ∨
      ∃ place, d.Houses dir place ∧ ∃ entry ∈ entries, q = place ++ [entry] := by
  induction h with
  | refl => exact .inl rfl
  | @put e place entry h hentry hhouses hfree content ih =>
      rw [node?_put_file hfree]
      by_cases hq : q = place ++ [entry]
      · exact .inr ⟨place, hhouses, entry, hentry, hq⟩
      · rwa [if_neg hq]

theorem accepts (h : Filed dir entries d e) {path : String} (hpath : d.Accepts path) :
    e.Accepts path := by
  induction h with
  | refl => exact hpath
  | put _ _ _ hfree content ih => exact ih.put_file hfree content

/-- Files that lie elsewhere are read as before. -/
theorem readBytes_of_elsewhere (h : Filed dir entries d e) {path : String} {content : ByteArray}
    (hlocate : d.locate path = .ok q) (hread : d.readBytes path = .ok content)
    (helsewhere : ∀ place, d.Houses dir place → ∀ entry ∈ entries, q ≠ place ++ [entry]) :
    e.readBytes path = .ok content := by
  obtain ⟨q', hq', hnode⟩ := readBytes_eq_ok_iff.mp hread
  cases hlocate.symm.trans hq'
  refine readBytes_eq_ok_iff.mpr ⟨q, h.covers.locate hlocate, ?_⟩
  rcases h.node_eq_or q with hsame | ⟨place, hhouses, entry, hentry, hq⟩
  · rw [hsame, hnode]
  · exact absurd hq (helsewhere place hhouses entry hentry)

/-- Writing to a name that is joined to the directory puts a file there, or does nothing. -/
theorem write (h : Filed dir entries d e) {entry : String} (hentry : entry ∈ entries)
    (hname : Path.IsName entry) (content : ByteArray) :
    Filed dir entries d (Archive.write e (Path.join dir entry) content).1 := by
  unfold Archive.write
  split
  · rename_i hwrite
    obtain ⟨place, hhouses, hfree, rfl⟩ := exists_houses_of_writeBytes hname hwrite
    exact h.put hentry (h.houses_iff.mp hhouses) hfree content
  · exact h

/-- The same of several names in order, up to the first that cannot be written to. -/
theorem inOrder (h : Filed dir entries d e) (writes : List (String × ByteArray))
    (hwrites : ∀ w ∈ writes, w.1 ∈ entries ∧ Path.IsName w.1) :
    Filed dir entries d
      (Archive.inOrder e (writes.map fun w d => Archive.write d (Path.join dir w.1) w.2)).1 := by
  induction writes generalizing e with
  | nil => exact h
  | cons w writes ih =>
      obtain ⟨⟨hentry, hname⟩, hwrites⟩ := List.forall_mem_cons.mp hwrites
      have hfirst := h.write hentry hname w.2
      rw [List.map_cons, Archive.inOrder]
      split
      · rename_i hwrite
        rwa [hwrite] at hfirst
      · rename_i hwrite
        rw [hwrite] at hfirst
        exact ih hfirst hwrites

end Filed

end Disk

namespace Archive

open Source Text

variable {c : Char} {part name author path : String}

/-! ## File names -/

theorem isHarmless_iff : isHarmless c = true ↔ c.isAlphanum = true ∨ c = '-' ∨ c = '_' := by
  simp [isHarmless, or_assoc]

theorem isBlank_of_isHarmless (h : isHarmless c = true) : isBlank c = false := by
  by_contra hblank
  rw [Bool.not_eq_false] at hblank
  rcases isHarmless_iff.mp h with halnum | rfl | rfl
  · rw [not_isAlphanum_of_isBlank hblank] at halnum
    cases halnum
  · cases hblank
  · cases hblank

/-- The text that a part of a file name stands for. -/
def meant (part : String) : List Char :=
  if trim part.toList = [] then "anonymous".toList else trim part.toList

/-- How a character is shown in a file name. -/
def shown (c : Char) : Char :=
  if isHarmless c then c else '_'

theorem meant_ne_nil (part : String) : meant part ≠ [] := by
  unfold meant
  split
  · decide +kernel
  · assumption

theorem toList_sanitize (part : String) : (sanitize part).toList = (meant part).map shown := by
  unfold sanitize meant
  cases htrim : trim part.toList with
  | nil => decide +kernel
  | cons c cs =>
      rw [if_neg (List.cons_ne_nil c cs)]
      exact String.toList_ofList

theorem isHarmless_shown (c : Char) : isHarmless (shown c) = true := by
  unfold shown
  split
  · assumption
  · rfl

theorem shown_of_isHarmless (h : isHarmless c = true) : shown c = c :=
  if_pos h

theorem isHarmless_of_mem_sanitize (h : c ∈ (sanitize part).toList) : isHarmless c = true := by
  rw [toList_sanitize] at h
  obtain ⟨c', -, rfl⟩ := List.mem_map.mp h
  exact isHarmless_shown c'

theorem toList_sanitize_ne_nil (part : String) : (sanitize part).toList ≠ [] := by
  rw [toList_sanitize]
  exact mt List.map_eq_nil_iff.mp (meant_ne_nil part)

theorem meant_of_not_isBlank (hne : part.toList ≠ [])
    (h : ∀ c ∈ part.toList, isBlank c = false) : meant part = part.toList := by
  have htrim : trim part.toList = part.toList := by
    have hfirst : part.toList.head?.any (!isBlank ·) := by
      rw [List.head?_eq_some_head hne, Option.any_some, h _ (List.head_mem hne)]
      rfl
    have hlast : part.toList.getLast?.any (!isBlank ·) := by
      rw [List.getLast?_eq_some_getLast hne, Option.any_some, h _ (List.getLast_mem hne)]
      rfl
    exact trim_blanks_append Blanks.nil hfirst hlast
  rw [meant, htrim, if_neg hne]

/-- A text of harmless characters is a file name as it is. -/
theorem sanitize_of_isHarmless (hne : part.toList ≠ [])
    (h : ∀ c ∈ part.toList, isHarmless c = true) : sanitize part = part := by
  rw [← String.toList_inj, toList_sanitize,
    meant_of_not_isBlank hne fun c hc => isBlank_of_isHarmless (h c hc)]
  exact (List.map_congr_left fun c hc => shown_of_isHarmless (h c hc)).trans (List.map_id _)

theorem sanitize_sanitize (part : String) : sanitize (sanitize part) = sanitize part :=
  sanitize_of_isHarmless (toList_sanitize_ne_nil part) fun _ => isHarmless_of_mem_sanitize

theorem toList_stem (name author : String) :
    (stem name author).toList = (sanitize name).toList ++ '_' :: (sanitize author).toList := by
  rw [stem, String.toList_append, String.toList_append, List.append_assoc]
  rfl

theorem isHarmless_of_mem_stem (h : c ∈ (stem name author).toList) : isHarmless c = true := by
  rw [toList_stem, List.mem_append, List.mem_cons] at h
  rcases h with h | rfl | h
  · exact isHarmless_of_mem_sanitize h
  · rfl
  · exact isHarmless_of_mem_sanitize h

/-- A stem with an ending names an entry of a directory. -/
theorem isName_stem (name author ending : String) (hslash : '/' ∉ ending.toList)
    (hlength : 2 < ending.length) : Path.IsName (stem name author ++ ending) := by
  have hlong : 2 < (stem name author ++ ending).length := by
    rw [String.length_append]
    omega
  obtain ⟨hidle, hparent⟩ := Path.not_isIdle_of_length hlong
  refine ⟨fun hmem => ?_, hidle, hparent⟩
  rw [String.toList_append, List.mem_append] at hmem
  rcases hmem with hmem | hmem
  · have := isHarmless_of_mem_stem hmem
    cases this
  · exact hslash hmem

/-! ## What an archive does -/

theorem isName_invalid : Path.IsName "invalid" := by
  obtain ⟨hidle, hparent⟩ := Path.not_isIdle_of_length (show 2 < "invalid".length by decide)
  exact ⟨by decide, hidle, hparent⟩

variable {a : Archive} {d : Disk}

theorem inOrder_makeDirectories (d : Disk) (dir : String)
    (steps : List (Disk → Disk × Option FileError)) :
    inOrder d ((makeDirectories · dir) :: steps) = makeDirectories d dir ∨
      inOrder d ((makeDirectories · dir) :: steps) = inOrder (makeDirectories d dir).1 steps := by
  rw [inOrder]
  split
  · rename_i hmake
    exact .inl hmake.symm
  · rename_i hmake
    exact .inr (by rw [hmake])

/-- What is done to keep a refused program. -/
def refusing (a : Archive) (name author source reason : String) :
    List (Disk → Disk × Option FileError) :=
  [(makeDirectories · a.refusedDirectory),
    (write · (Path.join a.refusedDirectory (stem name author ++ ".src"))
      (refusedText author source reason).toUTF8)]

theorem keepRefused_eq (a : Archive) (d : Disk) (name author source reason : String) :
    a.keepRefused d name author source reason =
      ((inOrder d (a.refusing name author source reason)).2.elim
          (.ok (Path.join a.refusedDirectory (stem name author ++ ".src"))) .error,
        (inOrder d (a.refusing name author source reason)).1) :=
  rfl

/-- Once its directory is there, an archive writes at most two files of a submission into it. -/
theorem filed_keepAccepted (a : Archive) (d : Disk) (name author source : String)
    (bytes : List UInt8) :
    (makeDirectories d a.directory).1.Filed a.directory
      [stem name author ++ ".src", stem name author ++ ".bin"]
      (a.keepAccepted d name author source bytes).2 := by
  rw [keepAccepted_eq, keeping]
  dsimp only
  rcases inOrder_makeDirectories d a.directory
    [(write · (a.base name author ++ ".src") (acceptedText author source).toUTF8),
      (write · (a.base name author ++ ".bin") ⟨bytes.toArray⟩)] with hrun | hrun
  · rw [hrun]
    exact .refl
  · rw [hrun, base, ← Path.join_append, ← Path.join_append]
    have hsource := isName_stem name author ".src" (by decide) (by decide)
    have hbytes := isName_stem name author ".bin" (by decide) (by decide)
    exact Disk.Filed.refl.inOrder
      [(stem name author ++ ".src", (acceptedText author source).toUTF8),
        (stem name author ++ ".bin", ⟨bytes.toArray⟩)]
      (List.forall_mem_cons.mpr ⟨⟨List.mem_cons_self, hsource⟩,
        List.forall_mem_singleton.mpr ⟨List.mem_cons_of_mem _ List.mem_cons_self, hbytes⟩⟩)

theorem filed_keepRefused (a : Archive) (d : Disk) (name author source reason : String) :
    (makeDirectories d a.refusedDirectory).1.Filed a.refusedDirectory [stem name author ++ ".src"]
      (a.keepRefused d name author source reason).2 := by
  rw [keepRefused_eq, refusing]
  dsimp only
  rcases inOrder_makeDirectories d a.refusedDirectory
    [(write · (Path.join a.refusedDirectory (stem name author ++ ".src"))
      (refusedText author source reason).toUTF8)] with hrun | hrun
  · rw [hrun]
    exact .refl
  · rw [hrun]
    have hname := isName_stem name author ".src" (by decide) (by decide)
    exact Disk.Filed.refl.inOrder
      [(stem name author ++ ".src", (refusedText author source reason).toUTF8)]
      (List.forall_mem_singleton.mpr ⟨List.mem_cons_self, hname⟩)

theorem kept_of_fst_keepAccepted {source : String} {bytes : List UInt8}
    (h : (a.keepAccepted d name author source bytes).1 = .ok path) :
    path = Path.join a.directory (stem name author ++ ".src") ∧
      Kept a name author source bytes (a.keepAccepted d name author source bytes).2 := by
  rw [Path.join_append]
  exact kept_of_keepAccepted (Prod.ext h rfl)

/-- What was kept of a refused program is read back. -/
theorem readText_of_keepRefused {source reason : String}
    (h : (a.keepRefused d name author source reason).1 = .ok path) :
    path = Path.join a.refusedDirectory (stem name author ++ ".src") ∧
      (a.keepRefused d name author source reason).2.readText path =
        .ok (refusedText author source reason) := by
  rw [keepRefused_eq] at h ⊢
  cases hrun : inOrder d (a.refusing name author source reason) with
  | mk last failure =>
      rw [hrun] at h
      cases failure with
      | some e => cases h
      | none =>
          obtain rfl := Except.ok.inj h
          obtain ⟨d₁, -, hrest⟩ := inOrder_cons_eq_none hrun
          obtain ⟨d₂, hwrite, hrest⟩ := inOrder_cons_eq_none hrest
          cases inOrder_nil_eq_none hrest
          exact ⟨rfl, Disk.readText_of_writeText (write_eq_none hwrite)⟩

/-- The directory for the refused lies in that of the archive. -/
theorem exists_parent_of_houses {place : List String} (h : d.Houses a.refusedDirectory place) :
    ∃ parent, d.Houses a.directory parent ∧ place = parent ++ ["invalid"] :=
  ((Disk.walk_join_eq_ok_iff isName_invalid).mp h.walk_eq).2

/-- Whatever a submission and its author are called, the stem of its file names consists of ASCII
letters, digits, hyphens and underscores, with one underscore at least. All that changes on a disk
when it is kept, once the directory is there, are the entries of these names in the directory of the
archive, or in the one for the refused inside it. If nothing goes wrong, the files are there. -/
theorem captures_stay_inside (a : Archive) (name author : String) :
    (stem name author ≠ "" ∧ '_' ∈ (stem name author).toList ∧
      ∀ c ∈ (stem name author).toList, c.isAlphanum = true ∨ c = '-' ∨ c = '_') ∧
    (∀ part, sanitize (sanitize part) = sanitize part) ∧
    (∀ d source bytes,
      let opened := (makeDirectories d a.directory).1
      let after := a.keepAccepted d name author source bytes
      d.Grown opened ∧
      (∀ q, after.2.node? q = opened.node? q ∨ ∃ place, opened.Houses a.directory place ∧
        ∃ ending ∈ [".src", ".bin"], q = place ++ [stem name author ++ ending]) ∧
      ∀ path, after.1 = .ok path →
        path = Path.join a.directory (stem name author ++ ".src") ∧
          Kept a name author source bytes after.2) ∧
    ∀ d source reason,
      let opened := (makeDirectories d a.refusedDirectory).1
      let after := a.keepRefused d name author source reason
      d.Grown opened ∧
      (∀ q, after.2.node? q = opened.node? q ∨ ∃ parent, opened.Houses a.directory parent ∧
        q = parent ++ ["invalid", stem name author ++ ".src"]) ∧
      ∀ path, after.1 = .ok path →
        path = Path.join a.refusedDirectory (stem name author ++ ".src") ∧
          after.2.readText path = .ok (refusedText author source reason) := by
  have hunderscore : '_' ∈ (stem name author).toList := by simp [toList_stem]
  refine ⟨⟨?_, hunderscore, fun c hc => isHarmless_iff.mp (isHarmless_of_mem_stem hc)⟩,
    sanitize_sanitize, fun d source bytes => ?_, fun d source reason => ?_⟩
  · intro hempty
    rw [hempty] at hunderscore
    cases hunderscore
  · refine ⟨Disk.grown_makeDirectories d a.directory, fun q => ?_,
      fun path => kept_of_fst_keepAccepted⟩
    refine ((filed_keepAccepted a d name author source bytes).node_eq_or q).imp_right ?_
    rintro ⟨place, hhouses, entry, hentry, rfl⟩
    simp only [List.mem_cons, List.not_mem_nil, or_false] at hentry
    rcases hentry with rfl | rfl
    · exact ⟨place, hhouses, ".src", by decide, rfl⟩
    · exact ⟨place, hhouses, ".bin", by decide, rfl⟩
  · refine ⟨Disk.grown_makeDirectories d a.refusedDirectory, fun q => ?_,
      fun path => readText_of_keepRefused⟩
    refine ((filed_keepRefused a d name author source reason).node_eq_or q).imp_right ?_
    rintro ⟨place, hhouses, entry, hentry, rfl⟩
    obtain ⟨parent, hparent, rfl⟩ := exists_parent_of_houses hhouses
    rw [List.mem_singleton.mp hentry, List.append_assoc]
    exact ⟨parent, hparent, rfl⟩

/-- A name that would lead out of the directory. -/
theorem captures_stay_inside_traversal :
    ∃ path d, programs.keepAccepted .empty "../../etc/passwd" "a b" "nop" [0, 0, 0, 128] =
        (.ok path, d) ∧
      path = "programs/______etc_passwd_a_b.src" ∧
      Kept programs "../../etc/passwd" "a b" "nop" [0, 0, 0, 128] d := by
  have hbase : programs.base "../../etc/passwd" "a b" = "programs/______etc_passwd_a_b" := by
    decide +kernel
  obtain ⟨d, hkeep⟩ : ∃ d, programs.keepAccepted .empty "../../etc/passwd" "a b" "nop"
      [0, 0, 0, 128] = (.ok (programs.base "../../etc/passwd" "a b" ++ ".src"), d) :=
    exists_keepAccepted makeDirectories_programs
      (hbase ▸ accepts_opened "______etc_passwd_a_b.src" (by simp) (by decide +kernel))
      (hbase ▸ accepts_opened "______etc_passwd_a_b.bin" (by simp) (by decide +kernel)) _ _
  obtain ⟨-, -, haccepted, -⟩ := captures_stay_inside programs "../../etc/passwd" "a b"
  obtain ⟨-, -, hresult⟩ := haccepted .empty "nop" [0, 0, 0, 128]
  have hkept := (hresult _ (congrArg Prod.fst hkeep)).2
  rw [hkeep] at hkept
  exact ⟨_, d, hkeep, by rw [hbase]; decide +kernel, hkept⟩

end Archive

end CoreArena
