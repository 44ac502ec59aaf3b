import CoreArena.Disk.Lemmas
import CoreArena.Proofs.Source.Preface
import CoreArena.Source.File
import CoreArena.World.Archive

/-! # Replaying kept programs

The bytes of a kept program are read back as its words. Its source is kept behind a line that names
the author, and this is one line only if the name is: what follows a line feed in the name is read
as part of the program. So the kept source stands for the same words exactly if all that is asides,
or blank lines in front of a program without words: `kept_program_replays`. -/

namespace CoreArena.Archive

open Source Text

/-- What the paths of a kept program begin with. -/
def base (a : Archive) (name author : String) : String :=
  Path.join a.directory (stem name author)

/-- The lines that the name of an author goes on for after its first. -/
def furtherLines (author : String) : List (List Char) :=
  (lines (author.toList ++ ['\n'])).tail

variable {a : Archive} {d d' : Disk} {name author source path : String} {bytes : List UInt8}

/-! ## Files -/

/-- What there is on a disk after a program was kept. -/
structure Kept (a : Archive) (name author source : String) (bytes : List UInt8) (d : Disk) :
    Prop where
  source_eq : d.readText (a.base name author ++ ".src") = .ok (acceptedText author source)
  bytes_eq : d.readBytes (a.base name author ++ ".bin") = .ok ⟨bytes.toArray⟩

theorem write_eq_none {content : ByteArray} (h : write d path content = (d', none)) :
    d.writeBytes path content = .ok d' := by
  unfold write at h
  split at h
  · rename_i hwrite
    cases h
    exact hwrite
  · cases h

theorem inOrder_cons_eq_none {step : Disk → Disk × Option FileError}
    {steps : List (Disk → Disk × Option FileError)} (h : inOrder d (step :: steps) = (d', none)) :
    ∃ next, step d = (next, none) ∧ inOrder next steps = (d', none) := by
  unfold inOrder at h
  split at h
  · cases h
  · rename_i next hstep
    exact ⟨next, hstep, h⟩

theorem inOrder_nil_eq_none (h : inOrder d [] = (d', none)) : d' = d := by
  cases h
  rfl

/-- What is done to keep a program. -/
def keeping (a : Archive) (name author source : String) (bytes : List UInt8) :
    List (Disk → Disk × Option FileError) :=
  [(makeDirectories · a.directory),
    (write · (a.base name author ++ ".src") (acceptedText author source).toUTF8),
    (write · (a.base name author ++ ".bin") ⟨bytes.toArray⟩)]

theorem keepAccepted_eq (a : Archive) (d : Disk) (name author source : String)
    (bytes : List UInt8) :
    a.keepAccepted d name author source bytes =
      ((inOrder d (a.keeping name author source bytes)).2.elim
          (.ok (a.base name author ++ ".src")) .error,
        (inOrder d (a.keeping name author source bytes)).1) :=
  rfl

theorem inOrder_keeping (h : a.keepAccepted d name author source bytes = (.ok path, d')) :
    path = a.base name author ++ ".src" ∧
      inOrder d (a.keeping name author source bytes) = (d', none) := by
  rw [keepAccepted_eq] at h
  cases hrun : inOrder d (a.keeping name author source bytes) with
  | mk last failure =>
      rw [hrun] at h
      cases failure with
      | some e => cases h
      | none =>
          cases h
          exact ⟨rfl, rfl⟩

/-- The source and the bytes lie at different places, so that writing the one keeps the other. -/
theorem kept_of_keepAccepted
    (h : a.keepAccepted d name author source bytes = (.ok path, d')) :
    path = a.base name author ++ ".src" ∧ Kept a name author source bytes d' := by
  obtain ⟨hpath, hrun⟩ := inOrder_keeping h
  obtain ⟨d₁, -, hrun⟩ := inOrder_cons_eq_none hrun
  obtain ⟨d₂, hsource, hrun⟩ := inOrder_cons_eq_none hrun
  obtain ⟨d₃, hbytes, hrun⟩ := inOrder_cons_eq_none hrun
  cases inOrder_nil_eq_none hrun
  replace hsource := write_eq_none hsource
  replace hbytes := write_eq_none hbytes
  have hread := Disk.readBytes_of_writeBytes hsource
  -- Both paths lead somewhere, or neither file had been written.
  obtain ⟨q, hq, -⟩ := Disk.readBytes_eq_ok_iff.mp hread
  obtain ⟨r, hr, -⟩ := Disk.exists_place_of_writeBytes hbytes
  have hqr : q ≠ r :=
    Disk.locate_ne (by decide) (by decide) (by decide) (by decide) (by decide) hq hr
  have hne : d₂.locate (a.base name author ++ ".src") ≠
      d₂.locate (a.base name author ++ ".bin") := by
    rw [hq, hr]
    exact fun heq => hqr (Except.ok.inj heq)
  exact ⟨hpath, Disk.readText_of_readBytes (Disk.readBytes_writeBytes_of_ne hbytes hne hread),
    Disk.readBytes_of_writeBytes hbytes⟩

theorem exists_write (h : d.Accepts path) (content : ByteArray) :
    ∃ d', write d path content = (d', none) ∧ ∀ other, d.Accepts other → d'.Accepts other := by
  obtain ⟨d', hwrite, hothers⟩ := h.exists_writeBytes content
  refine ⟨d', ?_, hothers⟩
  rw [write, hwrite]

theorem inOrder_cons {step : Disk → Disk × Option FileError}
    (steps : List (Disk → Disk × Option FileError)) (h : step d = (d', none)) :
    inOrder d (step :: steps) = inOrder d' steps := by
  rw [inOrder, h]

/-- A program is kept if there is room for its files. -/
theorem exists_keepAccepted (hdirectory : makeDirectories d a.directory = (d', none))
    (hsource : d'.Accepts (a.base name author ++ ".src"))
    (hbytes : d'.Accepts (a.base name author ++ ".bin")) (source : String) (bytes : List UInt8) :
    ∃ last, a.keepAccepted d name author source bytes =
      (.ok (a.base name author ++ ".src"), last) := by
  obtain ⟨e, hwritten, hkeep⟩ := exists_write hsource (acceptedText author source).toUTF8
  obtain ⟨last, hwritten', -⟩ := exists_write (hkeep _ hbytes) ⟨bytes.toArray⟩
  refine ⟨last, ?_⟩
  rw [keepAccepted_eq, keeping, inOrder_cons _ hdirectory, inOrder_cons _ hwritten,
    inOrder_cons _ hwritten', inOrder]
  rfl

theorem load_of_readBytes {ws : List Word}
    (h : d.readBytes path = .ok ⟨(Bytecode.encode ws).toArray⟩) : load d path = .ok ws := by
  rw [load, h]
  dsimp only
  rw [disassembleBytes, Bytecode.decode?_encode]

theorem assembleFile_of_readText {text : String} (h : d.readText path = .ok text) :
    assembleFile d path = assemble text := by
  rw [assembleFile, readFile, h]
  rfl

/-! ## The kept source -/

theorem toList_acceptedText (author source : String) :
    (acceptedText author source).toList =
      "# Author: ".toList ++ (author.toList ++ '\n' :: source.toList) := by
  have htext : acceptedText author source = "# Author: " ++ author ++ "\n" ++ source := rfl
  rw [htext]
  simp only [String.toList_append, List.append_assoc]
  rfl

/-- The kept source is a comment, the rest of the author's name and the source. -/
theorem lines_acceptedText (author source : String) :
    ∃ l, lines (acceptedText author source).toList =
      ("# Author: ".toList ++ l) :: furtherLines author ++ lines source.toList := by
  have hname : lines (author.toList ++ ['\n']) ≠ [] :=
    lines_ne_nil (List.append_ne_nil_of_right_ne_nil _ (List.cons_ne_nil _ _))
  obtain ⟨l, ls, hlines⟩ := List.exists_cons_of_ne_nil hname
  have hrest : lines (author.toList ++ '\n' :: source.toList) =
      l :: (ls ++ lines source.toList) := by
    rw [lines_append, hlines, List.cons_append]
  have hplain : ∀ c ∈ "# Author: ".toList, c ≠ '\n' ∧ c ≠ '\r' := by
    simp
  refine ⟨l, ?_⟩
  rw [toList_acceptedText, lines_append_of_plain hplain hrest, furtherLines, hlines]
  rfl

theorem bytecode_eq_iff {p q : Assembled} : q.bytecode = p.bytecode ↔ q.words = p.words := by
  constructor
  · intro h
    have hdecode := congrArg Bytecode.decode? h
    rw [Assembled.bytecode, Assembled.bytecode, Bytecode.decode?_encode,
      Bytecode.decode?_encode] at hdecode
    exact Option.some.inj hdecode
  · intro h
    rw [Assembled.bytecode, Assembled.bytecode, h]

/-! ## A small archive -/

/-- An archive in a directory that is still to be made. -/
def programs : Archive := ⟨"programs"⟩

/-- A disk with nothing but the directory of the archive. -/
def opened : Disk := Disk.empty.put ["programs"] .directory

theorem makeDirectories_programs :
    makeDirectories .empty programs.directory = (opened, none) := by
  have husable : Disk.unusable? "programs" = none :=
    Disk.unusable?_eq_none (by simp) (by decide +kernel) (by decide +kernel)
  have hplace : Disk.empty.follow "programs" (Path.bareNames "programs") = .ok ["programs"] := by
    rw [Disk.follow, husable]
    decide +kernel
  have hmade : Disk.empty.makeDirectory "programs" = .ok opened := by
    rw [Disk.makeDirectory, hplace]
    rfl
  have hancestors : Path.ancestors "programs" = ["programs"] := by decide +kernel
  rw [programs, makeDirectories, Disk.makeDirectories, if_neg (by decide +kernel), hancestors,
    Disk.makeNested, Disk.ensureDirectory, hmade]
  rfl

theorem accepts_opened (entry : String) (hnul : path.contains '\x00' = false)
    (hpath : path.isEmpty = false ∧ path.utf8ByteSize < Disk.maxPathBytes ∧
      path.endsWith "/" = false ∧
      opened.walk (opened.origin path) (Path.names path) = .ok ["programs", entry]) :
    opened.Accepts path := by
  obtain ⟨hempty, hsize, hfile, hwalk⟩ := hpath
  have hne : ["programs", entry] ≠ ["programs"] := by simp
  refine ⟨hfile, _,
    Disk.locate_of_walk (Disk.unusable?_eq_none hnul hempty hsize) hwalk, ?_⟩
  rw [opened, Disk.node?_put (List.cons_ne_nil _ _), if_neg hne]
  exact ⟨nofun, nofun⟩

/-- A program can be kept whose author goes on for another line, be that a comment or not. -/
theorem exists_keepAccepted_programs {author : String}
    (hauthor : author = "eve\nnop" ∨ author = "eve\n# calm") (source : String)
    (bytes : List UInt8) :
    ∃ d, programs.keepAccepted .empty "imp" author source bytes =
      (.ok (programs.base "imp" author ++ ".src"), d) := by
  obtain rfl | rfl := hauthor
  · have hbase : programs.base "imp" "eve\nnop" = "programs/imp_eve_nop" := by decide +kernel
    refine exists_keepAccepted makeDirectories_programs ?_ ?_ source bytes <;> rw [hbase]
    · exact accepts_opened "imp_eve_nop.src" (by simp) (by decide +kernel)
    · exact accepts_opened "imp_eve_nop.bin" (by simp) (by decide +kernel)
  · have hbase : programs.base "imp" "eve\n# calm" = "programs/imp_eve___calm" := by
      decide +kernel
    refine exists_keepAccepted makeDirectories_programs ?_ ?_ source bytes <;> rw [hbase]
    · exact accepts_opened "imp_eve___calm.src" (by simp) (by decide +kernel)
    · exact accepts_opened "imp_eve___calm.bin" (by simp) (by decide +kernel)

/-! ## Replay -/

/-- A kept program is read back from its bytes, and its source is kept behind a line with the name
of the author. The source assembles to the same bytes again exactly if each further line of that
name is an aside, or is blank and the program has no words. -/
theorem kept_program_replays {p : Assembled} (hsource : assemble source = .ok p)
    (hkeep : a.keepAccepted d name author source p.bytecode = (.ok path, d')) :
    path = a.base name author ++ ".src" ∧
      load d' (a.base name author ++ ".bin") = .ok p.words ∧
      d'.readText path = .ok (acceptedText author source) ∧
      ((∃ b, assembleFile d' path = .ok b ∧ b.bytecode = p.bytecode) ↔
        ∀ line ∈ furtherLines author, isAside line = true ∨ trim line = [] ∧ p.words = []) := by
  obtain ⟨rfl, hkept⟩ := kept_of_keepAccepted hkeep
  refine ⟨rfl, load_of_readBytes hkept.bytes_eq, hkept.source_eq, ?_⟩
  obtain ⟨l, hlines⟩ := lines_acceptedText author source
  have hpreface := exists_assemble_preface_iff hsource hlines
  rw [List.forall_mem_cons, and_iff_right (.inl (isAside_comment _))] at hpreface
  rw [assembleFile_of_readText hkept.source_eq, ← hpreface]
  simp only [bytecode_eq_iff]

/-- A comment in the name of an author makes no difference. -/
theorem kept_program_replays_comment :
    ∃ p path d, assemble "jump 0" = .ok p ∧
      programs.keepAccepted .empty "imp" "eve\n# calm" "jump 0" p.bytecode = (.ok path, d) ∧
      load d (programs.base "imp" "eve\n# calm" ++ ".bin") = .ok p.words ∧
      ∃ b, assembleFile d path = .ok b ∧ b.bytecode = p.bytecode := by
  have hjump : assemble "jump 0" = .ok ⟨[268435456], []⟩ := by decide +kernel
  obtain ⟨d, hkeep⟩ := exists_keepAccepted_programs (.inr rfl) "jump 0"
    (Assembled.bytecode ⟨[268435456], []⟩)
  have hasides : ∀ line ∈ furtherLines "eve\n# calm", isAside line = true := by decide +kernel
  obtain ⟨-, hload, -, hreplay⟩ := kept_program_replays hjump hkeep
  exact ⟨_, _, d, hjump, hkeep, hload, hreplay.mpr fun line hline => .inl (hasides line hline)⟩

/-- A statement in the name of an author becomes part of the program. -/
theorem author_becomes_statement :
    ∃ p path d b, assemble "jump 0" = .ok p ∧
      programs.keepAccepted .empty "imp" "eve\nnop" "jump 0" p.bytecode = (.ok path, d) ∧
      assembleFile d path = .ok b ∧ b.words = Instruction.noop.encode :: p.words := by
  have hjump : assemble "jump 0" = .ok ⟨[268435456], []⟩ := by decide +kernel
  have hkept : assemble (acceptedText "eve\nnop" "jump 0") =
      .ok ⟨[Instruction.noop.encode, 268435456], []⟩ := by decide +kernel
  obtain ⟨d, hkeep⟩ := exists_keepAccepted_programs (.inl rfl) "jump 0"
    (Assembled.bytecode ⟨[268435456], []⟩)
  have hsource := (kept_of_keepAccepted hkeep).2.source_eq
  exact ⟨_, _, d, _, hjump, hkeep, (assembleFile_of_readText hsource).trans hkept, rfl⟩

end CoreArena.Archive
