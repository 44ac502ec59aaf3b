import CoreArena.Disk

/-! Where paths lead, and what writing a file does to the rest of a tree.

A path leads to a place with its last name. A file never takes the place of a directory, so that
every path leads where it led before: what was written is read back, and the other files are read as
before. -/

namespace CoreArena

namespace Path

theorem exists_split_append (cs : List Char) :
    ∃ front last, ∀ ds, '/' ∉ ds → split (cs ++ ds) = front ++ [last ++ ds] := by
  induction cs with
  | nil =>
      refine ⟨[], [], fun ds hds => ?_⟩
      induction ds with
      | nil => rfl
      | cons d ds ih =>
          obtain ⟨hd, hds⟩ := not_or.mp (mt List.mem_cons.mpr hds)
          have hrest : split ds = [ds] := ih hds
          show split (d :: ds) = [d :: ds]
          rw [split, if_neg (Ne.symm hd), hrest]
  | cons c cs ih =>
      obtain ⟨front, last, h⟩ := ih
      by_cases hc : c = '/'
      · refine ⟨[] :: front, last, fun ds hds => ?_⟩
        rw [List.cons_append, split, if_pos hc, h ds hds, List.cons_append]
      · cases front with
        | nil =>
            refine ⟨[], c :: last, fun ds hds => ?_⟩
            rw [List.cons_append, split, if_neg hc, h ds hds]
            rfl
        | cons first front =>
            refine ⟨(c :: first) :: front, last, fun ds hds => ?_⟩
            rw [List.cons_append, split, if_neg hc, h ds hds]
            rfl

/-- What is put behind a path is put behind its last name. -/
theorem exists_names_append (base : String) :
    ∃ front last, ∀ ending : String, '/' ∉ ending.toList →
      names (base ++ ending) = front ++ [last ++ ending] := by
  obtain ⟨front, last, h⟩ := exists_split_append base.toList
  refine ⟨front.map String.ofList, String.ofList last, fun ending hending => ?_⟩
  rw [names, String.toList_append, h ending.toList hending, List.map_append, List.map_singleton,
    String.ofList_append, String.ofList_toList]

theorem not_isIdle_of_length {name : String} (h : 2 < name.length) :
    ¬ isIdle name ∧ name ≠ ".." := by
  refine ⟨fun hidle => ?_, ?_⟩
  · rcases Bool.or_eq_true_iff.mp hidle with hname | hname
    · rw [beq_iff_eq.mp hname] at h
      exact absurd h (by decide)
    · rw [beq_iff_eq.mp hname] at h
      exact absurd h (by decide)
  · rintro rfl
    exact absurd h (by decide)

end Path

namespace Disk

variable {d d' : Disk} {place : List String} {path other : String} {content : ByteArray}

/-! ### Places -/

theorem node?_put_file (h : d.node? place ≠ some .directory) (content : ByteArray)
    (q : List String) :
    (d.put place (.file content)).node? q =
      if q = place then some (.file content) else d.node? q := by
  refine node?_put ?_ _ q
  rintro rfl
  exact h rfl

/-- A tree that has all the directories of another, so that paths lead where they led there. -/
structure Covers (d e : Disk) : Prop where
  home_eq : e.home = d.home
  node_eq : ∀ place, d.node? place = some .directory → e.node? place = some .directory

namespace Covers

variable {e : Disk}

theorem refl (d : Disk) : d.Covers d :=
  ⟨rfl, fun _ => id⟩

theorem trans (h : d.Covers d') (h' : d'.Covers e) : d.Covers e :=
  ⟨h'.home_eq.trans h.home_eq, fun place hplace => h'.node_eq place (h.node_eq place hplace)⟩

/-- A walk passes directories only. -/
theorem walk (h : d.Covers e) {start q : List String} {names : List String}
    (hwalk : d.walk start names = .ok q) : e.walk start names = .ok q := by
  fun_induction Disk.walk d start names with
  | case1 => exact hwalk
  | case2 | case3 | case4 => cases hwalk
  | case5 start name names hnode hidle ih =>
      rw [Disk.walk, h.node_eq start hnode]
      dsimp only
      rw [if_pos hidle]
      exact ih hwalk
  | case6 start names hnode hidle ih =>
      rw [Disk.walk, h.node_eq start hnode]
      dsimp only
      rw [if_neg hidle, if_pos rfl]
      exact ih hwalk
  | case7 => cases hwalk
  | case8 start name names hnode hidle hparent hlength ih =>
      rw [Disk.walk, h.node_eq start hnode]
      dsimp only
      rw [if_neg hidle, if_neg hparent, if_neg hlength]
      exact ih hwalk

theorem origin (h : d.Covers e) (path : String) : e.origin path = d.origin path := by
  rw [Disk.origin, Disk.origin, h.home_eq]

theorem locate (h : d.Covers e) {q : List String} (hlocate : d.locate path = .ok q) :
    e.locate path = .ok q := by
  unfold Disk.locate follow at hlocate ⊢
  cases hbad : unusable? path with
  | some fault =>
      rw [hbad] at hlocate
      cases hlocate
  | none =>
      rw [hbad] at hlocate
      dsimp only at hlocate ⊢
      rw [h.origin]
      exact h.walk hlocate

end Covers

/-- A file does not take the place of a directory. -/
theorem covers_put_file (h : d.node? place ≠ some .directory) (content : ByteArray) :
    d.Covers (d.put place (.file content)) := by
  refine ⟨rfl, fun p hp => ?_⟩
  have hne : p ≠ place := by
    rintro rfl
    exact h hp
  rw [node?_put_file h, if_neg hne, hp]

theorem locate_put_file (h : d.node? place ≠ some .directory) (content : ByteArray)
    {q : List String} (hlocate : d.locate path = .ok q) :
    (d.put place (.file content)).locate path = .ok q :=
  (covers_put_file h content).locate hlocate

/-- Names lead somewhere from a directory only. -/
theorem node?_of_walk_cons {start q names : List String} {name : String}
    (h : d.walk start (name :: names) = .ok q) : d.node? start = some .directory := by
  rw [walk] at h
  cases hnode : d.node? start with
  | none =>
      rw [hnode] at h
      cases h
  | some n =>
      rw [hnode] at h
      cases n with
      | file | locked => cases h
      | directory => rfl

/-- A path leads to an entry with its last name. -/
theorem getLast?_of_walk {start q front : List String} {name : String}
    (hidle : ¬ Path.isIdle name) (hparent : name ≠ "..")
    (h : d.walk start (front ++ [name]) = .ok q) : q.getLast? = some name := by
  induction front generalizing start with
  | nil =>
      have hnode := node?_of_walk_cons h
      rw [List.nil_append, walk, hnode] at h
      dsimp only at h
      rw [if_neg hidle, if_neg hparent] at h
      split at h
      · cases h
      · cases h
        exact List.getLast?_concat
  | cons n front ih =>
      have hnode := node?_of_walk_cons h
      rw [List.cons_append, walk, hnode] at h
      dsimp only at h
      split at h
      · exact ih h
      · split at h
        · exact ih h
        · split at h
          · cases h
          · exact ih h

theorem getLast?_of_locate {q front : List String} {name : String} (hidle : ¬ Path.isIdle name)
    (hparent : name ≠ "..") (hnames : Path.names path = front ++ [name])
    (h : d.locate path = .ok q) : q.getLast? = some name := by
  rw [locate, follow, hnames] at h
  split at h
  · cases h
  · exact getLast?_of_walk hidle hparent h

/-- Paths that end in different names lead to different places. -/
theorem locate_ne {q r : List String} {base ending ending' : String}
    (hending : '/' ∉ ending.toList) (hending' : '/' ∉ ending'.toList)
    (hlength : 2 < ending.length) (hlength' : 2 < ending'.length) (hne : ending ≠ ending')
    (hq : d.locate (base ++ ending) = .ok q) (hr : d.locate (base ++ ending') = .ok r) :
    q ≠ r := by
  obtain ⟨front, last, hnames⟩ := Path.exists_names_append base
  have hentry (e : String) (h : 2 < e.length) : ¬ Path.isIdle (last ++ e) ∧ last ++ e ≠ ".." :=
    Path.not_isIdle_of_length (by rw [String.length_append]; omega)
  obtain ⟨hidle, hparent⟩ := hentry ending hlength
  obtain ⟨hidle', hparent'⟩ := hentry ending' hlength'
  have hqlast := getLast?_of_locate hidle hparent (hnames ending hending) hq
  have hrlast := getLast?_of_locate hidle' hparent' (hnames ending' hending') hr
  rintro rfl
  exact hne ((String.append_right_inj last).mp (Option.some.inj (hqlast.symm.trans hrlast)))

theorem unusable?_eq_none (hnul : path.contains '\x00' = false) (hempty : path.isEmpty = false)
    (hsize : path.utf8ByteSize < maxPathBytes) : unusable? path = none := by
  rw [unusable?, hnul, hempty, if_neg Bool.false_ne_true, if_neg Bool.false_ne_true,
    if_neg (Nat.not_le.mpr hsize)]

theorem locate_of_walk (husable : unusable? path = none)
    (h : d.walk (d.origin path) (Path.names path) = .ok place) : d.locate path = .ok place := by
  rw [locate, follow, husable]
  exact h

/-- A name leads to an entry of the home directory. -/
theorem locate_name {name : String} (husable : unusable? name = none)
    (hrelative : ¬ name.startsWith "/") (hnames : Path.names name = [name])
    (hidle : ¬ Path.isIdle name) (hparent : name ≠ "..")
    (hlength : ¬ name.utf8ByteSize > maxNameBytes) (hhome : d.node? d.home = some .directory) :
    d.locate name = .ok (d.home ++ [name]) := by
  refine locate_of_walk husable ?_
  rw [origin, if_neg hrelative, hnames, walk, hhome]
  dsimp only
  rw [if_neg hidle, if_neg hparent, if_neg hlength, walk]

/-! ### Files -/

/-- A file is written where its path leads, and never where a directory stands. -/
theorem exists_place_of_writeBytes (h : d.writeBytes path content = .ok d') :
    ∃ place, d.locate path = .ok place ∧ d.node? place ≠ some .directory ∧
      d' = d.put place (.file content) := by
  unfold writeBytes at h
  split at h
  · cases h
  · split at h
    · cases h
    · rename_i place hlocate
      split at h
      · cases h
      · cases h
      · rename_i hnode
        cases h
        exact ⟨place, hlocate, by simp [hnode], rfl⟩
      · rename_i hnode
        cases h
        exact ⟨place, hlocate, by simp [hnode], rfl⟩

/-- A path that does not ask for a directory can be written to where neither a directory stands nor
a file that is locked. -/
theorem writeBytes_of_locate (hfile : path.endsWith "/" = false)
    (hlocate : d.locate path = .ok place) (h : d.node? place ≠ some .directory)
    (hopen : d.node? place ≠ some .locked) :
    d.writeBytes path content = .ok (d.put place (.file content)) := by
  have hasks : d.asksForDirectory path = false := by
    rw [asksForDirectory, hfile, Bool.false_and]
  rw [writeBytes, if_neg (by rw [hasks]; exact Bool.false_ne_true), hlocate]
  dsimp only
  split
  · contradiction
  · contradiction
  · rfl
  · rfl

/-- No file takes the place of a directory. -/
theorem writeBytes_of_directory (hlocate : d.locate path = .ok place)
    (h : d.node? place = some .directory) : d.writeBytes path content = .error .isADirectory := by
  unfold writeBytes
  split
  · rfl
  · rw [hlocate]
    dsimp only
    rw [h]

theorem readBytes_eq_ok_iff :
    d.readBytes path = .ok content ↔
      ∃ place, d.locate path = .ok place ∧ d.node? place = some (.file content) := by
  unfold readBytes lookup
  cases hlocate : d.locate path with
  | error fault => simp
  | ok place =>
      cases hnode : d.node? place with
      | none => simp [hnode]
      | some n =>
          cases n with
          | file => simp [hnode]
          | directory => simp [hnode]
          | locked => simp [hnode]

/-- A path that a file can be written to. -/
structure Accepts (d : Disk) (path : String) : Prop where
  names_file : path.endsWith "/" = false
  exists_place : ∃ place, d.locate path = .ok place ∧ d.node? place ≠ some .directory ∧
    d.node? place ≠ some .locked

theorem Accepts.put_file (h : d.Accepts other) (hfree : d.node? place ≠ some .directory)
    (content : ByteArray) : (d.put place (.file content)).Accepts other := by
  obtain ⟨hfile, q, hq, hnode⟩ := h
  refine ⟨hfile, q, locate_put_file hfree content hq, ?_⟩
  rw [node?_put_file hfree]
  split
  · exact ⟨nofun, nofun⟩
  · exact hnode

/-- Writing a file leaves the others possible. -/
theorem Accepts.exists_writeBytes (h : d.Accepts path) (content : ByteArray) :
    ∃ d', d.writeBytes path content = .ok d' ∧ ∀ other, d.Accepts other → d'.Accepts other := by
  obtain ⟨hfile, place, hlocate, hnode, hopen⟩ := h
  exact ⟨_, writeBytes_of_locate hfile hlocate hnode hopen,
    fun _ hother => hother.put_file hnode content⟩

/-- What was written is read back. -/
theorem readBytes_of_writeBytes (h : d.writeBytes path content = .ok d') :
    d'.readBytes path = .ok content := by
  obtain ⟨place, hlocate, hnode, rfl⟩ := exists_place_of_writeBytes h
  refine readBytes_eq_ok_iff.mpr ⟨place, locate_put_file hnode content hlocate, ?_⟩
  rw [node?_put_file hnode, if_pos rfl]

/-- A file that lies elsewhere is read as before. -/
theorem readBytes_writeBytes_of_ne {old : ByteArray} (h : d.writeBytes path content = .ok d')
    (hne : d.locate other ≠ d.locate path) (hold : d.readBytes other = .ok old) :
    d'.readBytes other = .ok old := by
  obtain ⟨place, hlocate, hnode, rfl⟩ := exists_place_of_writeBytes h
  obtain ⟨q, hq, hfile⟩ := readBytes_eq_ok_iff.mp hold
  refine readBytes_eq_ok_iff.mpr ⟨q, locate_put_file hnode content hq, ?_⟩
  have hplace : q ≠ place := by
    rintro rfl
    exact hne (hq.trans hlocate.symm)
  rw [node?_put_file hnode, if_neg hplace, hfile]

/-! ### Texts -/

theorem fromUTF8?_toUTF8 (text : String) : String.fromUTF8? text.toUTF8 = some text := by
  simp [String.fromUTF8?, String.toUTF8, String.fromUTF8, text.isValidUTF8]

theorem toUTF8_of_fromUTF8? {text : String} (h : String.fromUTF8? content = some text) :
    text.toUTF8 = content := by
  unfold String.fromUTF8? at h
  split at h
  · cases h
    rfl
  · cases h

theorem readText_of_readBytes {text : String} (h : d.readBytes path = .ok text.toUTF8) :
    d.readText path = .ok text := by
  rw [readText, h]
  dsimp only
  rw [fromUTF8?_toUTF8]

theorem readBytes_of_readText {text : String} (h : d.readText path = .ok text) :
    d.readBytes path = .ok text.toUTF8 := by
  unfold readText at h
  split at h
  · cases h
  · rename_i hread
    split at h
    · cases h
    · rename_i htext
      cases h
      rw [hread, toUTF8_of_fromUTF8? htext]

theorem readText_of_writeText {text : String} (h : d.writeText path text = .ok d') :
    d'.readText path = .ok text :=
  readText_of_readBytes (readBytes_of_writeBytes h)

theorem readText?_of_writeText {text : String} (h : d.writeText path text = .ok d') :
    d'.readText? path = .ok (some text) := by
  rw [readText?, readText_of_writeText h]

theorem readText?_of_missing (hlocate : d.locate path = .ok place) (h : d.node? place = none) :
    d.readText? path = .ok none := by
  unfold readText? readText readBytes lookup
  rw [hlocate]
  dsimp only
  rw [h]

end Disk

end CoreArena
