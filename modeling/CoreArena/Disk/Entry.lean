import CoreArena.Disk.Lemmas

/-! Entries of directories.

A path that was joined from a directory and a name leads to the entry of that name in the directory,
whatever the path of the directory looks like. Making directories leaves what there was. -/

namespace CoreArena

namespace Path

theorem split_ne_nil (cs : List Char) : split cs ≠ [] := by
  obtain ⟨front, last, h⟩ := exists_split_append cs
  have hcs := h [] List.not_mem_nil
  rw [List.append_nil, List.append_nil] at hcs
  rw [hcs]
  exact List.append_ne_nil_of_right_ne_nil _ (List.cons_ne_nil _ _)

theorem split_of_not_mem {cs : List Char} (h : '/' ∉ cs) : split cs = [cs] := by
  induction cs with
  | nil => rfl
  | cons c cs ih =>
      obtain ⟨hc, hcs⟩ := not_or.mp (mt List.mem_cons.mpr h)
      rw [split, if_neg (Ne.symm hc), ih hcs]

theorem split_append_slash (cs ds : List Char) :
    split (cs ++ '/' :: ds) = split cs ++ split ds := by
  induction cs with
  | nil => rfl
  | cons c cs ih =>
      rw [List.cons_append, split, split, ih]
      split
      · rfl
      · obtain ⟨p, ps, hcs⟩ := List.exists_cons_of_ne_nil (split_ne_nil cs)
        rw [hcs]
        rfl

theorem endsWith_slash_iff {path : String} : path.endsWith "/" = true ↔ ['/'] <:+ path.toList := by
  rw [String.endsWith_eq_endsWith_toSlice, String.Slice.endsWith_string_iff, String.copy_toSlice]
  rfl

theorem startsWith_slash_iff {path : String} :
    path.startsWith "/" = true ↔ path.toList.head? = some '/' := by
  rw [String.startsWith_string_iff]
  cases path.toList with
  | nil => simp
  | cons c cs =>
      show ['/'] <+: c :: cs ↔ _
      simp [eq_comm]

/-- A text that names an entry of a directory. -/
structure IsName (entry : String) : Prop where
  slash_not_mem : '/' ∉ entry.toList
  not_isIdle : ¬ isIdle entry
  ne_parent : entry ≠ ".."

variable {dir entry : String}

theorem names_of_isName (h : IsName entry) : names entry = [entry] := by
  rw [names, split_of_not_mem h.slash_not_mem, List.map_singleton, String.ofList_toList]

/-- A name stands behind those of the directory that it is joined to. What the directory may have
besides is an empty name at the end. -/
theorem exists_names_join (dir : String) :
    ∃ front, (names dir = front ∨ names dir = front ++ [""]) ∧
      ∀ entry, IsName entry → names (join dir entry) = front ++ [entry] := by
  unfold join
  split
  · rename_i hdir
    rcases Bool.or_eq_true_iff.mp hdir with hempty | hslash
    · refine ⟨[], .inr ?_, fun entry hentry => ?_⟩ <;> rw [String.isEmpty_iff.mp hempty]
      · rfl
      · rw [String.empty_append, names_of_isName hentry]
        rfl
    · obtain ⟨cs, hcs⟩ := endsWith_slash_iff.mp hslash
      refine ⟨(split cs).map String.ofList, .inr ?_, fun entry hentry => ?_⟩
      · rw [names, ← hcs, split_append_slash, List.map_append]
        rfl
      · rw [names, String.toList_append, ← hcs, List.append_assoc, List.singleton_append,
          split_append_slash, List.map_append, ← names, names_of_isName hentry]
  · refine ⟨names dir, .inl rfl, fun entry hentry => ?_⟩
    rw [names, String.toList_append, String.toList_append, List.append_assoc]
    show (split (dir.toList ++ '/' :: entry.toList)).map String.ofList = _
    rw [split_append_slash, List.map_append, ← names, ← names, names_of_isName hentry]

theorem join_append (dir name ending : String) :
    join dir (name ++ ending) = join dir name ++ ending := by
  unfold join
  split <;> simp only [String.append_assoc]

theorem join_right_inj {name name' : String} : join dir name = join dir name' ↔ name = name' := by
  unfold join
  split <;> simp only [String.append_right_inj]

theorem startsWith_join (dir : String) (hentry : IsName entry) :
    (join dir entry).startsWith "/" = dir.startsWith "/" := by
  rw [Bool.eq_iff_iff, startsWith_slash_iff, startsWith_slash_iff]
  by_cases hempty : dir = ""
  · have hjoin : join dir entry = entry := by
      rw [hempty, join, if_pos (by simp), String.empty_append]
    rw [hjoin, hempty]
    refine iff_of_false (fun h => hentry.slash_not_mem (List.mem_of_mem_head? h)) nofun
  · obtain ⟨c, cs, hdir⟩ := List.exists_cons_of_ne_nil (mt String.toList_eq_nil_iff.mp hempty)
    unfold join
    split <;> simp [String.toList_append, hdir]

end Path

namespace Disk

variable {d d' : Disk} {place q : List String} {path dir entry : String} {content : ByteArray}

/-! ### Entries -/

theorem walk_append_eq_ok_iff {names more : List String} :
    d.walk place (names ++ more) = .ok q ↔
      ∃ p, d.walk place names = .ok p ∧ d.walk p more = .ok q := by
  fun_induction walk d place names with
  | case1 place => simp
  | case2 place name names hnode => simp [walk, hnode]
  | case3 place name names content hnode => simp [walk, hnode]
  | case4 place name names hnode => simp [walk, hnode]
  | case5 place name names hnode hidle ih => simp [walk, hnode, hidle, ih]
  | case6 place names hnode hidle ih => simp [walk, hnode, hidle, ih]
  | case7 place name names hnode hidle hparent hlength =>
      simp [walk, hnode, hidle, hparent, hlength]
  | case8 place name names hnode hidle hparent hlength ih =>
      simp [walk, hnode, hidle, hparent, hlength, ih]

/-- The names of a path lead to a place where a directory stands. An empty path leads home. -/
structure Houses (d : Disk) (dir : String) (place : List String) : Prop where
  walk_eq : d.walk (d.origin dir) (Path.names dir) = .ok place
  node_eq : d.node? place = some .directory

theorem walk_empty (h : d.node? place = some .directory) : d.walk place [""] = .ok place := by
  rw [walk, h]
  dsimp only
  rw [if_pos (by decide), walk]

/-- A path leads to a single place. -/
theorem Houses.unique (h : d.Houses dir place) (h' : d.Houses dir q) : q = place :=
  Except.ok.inj (h'.walk_eq.symm.trans h.walk_eq)

theorem walk_name_eq_ok_iff (hentry : Path.IsName entry) :
    d.walk place [entry] = .ok q ↔ d.node? place = some .directory ∧
      entry.utf8ByteSize ≤ maxNameBytes ∧ q = place ++ [entry] := by
  unfold walk
  split
  · simp [*]
  · simp [*]
  · simp [*]
  · rename_i hnode
    rw [if_neg hentry.not_isIdle, if_neg hentry.ne_parent]
    by_cases hlength : entry.utf8ByteSize ≤ maxNameBytes
    · rw [if_neg (Nat.not_lt.mpr hlength), walk]
      simp [hnode, hlength, eq_comm]
    · rw [if_pos (Nat.lt_of_not_le hlength)]
      simp [hlength]

/-- The names of a joined path lead to the entry of that name in the directory. -/
theorem walk_join_eq_ok_iff (hentry : Path.IsName entry) :
    d.walk (d.origin (Path.join dir entry)) (Path.names (Path.join dir entry)) = .ok q ↔
      entry.utf8ByteSize ≤ maxNameBytes ∧ ∃ place, d.Houses dir place ∧ q = place ++ [entry] := by
  obtain ⟨front, hdir, hnames⟩ := Path.exists_names_join dir
  have horigin : d.origin (Path.join dir entry) = d.origin dir := by
    rw [origin, origin, Path.startsWith_join dir hentry]
  have hhouses (p : List String) : d.Houses dir p ↔
      d.walk (d.origin dir) front = .ok p ∧ d.node? p = some .directory := by
    rcases hdir with hdir | hdir
    · exact ⟨fun h => ⟨hdir ▸ h.walk_eq, h.node_eq⟩, fun h => ⟨hdir ▸ h.1, h.2⟩⟩
    · constructor
      · rintro ⟨hwalk, hnode⟩
        rw [hdir, walk_append_eq_ok_iff] at hwalk
        obtain ⟨p', hfront, hlast⟩ := hwalk
        rw [walk_empty (node?_of_walk_cons hlast)] at hlast
        cases hlast
        exact ⟨hfront, hnode⟩
      · rintro ⟨hfront, hnode⟩
        refine ⟨?_, hnode⟩
        rw [hdir, walk_append_eq_ok_iff]
        exact ⟨p, hfront, walk_empty hnode⟩
  rw [hnames entry hentry, horigin, walk_append_eq_ok_iff]
  simp only [walk_name_eq_ok_iff hentry, hhouses]
  constructor
  · rintro ⟨p, hfront, hnode, hlength, rfl⟩
    exact ⟨hlength, p, ⟨hfront, hnode⟩, rfl⟩
  · rintro ⟨hlength, p, ⟨hfront, hnode⟩, rfl⟩
    exact ⟨p, hfront, hnode, hlength, rfl⟩

theorem exists_houses_of_locate (hentry : Path.IsName entry)
    (h : d.locate (Path.join dir entry) = .ok q) :
    ∃ place, d.Houses dir place ∧ q = place ++ [entry] := by
  unfold locate follow at h
  split at h
  · cases h
  · exact ((walk_join_eq_ok_iff hentry).mp h).2

theorem Covers.houses {e : Disk} (h : d.Covers e) (hd : d.Houses dir place) :
    e.Houses dir place := by
  refine ⟨?_, h.node_eq place hd.node_eq⟩
  rw [h.origin]
  exact h.walk hd.walk_eq

/-- What is written to a joined path is the entry of that name in the directory. -/
theorem exists_houses_of_writeBytes (hentry : Path.IsName entry)
    (h : d.writeBytes (Path.join dir entry) content = .ok d') :
    ∃ place, d.Houses dir place ∧ d.node? (place ++ [entry]) ≠ some .directory ∧
      d' = d.put (place ++ [entry]) (.file content) := by
  obtain ⟨q, hlocate, hfree, rfl⟩ := exists_place_of_writeBytes h
  obtain ⟨place, hhouses, rfl⟩ := exists_houses_of_locate hentry hlocate
  exact ⟨place, hhouses, hfree, rfl⟩

/-! ### Making directories -/

/-- Directories have come where nothing was, and nothing else has changed. -/
structure Grown (d d' : Disk) : Prop where
  home_eq : d'.home = d.home
  node_eq : ∀ q, d'.node? q = d.node? q ∨ d.node? q = none ∧ d'.node? q = some .directory

theorem Grown.refl (d : Disk) : d.Grown d :=
  ⟨rfl, fun _ => .inl rfl⟩

theorem Grown.trans {e : Disk} (h : d.Grown d') (h' : d'.Grown e) : d.Grown e := by
  refine ⟨h'.home_eq.trans h.home_eq, fun q => ?_⟩
  rcases h.node_eq q with hsame | ⟨hnone, hmade⟩
  · rw [← hsame]
    exact h'.node_eq q
  · rcases h'.node_eq q with hsame | ⟨hnone', -⟩
    · exact .inr ⟨hnone, hsame.trans hmade⟩
    · rw [hmade] at hnone'
      cases hnone'

theorem Grown.node_eq_some (h : d.Grown d') {n : Node} (hq : d.node? q = some n) :
    d'.node? q = some n := by
  rcases h.node_eq q with hsame | ⟨hnone, -⟩
  · rw [hsame, hq]
  · rw [hq] at hnone
    cases hnone

theorem Grown.covers (h : d.Grown d') : d.Covers d' :=
  ⟨h.home_eq, fun _ => h.node_eq_some⟩

/-- Files are read as before. -/
theorem Grown.readBytes (h : d.Grown d') (hread : d.readBytes path = .ok content) :
    d'.readBytes path = .ok content := by
  obtain ⟨q, hq, hnode⟩ := readBytes_eq_ok_iff.mp hread
  exact readBytes_eq_ok_iff.mpr ⟨q, h.covers.locate hq, h.node_eq_some hnode⟩

theorem grown_of_makeDirectory (h : d.makeDirectory path = .ok d') : d.Grown d' := by
  unfold makeDirectory at h
  split at h
  · cases h
  · rename_i place hfollow
    split at h
    · cases h
    · rename_i hfree
      cases h
      have hnone : d.node? place = none := by simpa using hfree
      have hne : place ≠ [] := by
        rintro rfl
        cases hnone
      refine ⟨rfl, fun q => ?_⟩
      rw [node?_put hne]
      by_cases hq : q = place
      · rw [if_pos hq, hq]
        exact .inr ⟨hnone, rfl⟩
      · rw [if_neg hq]
        exact .inl rfl

theorem grown_of_ensureDirectory (h : d.ensureDirectory path = .ok d') : d.Grown d' := by
  unfold ensureDirectory at h
  split at h
  · rename_i hmake
    cases h
    exact grown_of_makeDirectory hmake
  · split at h
    · cases h
      exact Grown.refl d
    · cases h

theorem grown_makeNested (d : Disk) (paths : List String) : d.Grown (d.makeNested paths).1 := by
  induction paths generalizing d with
  | nil => exact Grown.refl d
  | cons path enclosing ih =>
      unfold makeNested
      split
      · rename_i hensure
        exact grown_of_ensureDirectory hensure
      · have hrest := ih d
        split
        · rename_i hnested
          rwa [hnested] at hrest
        · rename_i hnested
          rw [hnested] at hrest
          split
          · rename_i hensure
            exact hrest.trans (grown_of_ensureDirectory hensure)
          · exact hrest
      · exact Grown.refl d

/-- A directory that is there is not made again. -/
theorem makeDirectories_of_houses (husable : unusable? dir = none)
    (hbare : Path.bareNames dir = Path.names dir) (h : d.Houses dir place) :
    d.makeDirectories dir = (d, none) := by
  have hfollow : d.follow dir (Path.names dir) = .ok place := by
    rw [follow, husable]
    exact h.walk_eq
  have hmake : d.makeDirectory dir = .error .alreadyExists := by
    rw [makeDirectory, hbare, hfollow]
    dsimp only
    rw [h.node_eq]
    rfl
  have hdirectory : d.isDirectory dir = true := by
    rw [isDirectory, lookup, locate, hfollow]
    dsimp only
    rw [h.node_eq]
    rfl
  unfold makeDirectories
  split
  · rfl
  · rw [Path.ancestors, List.cons_append, makeNested, ensureDirectory, hmake]
    dsimp only
    rw [if_pos hdirectory]

theorem grown_makeDirectories (d : Disk) (path : String) : d.Grown (d.makeDirectories path).1 := by
  unfold makeDirectories
  split
  · exact Grown.refl d
  · exact grown_makeNested d _

end Disk

end CoreArena
