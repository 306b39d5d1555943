import FlowAtlas.Environment

/-! Looking up directories. An address whose every part is a directory is found where it stands and has
no link to replace, and whatever names lead to a directory, its address is of this kind. -/

namespace FlowAtlas

namespace Files

/-- An address that leads through directories alone, itself included, in each of which the next name can be
looked up. -/
inductive DirectoryAt (fs : Files) : Address → Prop
  | root : DirectoryAt fs []
  | child {a : Address} {name : String} (parent : DirectoryAt fs a)
      (searchable : fs.access.searchable a = true) (part : Path.isPart name = true) (plain : name ≠ "..")
      (short : name.utf8ByteSize ≤ Path.nameLimit)
      (entry : fs.entryAt (a ++ [name]) = some .directory) : DirectoryAt fs (a ++ [name])

variable {fs : Files} {a here : Address}

theorem searchableAlong_append (names more : List String) : fs.searchableAlong here (names ++ more) =
    (fs.searchableAlong here names && fs.searchableAlong (here ++ names) more) := by
  induction names generalizing here with
  | nil => simp [searchableAlong]
  | cons name rest ih => simp [searchableAlong, ih, Bool.and_assoc]

theorem DirectoryAt.entryAt (h : fs.DirectoryAt a) : fs.entryAt a = some .directory := by
  cases h with
  | root => rfl
  | child _ _ _ _ _ hentry => exact hentry

theorem DirectoryAt.dropLast (h : fs.DirectoryAt a) : fs.DirectoryAt a.dropLast := by
  cases h with
  | root => exact .root
  | child hparent =>
    rw [List.dropLast_concat]
    exact hparent

theorem DirectoryAt.searchableAlong_eq (h : fs.DirectoryAt a) : fs.searchableAlong [] a = true := by
  induction h with
  | root => rfl
  | child _ hsearchable _ _ _ _ ih => simp [searchableAlong_append, searchableAlong, ih, hsearchable]

theorem walk_cons {name : String} (hpart : Path.isPart name = true) (hplain : name ≠ "..")
    (links : Nat) (rest : List String) : fs.walk links here (name :: rest) =
      if !fs.access.searchable here then .error .denied
      else if Path.nameLimit < name.utf8ByteSize then .error .tooLong
      else
        match fs.entryAt (here ++ [name]) with
        | none => .error .missing
        | some (.file _) => if rest.isEmpty then .ok (here ++ [name]) else .error .missing
        | some .directory => fs.walk links (here ++ [name]) rest
        | some (.link target) =>
          match links with
          | 0 => .error .linkLoop
          | links + 1 => fs.walk links (targetStart here target) (targetNames target ++ rest) := by
  have hnames : name ≠ "" ∧ name ≠ "." := by simpa [Path.isPart] using hpart
  rw [walk, if_neg hnames.1, if_neg hnames.2]
  exact congrArg (ite ((!fs.access.searchable here) = true) (Except.error Obstacle.denied)) (if_neg hplain)

theorem DirectoryAt.walk_append (h : fs.DirectoryAt a) (links : Nat) (rest : List String) :
    fs.walk links [] (a ++ rest) = fs.walk links a rest := by
  induction h generalizing rest with
  | root => rfl
  | child _ hsearchable hpart hplain hshort hentry ih =>
    rw [List.append_assoc, List.singleton_append, ih, walk_cons hpart hplain, hsearchable,
      if_neg (by simp), if_neg (Nat.not_lt.mpr hshort), hentry]

theorem DirectoryAt.find_eq (h : fs.DirectoryAt a) : fs.find a = .ok a := by
  have hwalk := h.walk_append linkLimit []
  rw [List.append_nil] at hwalk
  rw [find, hwalk, walk]

theorem DirectoryAt.follow_append (h : fs.DirectoryAt a) (opened : List Address)
    (rest : List String) : fs.follow opened [] (a ++ rest) = fs.follow opened a rest := by
  induction h generalizing rest with
  | root => rfl
  | @child a name _ _ hpart hplain _ hentry ih =>
    rw [List.append_assoc, List.singleton_append, ih, follow]
    simp only [hplain, hpart, if_true, if_false]
    split
    · rename_i target hlink
      rw [entryAt_of_lstat? hlink] at hentry
      cases hentry
    · rfl

theorem DirectoryAt.realAddress_eq (h : fs.DirectoryAt a) : fs.realAddress a = a := by
  have hfollow := h.follow_append [] []
  rw [List.append_nil] at hfollow
  rw [realAddress, hfollow, follow]

theorem directoryAt_of_walk {links : Nat} {todo : List String} (hhere : fs.DirectoryAt here)
    (hwalk : fs.walk links here todo = .ok a) (ha : fs.entryAt a = some .directory) :
    fs.DirectoryAt a := by
  fun_induction walk fs links here todo with
  | case1 links here =>
    cases hwalk
    exact hhere
  | case2 links here rest ih => exact ih hhere hwalk
  | case3 | case6 | case7 | case9 | case11 => cases hwalk
  | case4 links here rest _ _ ih => exact ih hhere hwalk
  | case5 links here rest _ _ _ ih => exact ih hhere.dropLast hwalk
  | case8 links here name rest _ _ _ _ _ next bytes hentry _ =>
    -- A file is no directory.
    obtain rfl := Except.ok.inj hwalk
    rw [hentry] at ha
    cases ha
  | case10 links here name rest hname hsearchable hdot hplain hshort next hentry ih =>
    have hpart : Path.isPart name = true := by simp [Path.isPart, hname, hdot]
    refine ih (hhere.child ?_ hpart hplain (Nat.not_lt.mp hshort) hentry) hwalk
    simpa using hsearchable
  | case12 here name rest _ _ _ _ _ next target _ links ih =>
    refine ih ?_ hwalk
    unfold targetStart
    split
    · exact .root
    · exact hhere

end Files

theorem Path.text_absolute (a : Address) : (⟨"/", a⟩ : Path).text = Address.text a := by
  rw [Path.text, if_neg (by simp)]
  rfl

namespace Environment
variable {env : Environment} {directory : Address} {p : Path}

theorem eq_of_expandHome {fault : Fault} (h : env.expandHome p = .error fault) :
    fault = .unknownHome := by
  unfold expandHome at h
  split at h
  · split at h
    · split at h
      · cases h
      · exact (Except.error.inj h).symm
    · cases h
  · cases h

theorem directoryAt?_eq_some_iff : env.directoryAt? p = .ok (some directory) ↔
    env.find p = .ok directory ∧ env.files.entryAt directory = some .directory := by
  unfold directoryAt? stat?
  cases hfind : env.find p with
  | error obstacle => cases obstacle <;> simp [Except.map]
  | ok a =>
    have hsame : a = directory → env.files.entryAt directory = env.files.entryAt a := fun h => by rw [h]
    cases hentry : env.files.entryAt a <;> simp [Except.map] <;> grind

theorem directoryAt_of_directory? {text : String} (h : env.directory? text = .ok (some directory)) :
    env.files.DirectoryAt directory := by
  unfold directory? at h
  cases hexpand : env.expandHome (.ofString text) with
  | error fault => rw [hexpand] at h; cases h
  | ok p =>
    rw [hexpand] at h
    obtain ⟨hfind, hentry⟩ := directoryAt?_eq_some_iff.mp h
    unfold find at hfind
    split at hfind
    · cases hfind
    · split at hfind
      · cases hfind
      · exact Files.directoryAt_of_walk .root hfind hentry

/-- A directory whose address files can have, and no longer than a path may be. -/
structure Reachable (env : Environment) (directory : Address) : Prop where
  plain : env.files.DirectoryAt directory
  free : (⟨"/", directory⟩ : Path).hasNull = false
  short : (Address.text directory).utf8ByteSize ≤ Path.textLimit

theorem Reachable.find_eq (h : env.Reachable directory) : env.find ⟨"/", directory⟩ = .ok directory := by
  rw [find, h.free, if_neg Bool.false_ne_true, Path.text_absolute, if_neg (Nat.not_lt.mpr h.short)]
  exact h.plain.find_eq

theorem Reachable.directoryAt?_eq (h : env.Reachable directory) :
    env.directoryAt? ⟨"/", directory⟩ = .ok (some directory) :=
  directoryAt?_eq_some_iff.mpr ⟨h.find_eq, h.plain.entryAt⟩

theorem Reachable.directory?_eq (h : env.Reachable directory) {text : String}
    (htext : Path.ofString text = ⟨"/", directory⟩) : env.directory? text = .ok (some directory) := by
  have hexpand : env.expandHome (.ofString text) = .ok ⟨"/", directory⟩ := by
    rw [htext]
    cases directory <;> rfl
  rw [directory?, hexpand]
  exact h.directoryAt?_eq

theorem resolve_eq (h : env.files.DirectoryAt directory) : env.resolve ⟨"/", directory⟩ =
    if (⟨"/", directory⟩ : Path).hasNull then .error .nullInPath else .ok directory := by
  have hnames : env.names ⟨"/", directory⟩ = directory := rfl
  unfold resolve
  simp only [hnames, h.realAddress_eq]
  split
  · rfl
  · rename_i hfree
    rw [find, if_neg hfree]
    split
    · rename_i hloop
      split at hloop
      · cases hloop
      · rw [hnames, h.find_eq] at hloop
        cases hloop
    · rfl

theorem eq_of_resolve (h : env.files.DirectoryAt directory) {a : Address}
    (ha : env.resolve ⟨"/", directory⟩ = .ok a) : a = directory := by
  rw [resolve_eq h] at ha
  split at ha
  · cases ha
  · exact (Except.ok.inj ha).symm

theorem Reachable.resolve_eq (h : env.Reachable directory) :
    env.resolve ⟨"/", directory⟩ = .ok directory := by
  rw [Environment.resolve_eq h.plain, h.free, if_neg Bool.false_ne_true]

end Environment
end FlowAtlas
