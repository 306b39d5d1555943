import FlowAtlas.Path
import FlowAtlas.Table

/-! A file system: directories, files and symbolic links by their addresses. An address is the list of
names that lead from the root to an entry through directories alone. -/

namespace FlowAtlas

abbrev Address := List String

def Address.text (a : Address) : String :=
  "/" ++ Text.joinWith "/" a

inductive Entry where
  | file (bytes : List UInt8)
  | link (target : String)
  | directory
  deriving DecidableEq, Repr

structure Access where
  /-- Names can be looked up in the directory. -/
  searchable : Address → Bool := fun _ => true
  listable : Address → Bool := fun _ => true
  /-- Why the file cannot be read, as the system says it. -/
  unreadable : Address → Option String := fun _ => none

/-- The entries below the root. What an entry stands in is a directory. -/
structure Files where
  entries : Table Address Entry
  access : Access := {}
  parent_directory : ∀ a name, a ++ [name] ∈ entries → a = [] ∨ entries.find? a = some .directory

namespace Files

def empty : Files where
  entries := .empty
  parent_directory _ _ h := by simp [Table.mem_iff, Table.keys, Table.empty] at h

instance : Inhabited Files := ⟨empty⟩

def entryAt (fs : Files) (a : Address) : Option Entry :=
  if a = [] then some .directory else fs.entries.find? a

/-- Whether names can be looked up in `here` and in all directories that names lead through from there. -/
def searchableAlong (fs : Files) (here : Address) : List String → Bool
  | [] => true
  | name :: rest => fs.access.searchable here && fs.searchableAlong (here ++ [name]) rest

def reaches (fs : Files) (a : Address) : Bool :=
  decide ((Address.text a).utf8ByteSize ≤ Path.textLimit) && fs.searchableAlong [] a

def lstat? (fs : Files) (a : Address) : Option Entry :=
  if fs.reaches a then fs.entryAt a else none

def lists (fs : Files) (a : Address) : Bool :=
  fs.reaches a && fs.access.listable a

def listsAlong (fs : Files) (here : Address) : List String → Bool
  | [] => fs.lists here
  | name :: rest => fs.lists here && fs.listsAlong (here ++ [name]) rest

def contents (fs : Files) (a : Address) (bytes : List UInt8) : Except String (List UInt8) :=
  match fs.access.unreadable a with
  | some reason => .error reason
  | none => .ok bytes

inductive Obstacle where
  | missing
  | linkLoop
  | denied
  | tooLong
  deriving DecidableEq, Repr

def linkLimit : Nat := 40

/-- The names in the target of a link. Empty ones and dots are kept, as they ask for a directory. -/
def targetNames (target : String) : List String :=
  Text.splitOnChar '/' target

def targetStart (here : Address) (target : String) : Address :=
  if Text.startsWith target "/" then [] else here

def walk (fs : Files) (links : Nat) (here : Address) (todo : List String) :
    Except Obstacle Address :=
  match todo with
  | [] => .ok here
  | name :: rest =>
    if name = "" then walk fs links here rest
    else if !fs.access.searchable here then .error .denied
    else if name = "." then walk fs links here rest
    else if name = ".." then walk fs links here.dropLast rest
    else if Path.nameLimit < name.utf8ByteSize then .error .tooLong
    else
      let next := here ++ [name]
      match fs.entryAt next with
      | none => .error .missing
      | some (.file _) => if rest.isEmpty then .ok next else .error .missing
      | some .directory => walk fs links next rest
      | some (.link target) =>
        match links with
        | 0 => .error .linkLoop
        | links + 1 => walk fs links (targetStart here target) (targetNames target ++ rest)
termination_by (links, todo.length)

def find (fs : Files) (names : List String) : Except Obstacle Address :=
  fs.walk linkLimit [] names

def stat (fs : Files) (names : List String) : Option Entry :=
  (fs.find names).toOption.bind fs.entryAt

def plainAddress (here : Address) : List String → Address
  | [] => here
  | name :: rest =>
    if name = ".." then plainAddress here.dropLast rest
    else if Path.isPart name then plainAddress (here ++ [name]) rest
    else plainAddress here rest

structure Resolution where
  address : Address
  complete : Bool
  deriving DecidableEq, Repr

/-- The end of a resolution at a link that cannot be replaced, with names left after it. They start from
the root if an empty one comes first. -/
def giveUp (here : Address) : List String → Resolution
  | "" :: name :: rest => ⟨plainAddress [] (name :: rest), false⟩
  | rest => ⟨plainAddress here rest, false⟩

def unopened (fs : Files) (opened : List Address) : List Address :=
  fs.entries.keys.filter (!opened.contains ·)

theorem entryAt_of_lstat? {fs : Files} {a : Address} {e : Entry} (h : fs.lstat? a = some e) :
    fs.entryAt a = some e := by
  rw [lstat?] at h
  split at h
  · exact h
  · cases h

theorem length_unopened_lt {fs : Files} {opened : List Address} {a : Address} {e : Entry}
    (ha : a ≠ []) (he : fs.entryAt a = some e) (hnew : a ∉ opened) :
    (fs.unopened (a :: opened)).length < (fs.unopened opened).length := by
  have hmem : a ∈ fs.entries.keys := by
    simp only [entryAt, ha, if_false] at he
    refine Decidable.byContradiction fun hmem => ?_
    rw [Table.find?_eq_none_iff.mpr hmem] at he
    cases he
  have hsub : fs.unopened (a :: opened) = (fs.unopened opened).filter (· != a) := by
    simp only [unopened, List.filter_filter]
    refine List.filter_congr fun b _ => ?_
    by_cases h : b = a <;> simp [h]
  rw [hsub]
  exact List.length_filter_lt_length_iff_exists.mpr
    ⟨a, List.mem_filter.mpr ⟨hmem, by simpa using hnew⟩, by simp⟩

/-- Follows names from `here` and replaces each link by where its target leads. A name that cannot be
looked up is taken as it is written. A link that is met while it is being replaced stands for itself. -/
def follow (fs : Files) (opened : List Address) (here : Address) (todo : List String) :
    Resolution :=
  match todo with
  | [] => ⟨here, true⟩
  | name :: rest =>
    if name = ".." then follow fs opened here.dropLast rest
    else if Path.isPart name then
      let next := here ++ [name]
      match _he : fs.lstat? next with
      | some (.link target) =>
        if _hn : next ∈ opened then giveUp next rest
        else
          let r := follow fs (next :: opened) (targetStart here target) (targetNames target)
          if r.complete then follow fs opened r.address rest else giveUp r.address rest
      | _ => follow fs opened next rest
    else follow fs opened here rest
termination_by ((fs.unopened opened).length, todo.length)
decreasing_by
  · exact .right _ (by simp)
  · exact .left _ _ (length_unopened_lt (by simp) (entryAt_of_lstat? _he) _hn)
  · exact .right _ (by simp)
  · exact .right _ (by simp)
  · exact .right _ (by simp)

/-- The address that names lead to from the root with every link replaced. -/
def realAddress (fs : Files) (names : List String) : Address :=
  (fs.follow [] [] names).address

def bytes? (fs : Files) (names : List String) : Option (List UInt8) :=
  match fs.stat names with
  | some (.file bytes) => some bytes
  | _ => none

/-- Puts an entry into an existing directory. A directory is never replaced by something else. -/
def put (fs : Files) (parent : Address) (name : String) (e : Entry) : Files :=
  if h : fs.entryAt parent = some .directory ∧
      (fs.entries.find? (parent ++ [name]) = some .directory → e = .directory) then
    { fs with
      entries := fs.entries.insert (parent ++ [name]) e
      parent_directory := by
        intro a n hmem
        by_cases ha : a = []
        · exact .inl ha
        right
        have hself : a ≠ a ++ [n] := fun heq => by simpa using congrArg List.length heq
        by_cases hk : a = parent ++ [name]
        · subst hk
          have hdir : fs.entries.find? (parent ++ [name]) = some .directory := by
            rcases Table.mem_alter.mp hmem with heq | hold
            · exact absurd heq.symm hself
            · exact (fs.parent_directory _ _ hold).resolve_left ha
          rw [Table.insert, Table.find?_alter_self, h.2 hdir]
        · rw [Table.insert, Table.find?_alter_of_ne hk]
          rcases Table.mem_alter.mp hmem with heq | hold
          · obtain ⟨rfl, _⟩ := List.append_inj' heq rfl
            simpa [entryAt, ha] using h.1
          · exact (fs.parent_directory _ _ hold).resolve_left ha }
  else fs

def makeDirectories (fs : Files) (here : Address) : List String → Files
  | [] => fs
  | name :: rest => (fs.put here name .directory).makeDirectories (here ++ [name]) rest

def write (fs : Files) (names : List String) (bytes : List UInt8) : Files :=
  let a := fs.realAddress names
  match a.getLast? with
  | none => fs
  | some name => (fs.makeDirectories [] a.dropLast).put a.dropLast name (.file bytes)

def addressOf (fs : Files) (names : List String) : Address :=
  fs.realAddress names.dropLast ++ names.getLast?.toList

def writeLink (fs : Files) (names : List String) (target : String) : Files :=
  let a := fs.addressOf names
  match a.getLast? with
  | none => fs
  | some name => (fs.makeDirectories [] a.dropLast).put a.dropLast name (.link target)

def writeDirectory (fs : Files) (names : List String) : Files :=
  fs.makeDirectories [] (fs.realAddress names)

def erase (fs : Files) (a : Address) : Files where
  entries := fs.entries.filter fun b _ => !a.isPrefixOf b
  access := fs.access
  parent_directory := by
    intro b n hmem
    have hb : b ++ [n] ∈ fs.entries ∧ a.isPrefixOf (b ++ [n]) = false := by
      simpa [Table.mem_iff, Table.keys, Table.filter] using hmem
    rcases fs.parent_directory b n hb.1 with hnil | hdir
    · exact .inl hnil
    · right
      rw [Table.find?_filter, hdir]
      have hkept : a.isPrefixOf b = false := by
        rw [Bool.eq_false_iff] at hb ⊢
        intro h
        exact hb.2 (List.isPrefixOf_iff_prefix.mpr
          ((List.isPrefixOf_iff_prefix.mp h).trans (List.prefix_append b [n])))
      simp [hkept]

def entriesUnder (fs : Files) (root : Address) : List (List String × Entry) :=
  fs.entries.entries.filterMap fun (a, e) =>
    if root.isPrefixOf a then some (a.drop root.length, e) else none

def filesUnder (fs : Files) (root : Address) : List (List String × List UInt8) :=
  (fs.entriesUnder root).filterMap fun (names, e) =>
    match e with
    | .file bytes => some (names, bytes)
    | _ => none

def leavesUnder (fs : Files) (root : Address) : List (List String) :=
  ((fs.entriesUnder root).filter fun (_, e) => e ≠ .directory).map Prod.fst

end Files
end FlowAtlas
