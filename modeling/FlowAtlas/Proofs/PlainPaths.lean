import FlowAtlas.Proofs.FileLookup
import Mathlib.Data.List.Induction

/-! Paths without a link. An address is written as a path and read back, and where no link stands on the
way it leads to itself, whether or not there is something at its end. -/

namespace FlowAtlas

theorem Text.splitChars_eq_splitOnP (p : Char → Bool) (cs : List Char) :
    splitChars p cs = cs.splitOnP p := by
  induction cs with
  | nil => rfl
  | cons c rest ih =>
    rw [splitChars, List.splitOnP_cons_eq_if_modifyHead, ih]
    split
    · rfl
    · have hne : rest.splitOnP p ≠ [] := List.splitOnP_ne_nil p rest
      cases hpieces : rest.splitOnP p with
      | nil => exact absurd hpieces hne
      | cons piece pieces => rfl

theorem Text.splitOnChar_joinWith {separator : Char} {parts : List String} (hparts : parts ≠ [])
    (hfree : ∀ part ∈ parts, separator ∉ part.toList) :
    splitOnChar separator (joinWith (String.ofList [separator]) parts) = parts := by
  have hpieces : ∀ piece ∈ parts.map String.toList, separator ∉ piece := by
    intro piece hpiece
    obtain ⟨part, hpart, rfl⟩ := List.mem_map.mp hpiece
    exact hfree part hpart
  have hsplit := List.splitOn_intercalate separator hpieces (by simpa using hparts)
  rw [splitOnChar, joinWith, splitChars_eq_splitOnP, String.toList_intercalate, String.toList_ofList]
  rw [List.splitOn] at hsplit
  rw [hsplit, List.map_map]
  simp [Function.comp_def]

namespace Path

def isFileName (name : String) : Bool :=
  isPart name && name != ".." && !name.toList.contains '/' && !name.toList.contains '\x00'

theorem isFileName_iff {name : String} : isFileName name = true ↔
    isPart name = true ∧ name ≠ ".." ∧ '/' ∉ name.toList ∧ '\x00' ∉ name.toList := by
  simp [isFileName, and_assoc]

theorem hasNull_eq_false {a : Address} (ha : ∀ name ∈ a, isFileName name = true) :
    (⟨"/", a⟩ : Path).hasNull = false := by
  rw [hasNull, List.any_eq_false]
  intro name hname
  have hfree := (isFileName_iff.mp (ha name hname)).2.2.2
  simpa using hfree

theorem ofString_text {a : Address} (ha : ∀ name ∈ a, isFileName name = true) :
    ofString (Address.text a) = ⟨"/", a⟩ := by
  cases a with
  | nil => decide +kernel
  | cons first rest =>
    have hfree : ∀ name ∈ first :: rest, '/' ∉ name.toList := fun name hname =>
      (isFileName_iff.mp (ha name hname)).2.2.1
    have hparts : (first :: rest).filter isPart = first :: rest :=
      List.filter_eq_self.mpr fun name hname => (isFileName_iff.mp (ha name hname)).1
    have hsplit : Text.splitOnChar '/' (Address.text (first :: rest)) = "" :: first :: rest := by
      have hjoined := Text.splitOnChar_joinWith (List.cons_ne_nil first rest) hfree
      have htext : (Address.text (first :: rest)).toList =
          '/' :: (Text.joinWith "/" (first :: rest)).toList := by simp [Address.text]
      rw [Text.splitOnChar, htext, Text.splitChars, if_pos (by decide), List.map_cons]
      exact congrArg ("" :: ·) hjoined
    -- The first name is not empty and has no slash in it, so only one slash comes before it.
    have hroot : rootOf (Address.text (first :: rest)).toList = "/" := by
      have hfirst : first.toList ≠ [] := fun hnil => by
        have hpart := (isFileName_iff.mp (ha first (List.mem_cons_self ..))).1
        rw [show first = "" from String.toList_injective (by simpa using hnil)] at hpart
        cases hpart
      obtain ⟨c, cs, hcs⟩ := List.exists_cons_of_ne_nil hfirst
      have hc : c ≠ '/' := fun heq => hfree first (List.mem_cons_self ..) (by simp [hcs, heq])
      have htext : ∃ tail, (Address.text (first :: rest)).toList = '/' :: c :: tail := by
        cases rest with
        | nil => exact ⟨cs, by simp [Address.text, Text.joinWith, hcs]⟩
        | cons second rest =>
          exact ⟨_, by simp [Address.text, Text.joinWith, String.toList_intercalate, hcs]; rfl⟩
      obtain ⟨tail, htail⟩ := htext
      rw [htail, rootOf]
      simp [hc]
    rw [ofString, hsplit, hroot, List.filter_cons_of_neg (by decide), hparts]

end Path

namespace Files

/-- No link stands on the way to an address, nor at its end. -/
def Unlinked (fs : Files) (a : Address) : Prop :=
  ∀ b, b <+: a → ∀ target, fs.entryAt b ≠ some (.link target)

variable {fs : Files} {a here : Address} {names : List String}

theorem Unlinked.follow_eq (h : fs.Unlinked (here ++ names))
    (hnames : ∀ name ∈ names, Path.isFileName name = true) (opened : List Address) :
    fs.follow opened here names = ⟨here ++ names, true⟩ := by
  induction names generalizing here with
  | nil => rw [follow, List.append_nil]
  | cons name rest ih =>
    obtain ⟨hpart, hplain, -⟩ := Path.isFileName_iff.mp (hnames name (List.mem_cons_self ..))
    rw [List.append_cons] at h
    have hrest := ih h fun n hn => hnames n (List.mem_cons_of_mem _ hn)
    have hnext := h (here ++ [name]) (List.prefix_append ..)
    rw [← List.append_cons] at hrest
    rw [follow, if_neg hplain, if_pos hpart, ← hrest]
    dsimp only
    split
    · rename_i target hlink
      exact absurd (entryAt_of_lstat? hlink) (hnext target)
    · rfl

theorem Unlinked.realAddress_eq (h : fs.Unlinked a)
    (ha : ∀ name ∈ a, Path.isFileName name = true) : fs.realAddress a = a := by
  have hfollow : fs.follow [] [] a = ⟨a, true⟩ := Unlinked.follow_eq h ha []
  rw [realAddress, hfollow]

theorem Unlinked.walk_ne_linkLoop (h : fs.Unlinked (here ++ names))
    (hnames : ∀ name ∈ names, Path.isFileName name = true) (links : Nat) :
    fs.walk links here names ≠ .error .linkLoop := by
  induction names generalizing here with
  | nil =>
    rw [walk]
    intro hloop
    cases hloop
  | cons name rest ih =>
    obtain ⟨hpart, hplain, -⟩ := Path.isFileName_iff.mp (hnames name (List.mem_cons_self ..))
    rw [List.append_cons] at h
    have hrest := ih h fun n hn => hnames n (List.mem_cons_of_mem _ hn)
    have hnext := h (here ++ [name]) (List.prefix_append ..)
    rw [walk_cons hpart hplain]
    intro hloop
    split at hloop
    · cases hloop
    · split at hloop
      · cases hloop
      · cases hentry : fs.entryAt (here ++ [name]) with
        | none =>
          rw [hentry] at hloop
          cases hloop
        | some e =>
          rw [hentry] at hloop
          cases e with
          | file bytes => cases rest <;> cases hloop
          | link target => exact absurd hentry (hnext target)
          | directory => exact hrest hloop

theorem entryAt_of_above {b : Address} (hbelow : b <+: a) (hne : b ≠ a) {e : Entry}
    (ha : fs.entryAt a = some e) : fs.entryAt b = some .directory := by
  obtain ⟨rest, rfl⟩ := hbelow
  -- From the end upwards: the parent of what is there is a directory, which has a parent again.
  induction rest using List.reverseRecOn generalizing e with
  | nil => exact absurd (List.append_nil b).symm hne
  | append_singleton rest name ih =>
    have hmem : b ++ rest ++ [name] ∈ fs.entries := by
      rw [← List.append_assoc, entryAt, if_neg (by simp)] at ha
      refine Decidable.byContradiction fun hmem => ?_
      rw [Table.find?_eq_none_iff.mpr hmem] at ha
      cases ha
    have hparent : fs.entryAt (b ++ rest) = some .directory := by
      rcases fs.parent_directory (b ++ rest) name hmem with hnil | hdirectory
      · rw [entryAt, if_pos hnil]
      · rw [entryAt]
        split
        · rfl
        · exact hdirectory
    by_cases hrest : rest = []
    · rwa [hrest, List.append_nil] at hparent
    · exact ih (by simpa using hrest) hparent

theorem unlinked_of_file {bytes : List UInt8} (ha : fs.entryAt a = some (.file bytes)) :
    fs.Unlinked a := by
  intro b hbelow target hlink
  by_cases hne : b = a
  · rw [hne, ha] at hlink
    cases hlink
  · rw [entryAt_of_above hbelow hne ha] at hlink
    cases hlink

theorem unlinked_concat {name : String} (hhere : fs.entryAt here = some .directory)
    (hend : ∀ target, fs.entryAt (here ++ [name]) ≠ some (.link target)) :
    fs.Unlinked (here ++ [name]) := by
  intro b hb target hlink
  rcases List.prefix_concat_iff.mp hb with rfl | habove
  · exact hend target hlink
  · by_cases hne : b = here
    · rw [hne, hhere] at hlink
      cases hlink
    · rw [entryAt_of_above habove hne hhere] at hlink
      cases hlink

theorem Unlinked.erase (h : fs.Unlinked a) (gone : Address) : (fs.erase gone).Unlinked a := by
  intro b hbelow target hlink
  have hkept := h b hbelow target
  unfold entryAt Files.erase at hlink
  unfold entryAt at hkept
  split at hlink
  · cases hlink
  · rename_i hb
    rw [if_neg hb] at hkept
    rw [Table.find?_filter, Option.filter_eq_some_iff] at hlink
    exact hkept hlink.1

theorem target_of_isFileName {name : String} (hname : Path.isFileName name = true) (here : Address) :
    targetNames name = [name] ∧ targetStart here name = here := by
  obtain ⟨-, -, hslash, -⟩ := Path.isFileName_iff.mp hname
  constructor
  · have hfree : ∀ part ∈ [name], '/' ∉ part.toList := by simpa using hslash
    have hsplit := Text.splitOnChar_joinWith (List.cons_ne_nil name []) hfree
    rwa [Text.joinWith, String.intercalate_singleton] at hsplit
  · have hstart : Text.startsWith name "/" = false := by
      rw [Bool.eq_false_iff, Text.startsWith, Ne, List.isPrefixOf_iff_prefix]
      intro hbegins
      exact hslash (hbegins.subset (by decide))
    simp [targetStart, hstart]

theorem walk_selfLink {name : String} (hname : Path.isFileName name = true)
    (hsearchable : fs.access.searchable here = true) (hshort : name.utf8ByteSize ≤ Path.nameLimit)
    (hlink : fs.entryAt (here ++ [name]) = some (.link name)) (links : Nat) :
    fs.walk links here [name] = .error .linkLoop := by
  obtain ⟨hpart, hplain, -⟩ := Path.isFileName_iff.mp hname
  obtain ⟨hnames, hstart⟩ := target_of_isFileName hname here
  -- The link leads to itself, with one link less to follow.
  induction links with
  | zero =>
    rw [walk_cons hpart hplain]
    simp [hsearchable, Nat.not_lt.mpr hshort, hlink]
  | succ links ih =>
    rw [walk_cons hpart hplain]
    simp [hsearchable, Nat.not_lt.mpr hshort, hlink, hnames, hstart, ih]

theorem follow_selfLink {name : String} (hname : Path.isFileName name = true)
    (hlink : fs.lstat? (here ++ [name]) = some (.link name)) :
    fs.follow [] here [name] = ⟨here ++ [name], false⟩ := by
  obtain ⟨hpart, hplain, -⟩ := Path.isFileName_iff.mp hname
  obtain ⟨hnames, hstart⟩ := target_of_isFileName hname here
  have hopened : fs.follow [here ++ [name]] here [name] = ⟨here ++ [name], false⟩ := by
    rw [follow, if_neg hplain, if_pos hpart]
    dsimp only
    split
    · simp [giveUp, plainAddress]
    · rename_i hother
      exact (hother _ hlink).elim
  rw [follow, if_neg hplain, if_pos hpart]
  dsimp only
  split
  · rename_i target htarget
    obtain rfl : name = target := by simpa using hlink.symm.trans htarget
    simp [hnames, hstart, hopened, giveUp, plainAddress]
  · rename_i hother
    exact (hother _ hlink).elim

end Files

theorem Environment.resolve_of_unlinked {env : Environment} {a : Address} (h : env.files.Unlinked a)
    (ha : ∀ name ∈ a, Path.isFileName name = true) : env.resolve ⟨"/", a⟩ = .ok a := by
  have hnames : env.names ⟨"/", a⟩ = a := rfl
  have hnull := Path.hasNull_eq_false ha
  have hfind : env.find ⟨"/", a⟩ ≠ .error .linkLoop := by
    rw [find, hnull, if_neg Bool.false_ne_true]
    intro hloop
    split at hloop
    · cases hloop
    · rw [← List.nil_append a] at h
      exact h.walk_ne_linkLoop ha Files.linkLimit hloop
  unfold resolve
  simp only [hnames, h.realAddress_eq ha, hnull, Bool.false_eq_true, if_false]

theorem Environment.resolve_selfLink {env : Environment} {here : Address} {name : String}
    (hhere : env.files.DirectoryAt here) (hsearchable : env.files.access.searchable here = true)
    (hlink : env.files.entryAt (here ++ [name]) = some (.link name))
    (hnames : ∀ part ∈ here ++ [name], Path.isFileName part = true)
    (hname : name.utf8ByteSize ≤ Path.nameLimit)
    (hshort : (Address.text (here ++ [name])).utf8ByteSize ≤ Path.textLimit) :
    env.resolve ⟨"/", here ++ [name]⟩ = .error (.linkLoop (Address.text (here ++ [name]))) := by
  have hfile : Path.isFileName name = true := hnames name (by simp)
  have hreaches : env.files.reaches (here ++ [name]) = true := by
    simp [Files.reaches, hshort, Files.searchableAlong_append, hhere.searchableAlong_eq,
      Files.searchableAlong, hsearchable]
  have hseen : env.files.lstat? (here ++ [name]) = some (.link name) := by
    rw [Files.lstat?, if_pos hreaches, hlink]
  have hreal : env.files.realAddress (here ++ [name]) = here ++ [name] := by
    rw [Files.realAddress, hhere.follow_append, Files.follow_selfLink hfile hseen]
  have hnull := Path.hasNull_eq_false hnames
  have hpath : env.names ⟨"/", here ++ [name]⟩ = here ++ [name] := rfl
  have hfind : env.find ⟨"/", here ++ [name]⟩ = .error .linkLoop := by
    rw [find, hnull, if_neg Bool.false_ne_true, Path.text_absolute, if_neg (Nat.not_lt.mpr hshort), hpath,
      Files.find, hhere.walk_append, Files.walk_selfLink hfile hsearchable hname hlink]
  unfold resolve
  simp only [hpath, hreal, hfind, hnull, Bool.false_eq_true, if_false]

end FlowAtlas
