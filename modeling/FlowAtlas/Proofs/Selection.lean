import FlowAtlas.Crawl.Selection
import FlowAtlas.Proofs.Table
import Mathlib.Data.List.Infix
import Mathlib.Data.List.Nodup
import Mathlib.Data.List.Sort
import Mathlib.Data.String.Basic

/-! The candidates of a crawl: they are the files below the root that stand in no ignored directory, and
the order of the crawl is the only order in which they can come. -/

namespace FlowAtlas

section Order
variable {x y z : List String}

/-- A file comes before every directory beside it. Of two files or two directories, the first by name
comes first, and what stands in the same directory is compared there. -/
theorem crawlLe_cons_cons {a b : String} {as bs : List String} :
    crawlLe (a :: as) (b :: bs) = true ↔
      as = [] ∧ bs ≠ [] ∨ (as = [] ↔ bs = []) ∧ (a < b ∨ a = b ∧ crawlLe as bs = true) := by
  have hle : a ≤ b ↔ a < b ∨ a = b := le_iff_lt_or_eq
  cases as with
  | nil => cases bs <;> simp [crawlLe, hle]
  | cons a' as =>
    cases bs with
    | nil => simp [crawlLe]
    | cons b' bs =>
      rw [crawlLe]
      · by_cases hab : a = b <;> simp [hab, hle]
      all_goals simp

theorem crawlLe_total (x y : List String) : (crawlLe x y || crawlLe y x) = true := by
  rw [Bool.or_eq_true]
  induction x generalizing y with
  | nil => exact .inl rfl
  | cons a as ih =>
    cases y with
    | nil => exact .inr rfl
    | cons b bs =>
      rw [crawlLe_cons_cons, crawlLe_cons_cons]
      have hab : a < b ∨ a = b ∨ b < a := lt_trichotomy a b
      have := ih bs
      grind

theorem crawlLe_trans (hxy : crawlLe x y = true) (hyz : crawlLe y z = true) : crawlLe x z = true := by
  induction x generalizing y z with
  | nil => rfl
  | cons a as ih =>
    match y, z with
    | [], _ => cases hxy
    | _ :: _, [] => cases hyz
    | b :: bs, c :: cs =>
      rw [crawlLe_cons_cons] at hxy hyz ⊢
      have hlt : a < b → b < c → a < c := lt_trans
      have hrest : crawlLe as bs = true → crawlLe bs cs = true → crawlLe as cs = true := ih
      grind

theorem crawlLe_antisymm (hxy : crawlLe x y = true) (hyx : crawlLe y x = true) : x = y := by
  induction x generalizing y with
  | nil =>
    cases y with
    | nil => rfl
    | cons b bs => cases hyx
  | cons a as ih =>
    cases y with
    | nil => cases hxy
    | cons b bs =>
      rw [crawlLe_cons_cons] at hxy hyx
      have hlt : a < b → ¬ b < a := lt_asymm
      have hrest : crawlLe as bs = true → crawlLe bs as = true → as = bs := ih
      grind

def CrawlLt (x y : List String) : Prop :=
  crawlLe x y = true ∧ x ≠ y

theorem CrawlLt.asymm (hxy : CrawlLt x y) : ¬ CrawlLt y x :=
  fun hyx => hxy.2 (crawlLe_antisymm hxy.1 hyx.1)

theorem eq_of_pairwise_crawlLt {α : Type} {key : α → List String} {as bs : List α}
    (has : (as.map key).Pairwise CrawlLt) (hbs : (bs.map key).Pairwise CrawlLt)
    (hmem : ∀ a, a ∈ as ↔ a ∈ bs) : as = bs := by
  have : Std.Antisymm fun a b => CrawlLt (key a) (key b) := ⟨fun _ _ hab hba => absurd hba hab.asymm⟩
  have : Std.Irrefl fun a b => CrawlLt (key a) (key b) := ⟨fun _ h => h.2 rfl⟩
  exact (List.pairwise_map.mp has).eq_of_mem_iff (List.pairwise_map.mp hbs) hmem

end Order

theorem map_filterMap_sublist {α β γ : Type} {f : α → Option β} {before : α → γ} {after : β → γ}
    (h : ∀ a, ∀ b ∈ f a, after b = before a) (xs : List α) :
    ((xs.filterMap f).map after).Sublist (xs.map before) := by
  induction xs with
  | nil => exact .slnil
  | cons a rest ih =>
    cases hf : f a with
    | none =>
      rw [List.filterMap_cons_none hf, List.map_cons]
      exact ih.cons _
    | some b =>
      rw [List.filterMap_cons_some hf, List.map_cons, List.map_cons, h a b hf]
      exact ih.cons_cons _

namespace Files
variable {fs : Files} {root here : Address} {names : List String}

theorem mem_entriesUnder {e : Entry} :
    (names, e) ∈ fs.entriesUnder root ↔ fs.entries.find? (root ++ names) = some e := by
  rw [← Table.mem_entries_iff, entriesUnder, List.mem_filterMap]
  constructor
  · rintro ⟨⟨a, e'⟩, hentry, hbelow⟩
    obtain ⟨hunder, heq⟩ := Option.ite_none_right_eq_some.mp hbelow
    obtain ⟨rest, rfl⟩ := List.isPrefixOf_iff_prefix.mp hunder
    cases heq
    rwa [List.drop_left]
  · intro hentry
    refine ⟨_, hentry, ?_⟩
    have hunder : root.isPrefixOf (root ++ names) = true :=
      List.isPrefixOf_iff_prefix.mpr (List.prefix_append root names)
    simp [hunder]

theorem mem_filesUnder {bytes : List UInt8} :
    (names, bytes) ∈ fs.filesUnder root ↔ fs.entries.find? (root ++ names) = some (.file bytes) := by
  rw [← mem_entriesUnder, filesUnder, List.mem_filterMap]
  constructor
  · rintro ⟨⟨names', e⟩, hentry, hfile⟩
    cases e with
    | link target => cases hfile
    | directory => cases hfile
    | file bytes' =>
      cases hfile
      exact hentry
  · exact fun hentry => ⟨_, hentry, rfl⟩

theorem mem_leavesUnder : names ∈ fs.leavesUnder root ↔
    ∃ e, fs.entries.find? (root ++ names) = some e ∧ e ≠ .directory := by
  simp [leavesUnder, mem_entriesUnder]

theorem nodup_entriesUnder (fs : Files) (root : Address) :
    ((fs.entriesUnder root).map Prod.fst).Nodup := by
  have hkeys : ((fs.entriesUnder root).map fun entry => root ++ entry.1).Sublist
      (fs.entries.entries.map Prod.fst) := by
    refine map_filterMap_sublist ?_ _
    rintro ⟨a, e⟩ ⟨names, e'⟩ hbelow
    obtain ⟨hunder, heq⟩ := Option.ite_none_right_eq_some.mp hbelow
    cases heq
    exact (List.prefix_append_drop (List.isPrefixOf_iff_prefix.mp hunder)).symm
  have haddresses : (((fs.entriesUnder root).map Prod.fst).map (root ++ ·)).Nodup := by
    rw [List.map_map]
    exact fs.entries.nodup.sublist hkeys
  exact haddresses.of_map _

theorem nodup_filesUnder (fs : Files) (root : Address) :
    ((fs.filesUnder root).map Prod.fst).Nodup := by
  have hnames : ((fs.filesUnder root).map Prod.fst).Sublist ((fs.entriesUnder root).map Prod.fst) := by
    refine map_filterMap_sublist ?_ _
    rintro ⟨names, e⟩ file hfile
    cases e with
    | link target => cases hfile
    | directory => cases hfile
    | file bytes =>
      cases hfile
      rfl
  exact (fs.nodup_entriesUnder root).sublist hnames

theorem listsAlong_iff :
    fs.listsAlong here names = true ↔ ∀ d, d <+: names → fs.lists (here ++ d) = true := by
  induction names generalizing here with
  | nil => simp [listsAlong]
  | cons name rest ih =>
    rw [listsAlong, Bool.and_eq_true, ih]
    constructor
    · rintro ⟨hhere, hrest⟩ d hd
      rcases List.prefix_cons_iff.mp hd with rfl | ⟨more, rfl, hmore⟩
      · rwa [List.append_nil]
      · rw [List.append_cons]
        exact hrest more hmore
    · intro h
      refine ⟨?_, fun d hd => ?_⟩
      · rw [← List.append_nil here]
        exact h [] List.nil_prefix
      · rw [← List.append_cons]
        exact h (name :: d) (List.prefix_cons_iff.mpr (.inr ⟨d, rfl, hd⟩))

end Files

namespace Crawler
variable {c : Crawler} {fs : Files} {root : Address} {names : List String}

theorem meets_iff : c.meets fs root names = true ↔
    (∀ name ∈ names.dropLast, c.isIgnored name = false) ∧
      ∀ d, d <+: names.dropLast → fs.lists (root ++ d) = true := by
  rw [meets, Bool.and_eq_true, Files.listsAlong_iff]
  simp

theorem mem_candidates {bytes : List UInt8} : (names, bytes) ∈ c.candidates fs root ↔
    fs.entries.find? (root ++ names) = some (.file bytes) ∧ c.meets fs root names = true := by
  rw [candidates, List.mem_mergeSort, List.mem_filter, Files.mem_filesUnder]

theorem pairwise_candidates (c : Crawler) (fs : Files) (root : Address) :
    ((c.candidates fs root).map Prod.fst).Pairwise CrawlLt := by
  let kept := (fs.filesUnder root).filter fun file => c.meets fs root file.1
  have hkept : (kept.map Prod.fst).Nodup :=
    (fs.nodup_filesUnder root).sublist (List.filter_sublist.map _)
  have hnodup : ((c.candidates fs root).map Prod.fst).Nodup :=
    ((List.mergeSort_perm kept _).map Prod.fst).nodup_iff.mpr hkept
  have hsorted : (c.candidates fs root).Pairwise fun x y => crawlLe x.1 y.1 = true := by
    refine List.pairwise_mergeSort ?_ ?_ kept
    · exact fun _ _ _ => crawlLe_trans
    · exact fun x y => crawlLe_total x.1 y.1
  exact (List.pairwise_map.mpr hsorted).and hnodup

/-- Whatever file or link a crawl of the root comes to can be looked up. -/
def AllSeen (c : Crawler) (fs : Files) (root : Address) : Prop :=
  ∀ names e, fs.entries.find? (root ++ names) = some e → e ≠ .directory →
    c.meets fs root names = true → fs.reaches (root ++ names) = true

theorem mem_unseen : names ∈ c.unseen fs root ↔
    (∃ e, fs.entries.find? (root ++ names) = some e ∧ e ≠ .directory) ∧
      c.meets fs root names = true ∧ fs.reaches (root ++ names) = false := by
  rw [unseen, List.mem_mergeSort, List.mem_filter, Files.mem_leavesUnder]
  simp

theorem unseen_eq_nil_iff : c.unseen fs root = [] ↔ c.AllSeen fs root := by
  rw [List.eq_nil_iff_forall_not_mem]
  simp only [mem_unseen, AllSeen]
  constructor
  · intro h names e he hleaf hmeets
    have hnot := h names
    simpa using mt (fun hreaches => ⟨⟨e, he, hleaf⟩, hmeets, hreaches⟩) hnot
  · rintro h names ⟨⟨e, he, hleaf⟩, hmeets, hreaches⟩
    rw [h names e he hleaf hmeets] at hreaches
    cases hreaches

end Crawler
end FlowAtlas
