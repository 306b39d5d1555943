import FlowAtlas.Proofs.NameEndings
import FlowAtlas.Proofs.WatchedFiles

/-! The events that become notices. One path of an event must fit the patterns and one must be relevant. For a
file that stays in its place these are the same path, so a crawl would read it, unless its name is nothing but
an extension. A move may have the one at its source and the other at its destination, and becomes a notice
though a crawl would read neither. -/

namespace FlowAtlas

def Channels.Grows (cs : Channels) (env : Environment) (e : FileEvent) (h : Handler) : Prop :=
  (cs.deliver env e h).pending h.channel ≠ cs.pending h.channel

theorem FileEvent.notice?_eq_some_iff {e : FileEvent} {n : Notice} : e.notice? = some n ↔
    e.ofDirectory = false ∧ e.kind ≠ .opened ∧ e.kind ≠ .closed ∧ n = ⟨e.kind, .ofString e.source,
      if e.kind = .moved then some (.ofString e.destination) else none⟩ := by
  obtain ⟨kind, source, destination, ofDirectory⟩ := e
  cases ofDirectory <;> cases kind <;> simp [notice?, eq_comm]

namespace Handler
variable {h : Handler} {env : Environment} {e : FileEvent} {n : Notice}

theorem isRelevant_eq_true_iff : h.isRelevant env n = .ok true ↔
    h.relevant env n.source = .ok true ∨ h.relevant env n.source = .ok false ∧
      ∃ p, n.destination = some p ∧ h.relevant env p = .ok true := by
  unfold isRelevant
  cases h.relevant env n.source with
  | error fault =>
    simp only [reduceCtorEq, false_and, or_false, iff_false]
    intro h
    cases h
  | ok answer =>
    cases answer with
    | true => exact iff_of_true rfl (.inl rfl)
    | false =>
      cases n.destination with
      | none => simp [pure, Except.pure, bind, Except.bind]
      | some p => simp [bind, Except.bind]

theorem dispatch?_eq_some_iff (hconflicts : h.conflicts = []) :
    h.dispatch? env e = .ok (some n) ↔
      e.notice? = some n ∧ (h.wants e.source = true ∨ h.wants e.destination = true) ∧
        h.isRelevant env n = .ok true := by
  rw [or_comm, ← Bool.or_eq_true]
  by_cases hwants : (h.wants e.destination || h.wants e.source) = true
  · cases hn : e.notice? with
    | none =>
      have hnone : h.dispatch? env e = .ok none := by
        rw [dispatch?, hconflicts, if_neg (not_not_intro rfl), if_pos hwants, forward?, hn]
        exact ite_self _
      simp [hnone]
    | some notice =>
      rw [dispatch?_of_wants hconflicts hn hwants]
      constructor
      · intro hput
        cases hrelevant : h.isRelevant env notice with
        | error fault =>
          rw [hrelevant] at hput
          cases hput
        | ok answer =>
          rw [hrelevant] at hput
          cases answer <;> cases hput
          exact ⟨rfl, hwants, hrelevant⟩
      · intro hput
        obtain ⟨heq, _, hrelevant⟩ := hput
        cases heq
        rw [hrelevant]
        rfl
  · have hnone : h.dispatch? env e = .ok none := by
      rw [dispatch?, hconflicts, if_neg (not_not_intro rfl), if_neg hwants]
      exact ite_self _
    simp [hnone, hwants]

end Handler

namespace Crawler
variable {c : Crawler} {root : Address} {env : Environment} {path : String} {channel : Nat} {cs : Channels}
  {e : FileEvent} {n : Notice}

/-- The path leads below the root into no ignored directory and to no test. -/
def MayMatter (c : Crawler) (root : Address) (env : Environment) (path : String) : Prop :=
  ∃ names, env.resolve (.ofString path) = .ok (root ++ names) ∧ c.mayRead names = true

/-- A crawl would read a file at this path, for it has a language as well. -/
structure WouldRead (c : Crawler) (root : Address) (env : Environment) (path : String) : Prop where
  matters : c.MayMatter root env path
  language : (languageOf? (Path.ofString path).name).isSome = true

theorem isRelevant_iff :
    c.isRelevant root env (.ofString path) = .ok true ↔ c.MayMatter root env path := by
  unfold isRelevant MayMatter
  cases env.resolve (.ofString path) with
  | error fault => cases fault <;> simp
  | ok a =>
    simp only [Except.ok.injEq, Bool.and_eq_true, List.isPrefixOf_iff_prefix]
    constructor
    · intro h
      obtain ⟨⟨names, rfl⟩, hread⟩ := h
      rw [List.drop_left] at hread
      exact ⟨names, rfl, hread⟩
    · intro h
      obtain ⟨names, rfl, hread⟩ := h
      rw [List.drop_left]
      exact ⟨List.prefix_append root names, hread⟩

theorem isRelevant_eq_false_iff : c.isRelevant root env (.ofString path) = .ok false ↔
    ¬ c.MayMatter root env path ∧ ¬ env.LinkLoop path := by
  rw [← isRelevant_iff]
  obtain ⟨place, hloop, hfault⟩ | ⟨hnone, answer, hanswer⟩ := isRelevant_cases c env root path
  · rw [hfault]
    exact iff_of_false (fun h => by cases h) fun h => h.2 ⟨place, hloop⟩
  · rw [hanswer]
    cases answer with
    | true => simp
    | false => simp [hnone]

theorem grows_iff (hmade : channel < cs.count) : cs.Grows env e (c.handler root channel) ↔
    ∃ n, (c.handler root channel).dispatch? env e = .ok (some n) := by
  unfold Channels.Grows Channels.deliver
  split
  · rename_i n hn
    have hput : (cs.put channel n).pending channel ≠ cs.pending channel := by
      rw [cs.pending_put hmade]
      simp
    exact iff_of_true hput ⟨n, hn⟩
  · rename_i hnone
    simpa using hnone

theorem not_fitsName_empty (c : Crawler) (root : Address) (channel : Nat) :
    (c.handler root channel).fitsName (Path.ofString "").name = false := by
  rw [Bool.eq_false_iff, Ne, fitsName_iff]
  decide +kernel

theorem exists_notice_iff (hwants : ∀ path ∈ [e.source, e.destination],
      (c.handler root channel).wants path = (c.handler root channel).fitsName (Path.ofString path).name) :
    (∃ n, (c.handler root channel).dispatch? env e = .ok (some n)) ↔
    (e.ofDirectory = false ∧ e.kind ≠ .opened ∧ e.kind ≠ .closed) ∧
    (∃ path ∈ [e.source, e.destination],
      (c.handler root channel).fitsName (Path.ofString path).name = true) ∧
    (c.MayMatter root env e.source ∨
      e.kind = .moved ∧ ¬ env.LinkLoop e.source ∧ c.MayMatter root env e.destination) := by
  have hrelevant : (c.handler root channel).relevant = c.isRelevant root := rfl
  simp only [Handler.dispatch?_eq_some_iff (conflicts_handler c root channel),
    FileEvent.notice?_eq_some_iff, Handler.isRelevant_eq_true_iff, hrelevant,
    hwants e.source List.mem_cons_self, hwants e.destination (by simp)]
  constructor
  · intro h
    obtain ⟨n, ⟨hfile, hopened, hclosed, rfl⟩, hfits, hmatters⟩ := h
    refine ⟨⟨hfile, hopened, hclosed⟩, by simpa using hfits, ?_⟩
    obtain hsource | ⟨hsource, p, hp, hdestination⟩ := hmatters
    · exact .inl (isRelevant_iff.mp hsource)
    · split at hp
      · rename_i hmoved
        cases hp
        exact .inr ⟨hmoved, (isRelevant_eq_false_iff.mp hsource).2, isRelevant_iff.mp hdestination⟩
      · cases hp
  · intro h
    obtain ⟨⟨hfile, hopened, hclosed⟩, hfits, hmatters⟩ := h
    refine ⟨_, ⟨hfile, hopened, hclosed, rfl⟩, by simpa using hfits, ?_⟩
    by_cases hsource : c.MayMatter root env e.source
    · exact .inl (isRelevant_iff.mpr hsource)
    · obtain ⟨hmoved, hloop, hdestination⟩ := hmatters.resolve_left hsource
      rw [if_pos hmoved]
      exact .inr ⟨isRelevant_eq_false_iff.mpr ⟨hsource, hloop⟩, _, rfl, isRelevant_iff.mpr hdestination⟩

/-- An event adds to the channel of the root's handler just if it tells of a change of a file, the name of one
of its paths fits the patterns, and one of them may matter; the destination of a move only counts if its source
runs into no loop of links. Then a crawl would read one of its paths, with two exceptions. One that may matter
can have a name that is nothing but an extension; and a move can lead from a path that fits to one that may
matter, or back, where the one does not matter and the other has no language. -/
theorem forwarded_events (c : Crawler) (root : Address) (env : Environment) (channel : Nat) (cs : Channels)
    (e : FileEvent) (hmade : channel < cs.count) (hends : e.kind ≠ .moved → e.destination = "")
    (hwants : ∀ path ∈ [e.source, e.destination],
      (c.handler root channel).wants path = (c.handler root channel).fitsName (Path.ofString path).name) :
    (cs.Grows env e (c.handler root channel) ↔
      (e.ofDirectory = false ∧ e.kind ≠ .opened ∧ e.kind ≠ .closed) ∧
      (∃ path ∈ [e.source, e.destination],
        (c.handler root channel).fitsName (Path.ofString path).name = true) ∧
      (c.MayMatter root env e.source ∨
        e.kind = .moved ∧ ¬ env.LinkLoop e.source ∧ c.MayMatter root env e.destination)) ∧
    (cs.Grows env e (c.handler root channel) →
      (∃ path ∈ [e.source, e.destination], c.WouldRead root env path) ∨
      (∃ path ∈ [e.source, e.destination], c.MayMatter root env path ∧
        Text.lower (Path.ofString path).name ∈ Language.supportedExtensions) ∨
      e.kind = .moved ∧ ∃ p q, ([p, q] = [e.source, e.destination] ∨ [q, p] = [e.source, e.destination]) ∧
        (c.handler root channel).fitsName (Path.ofString p).name = true ∧ ¬ c.MayMatter root env p ∧
        c.MayMatter root env q ∧ languageOf? (Path.ofString q).name = none) := by
  rw [grows_iff hmade]
  refine ⟨exists_notice_iff hwants, fun hput => ?_⟩
  obtain ⟨_, ⟨p, hp, hfits⟩, hmatters⟩ := (exists_notice_iff hwants).mp hput
  by_cases hpMatters : c.MayMatter root env p
  · rcases (fitsName_iff c root channel).mp hfits with hlanguage | hbare
    · exact .inl ⟨p, hp, hpMatters, hlanguage⟩
    · exact .inr (.inl ⟨p, hp, hpMatters, hbare⟩)
  · -- Another path of the event matters, so it is a move and this is its other end.
    have hother : e.kind = .moved ∧ ∃ q, ([p, q] = [e.source, e.destination] ∨
        [q, p] = [e.source, e.destination]) ∧ c.MayMatter root env q := by
      rcases List.mem_pair.mp hp with rfl | rfl
      · obtain ⟨hmoved, _, hdestination⟩ := hmatters.resolve_left hpMatters
        exact ⟨hmoved, _, .inl rfl, hdestination⟩
      · have hmoved : e.kind = .moved := by
          by_contra hplace
          rw [hends hplace, not_fitsName_empty] at hfits
          cases hfits
        have hsource := hmatters.resolve_right fun h => hpMatters h.2.2
        exact ⟨hmoved, _, .inr rfl, hsource⟩
    obtain ⟨hmoved, q, hpq, hqMatters⟩ := hother
    cases hlanguage : languageOf? (Path.ofString q).name with
    | none => exact .inr (.inr ⟨hmoved, p, q, hpq, hfits, hpMatters, hqMatters, hlanguage⟩)
    | some l =>
      have hq : q ∈ [e.source, e.destination] := by
        rcases hpq with hpq | hpq <;> simp [← hpq]
      exact .inl ⟨q, hq, hqMatters, by rw [hlanguage]; rfl⟩

theorem mayMatter_sample : MayMatter {} ["p"] sampleEnvironment "/p/a.rs" := by
  have hfile : sampleEnvironment.files.entryAt ["p", "a.rs"] = some (.file (Text.Utf8.encode sampleText)) := by
    decide +kernel
  exact isRelevant_iff.mp (isRelevant_sample (Files.unlinked_of_file hfile))

theorem forwarded_events_sample :
    let h := handler {} ["p"] 0
    let e : FileEvent := ⟨.modified, "/p/a.rs", "", false⟩
    (Channels.make {}).Grows sampleEnvironment e h ∧
      ∃ path ∈ [e.source, e.destination], WouldRead {} ["p"] sampleEnvironment path := by
  intro h e
  have hlanguage : languageOf? "a.rs" = some .rust := by decide +kernel
  have hname : (Path.ofString "/p/a.rs").name = "a.rs" := by decide +kernel
  have hfits : h.fitsName (Path.ofString "/p/a.rs").name = true := by
    rw [hname]
    exact fitsName_handler hlanguage {} ["p"] 0
  have hnothing : h.wants "" = false := by
    have hpatterns : ∀ ext ∈ Language.supportedExtensions, Pattern.fits ("*" ++ ext) "" = false := by
      decide +kernel
    rw [Handler.wants, Bool.and_eq_false_iff, List.any_eq_false]
    left
    intro pattern hpattern
    obtain ⟨ext, hext, rfl⟩ := mem_patterns_handler.mp hpattern
    simpa using hpatterns ext hext
  have hwants : ∀ path ∈ [e.source, e.destination], h.wants path = h.fitsName (Path.ofString path).name := by
    intro path hpath
    rcases List.mem_pair.mp hpath with rfl | rfl
    · exact (wants_sample 0).trans hfits.symm
    · exact hnothing.trans (not_fitsName_empty {} ["p"] 0).symm
  obtain ⟨hgrows, hread⟩ := forwarded_events {} ["p"] sampleEnvironment 0 (Channels.make {}) e (by decide)
    (fun _ => rfl) hwants
  have hput := hgrows.mpr ⟨⟨rfl, by decide, by decide⟩, ⟨_, List.mem_cons_self, hfits⟩, .inl mayMatter_sample⟩
  obtain hread | ⟨path, hpath, _, hbare⟩ | ⟨hmoved, _⟩ := hread hput
  · exact ⟨hput, hread⟩
  · have hbare' : ∀ path ∈ ["/p/a.rs", ""],
        Text.lower (Path.ofString path).name ∉ Language.supportedExtensions := by decide +kernel
    exact absurd hbare (hbare' path hpath)
  · cases hmoved

theorem resolve_sample {name : String} (hname : Path.isFileName name = true)
    (hnothing : sampleEnvironment.files.entryAt (["p"] ++ [name]) = none) :
    sampleEnvironment.resolve (.ofString (Address.text (["p"] ++ [name]))) = .ok (["p"] ++ [name]) := by
  have hunlinked : sampleEnvironment.files.Unlinked (["p"] ++ [name]) :=
    Files.unlinked_concat (by decide +kernel) fun target hlink => by
      rw [hnothing] at hlink
      cases hlink
  have hnames : ∀ part ∈ ["p"] ++ [name], Path.isFileName part = true := by
    intro part hpart
    rcases List.mem_pair.mp hpart with rfl | rfl
    · decide +kernel
    · exact hname
  rw [Path.ofString_text hnames]
  exact Environment.resolve_of_unlinked hunlinked hnames

/-- A test that is renamed to a text is nothing that a crawl would read, neither before nor afterwards, but
its event becomes a notice. -/
theorem renamed_test_forwarded :
    let h := handler {} ["p"] 0
    let e : FileEvent := ⟨.moved, "/p/a_test.rs", "/p/b.txt", false⟩
    h.fitsName "a_test.rs" = true ∧ h.wants "/p/a_test.rs" = true ∧
      (Channels.make {}).Grows sampleEnvironment e h ∧
      ¬ WouldRead {} ["p"] sampleEnvironment "/p/a_test.rs" ∧
      ¬ WouldRead {} ["p"] sampleEnvironment "/p/b.txt" := by
  intro h e
  have hlanguage : languageOf? "a_test.rs" = some .rust := by decide +kernel
  have hpath : "/p/a_test.rs".toList = '/' :: "p/a_test.rs".toList := by decide +kernel
  have hwants : h.wants "/p/a_test.rs" = true := by
    refine wants_handler hlanguage hpath (by decide +kernel) (fun c hc => ?_) {} ["p"] 0
    have hhead : "p/a_test.rs".toList.head? = some 'p' := by decide +kernel
    obtain rfl : 'p' = c := by simpa [hhead] using hc
    decide
  have htest : sampleEnvironment.resolve (.ofString "/p/a_test.rs") = .ok (["p"] ++ ["a_test.rs"]) := by
    have htext : Address.text (["p"] ++ ["a_test.rs"]) = "/p/a_test.rs" := by decide +kernel
    rw [← htext]
    exact resolve_sample (by decide +kernel) (by decide +kernel)
  have hrenamed : sampleEnvironment.resolve (.ofString "/p/b.txt") = .ok (["p"] ++ ["b.txt"]) := by
    have htext : Address.text (["p"] ++ ["b.txt"]) = "/p/b.txt" := by decide +kernel
    rw [← htext]
    exact resolve_sample (by decide +kernel) (by decide +kernel)
  have hmatters : MayMatter {} ["p"] sampleEnvironment "/p/b.txt" :=
    ⟨["b.txt"], hrenamed, by decide +kernel⟩
  have hnotMatters : ¬ MayMatter {} ["p"] sampleEnvironment "/p/a_test.rs" := by
    intro h
    obtain ⟨names, hnames, hread⟩ := h
    obtain rfl : ["a_test.rs"] = names :=
      List.append_cancel_left (Except.ok.inj (htest.symm.trans hnames))
    revert hread
    decide +kernel
  have hanswer : ¬ sampleEnvironment.LinkLoop "/p/a_test.rs" := by
    intro h
    obtain ⟨place, hloop⟩ := h
    cases htest.symm.trans hloop
  have hgrows : (Channels.make {}).Grows sampleEnvironment e h := by
    rw [grows_iff (by decide)]
    refine ⟨⟨.moved, .ofString e.source, some (.ofString e.destination)⟩, ?_⟩
    rw [Handler.dispatch?_eq_some_iff (conflicts_handler {} ["p"] 0), Handler.isRelevant_eq_true_iff]
    exact ⟨rfl, .inl hwants, .inr ⟨isRelevant_eq_false_iff.mpr ⟨hnotMatters, hanswer⟩, _, rfl,
      isRelevant_iff.mpr hmatters⟩⟩
  have hnone : languageOf? (Path.ofString "/p/b.txt").name = none := by decide +kernel
  refine ⟨fitsName_handler hlanguage {} ["p"] 0, hwants, hgrows, fun h => hnotMatters h.matters, fun h => ?_⟩
  have hlanguage := h.language
  rw [hnone] at hlanguage
  cases hlanguage

end Crawler
end FlowAtlas
