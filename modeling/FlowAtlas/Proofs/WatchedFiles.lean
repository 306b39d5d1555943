import FlowAtlas.Proofs.CrawlableFiles
import FlowAtlas.Proofs.EventPatterns
import FlowAtlas.Proofs.SessionRun

/-! The files that are watched. What a crawl reads passes through both filters of its handler, the patterns
and the question whether a path is relevant, so a change of it reaches the channel. Only a path of links that
lead back to themselves, from which a file was moved away, keeps a change from there. -/

namespace FlowAtlas

inductive FileEvent.Concerns (path : String) : FileEvent → Prop
  | source (kind : EventKind) (destination : String)
      (change : kind ∈ [EventKind.created, .modified, .deleted, .moved]) :
      Concerns path ⟨kind, path, destination, false⟩
  | destination (source : String) : Concerns path ⟨.moved, source, path, false⟩

/-- A path that runs into links that lead back to themselves. -/
def Environment.LinkLoop (env : Environment) (path : String) : Prop :=
  ∃ place, env.resolve (.ofString path) = .error (.linkLoop place)

namespace Environment
variable {env : Environment}

theorem resolve_cases (env : Environment) (path : String) :
    env.LinkLoop path ∨ env.resolve (.ofString path) = .error .nullInPath ∨
      ∃ a, env.resolve (.ofString path) = .ok a := by
  unfold LinkLoop resolve
  dsimp only
  split
  · exact .inr (.inl rfl)
  · split
    · exact .inl ⟨_, rfl⟩
    · exact .inr (.inr ⟨_, rfl⟩)

end Environment

namespace Crawler
variable {c : Crawler} {env : Environment} {root : Address} {names : List String} {channel : Nat}
  {bytes : List UInt8} {l : Language}

theorem mayRead_of_read (hcandidate : (names, bytes) ∈ c.candidates env.files root)
    (hread : readAs? names = some l) : c.mayRead names = true := by
  obtain ⟨hdirectories, -⟩ := meets_iff.mp (mem_candidates.mp hcandidate).2
  have hkept : names.dropLast.any c.isIgnored = false :=
    List.any_eq_false.mpr fun name hname => by simp [hdirectories name hname]
  have hnotTest : isTestFile names = false := by
    unfold readAs? at hread
    split at hread
    · cases hread
    · exact Bool.eq_false_iff.mpr fun htest => by simp [htest] at hread
  rw [mayRead, hkept, hnotTest]
  rfl

theorem isRelevant_of_mayRead (h : c.mayRead names = true) (hplain : env.files.Unlinked (root ++ names))
    (hnames : ∀ name ∈ root ++ names, Path.isFileName name = true) :
    c.isRelevant root env (.ofString (Address.text (root ++ names))) = .ok true := by
  have hunder : root.isPrefixOf (root ++ names) = true :=
    List.isPrefixOf_iff_prefix.mpr (List.prefix_append root names)
  rw [isRelevant, Path.ofString_text hnames, Environment.resolve_of_unlinked hplain hnames]
  simp [hunder, h]

theorem not_linkLoop_of_isRelevant {path : String} {answer : Bool}
    (h : c.isRelevant root env (.ofString path) = .ok answer) : ¬ env.LinkLoop path := by
  rintro ⟨place, hloop⟩
  rw [isRelevant, hloop] at h
  cases h

theorem isRelevant_cases (c : Crawler) (env : Environment) (root : Address) (path : String) :
    (∃ place, env.resolve (.ofString path) = .error (.linkLoop place) ∧
      c.isRelevant root env (.ofString path) = .error (.linkLoop place)) ∨
    ¬ env.LinkLoop path ∧ ∃ answer, c.isRelevant root env (.ofString path) = .ok answer := by
  rcases env.resolve_cases path with ⟨place, hloop⟩ | hnull | ⟨a, ha⟩
  · exact .inl ⟨place, hloop, by rw [isRelevant, hloop]⟩
  · refine .inr ⟨?_, false, by rw [isRelevant, hnull]⟩
    rintro ⟨place, hloop⟩
    cases hnull.symm.trans hloop
  · refine .inr ⟨?_, _, by rw [isRelevant, ha]⟩
    rintro ⟨place, hloop⟩
    cases ha.symm.trans hloop

end Crawler

namespace Handler
variable {h : Handler} {env : Environment} {e : FileEvent} {n : Notice}

theorem isRelevant_of_source (hsource : h.relevant env n.source = .ok true) :
    h.isRelevant env n = .ok true := by
  rw [isRelevant, hsource]
  rfl

/-- A source that is asked about first may be irrelevant, but it must have an answer. -/
theorem isRelevant_of_destination {answer : Bool} {p : Path}
    (hsource : h.relevant env n.source = .ok answer) (hn : n.destination = some p)
    (hdestination : h.relevant env p = .ok true) : h.isRelevant env n = .ok true := by
  rw [isRelevant, hsource, hn]
  cases answer with
  | true => rfl
  | false => exact hdestination

theorem isRelevant_of_fault {fault : Fault} (hsource : h.relevant env n.source = .error fault) :
    h.isRelevant env n = .error fault := by
  rw [isRelevant, hsource]
  rfl

theorem dispatch?_of_wants (hconflicts : h.conflicts = []) (hn : e.notice? = some n)
    (hwants : (h.wants e.destination || h.wants e.source) = true) :
    h.dispatch? env e = (h.isRelevant env n).map fun relevant => if relevant then some n else none := by
  have hfile : e.ofDirectory = false := by
    unfold FileEvent.notice? at hn
    split at hn
    · cases hn
    · rename_i hfile
      simpa using hfile
  rw [dispatch?, hfile, hconflicts, if_neg (by decide), if_neg (by simp), if_pos hwants, forward?, hn]
  dsimp only
  cases h.isRelevant env n <;> rfl

end Handler

namespace Crawler
variable {c : Crawler} {env : Environment} {root : Address} {names : List String} {channel : Nat}
  {bytes : List UInt8} {l : Language} {cs : Channels} {e : FileEvent}

/-- An event of a path that is wanted and relevant becomes a notice, unless the file was moved from a path
that runs into a loop of links. -/
theorem dispatch?_of_isRelevant {path : String} (hrelevant : c.isRelevant root env (.ofString path) = .ok true)
    (hwants : (c.handler root channel).wants path = true) (he : e.Concerns path) :
    ∃ n, e.notice? = some n ∧
      (¬ env.LinkLoop e.source → (c.handler root channel).dispatch? env e = .ok (some n)) ∧
      (∀ place, env.resolve (.ofString e.source) = .error (.linkLoop place) →
        (c.handler root channel).dispatch? env e = .error (.linkLoop place)) := by
  have hconflicts := conflicts_handler c root channel
  cases he with
  | source kind destination hchange =>
    obtain ⟨n, hn, hsource⟩ : ∃ n, FileEvent.notice? ⟨kind, path, destination, false⟩ = some n ∧
        n.source = .ofString path := by
      cases kind with
      | opened => simp at hchange
      | closed => simp at hchange
      | _ => exact ⟨_, rfl, rfl⟩
    rw [← hsource] at hrelevant
    have hanswer : (c.handler root channel).isRelevant env n = .ok true :=
      Handler.isRelevant_of_source hrelevant
    refine ⟨n, hn, fun _ => ?_, fun place hloop => ?_⟩
    · rw [Handler.dispatch?_of_wants hconflicts hn (by simp [hwants]), hanswer]
      rfl
    · rw [hsource] at hrelevant
      exact (not_linkLoop_of_isRelevant hrelevant ⟨place, hloop⟩).elim
  | destination source =>
    obtain ⟨n, hn, hsource, hdestination⟩ : ∃ n, FileEvent.notice? ⟨.moved, source, path, false⟩ = some n ∧
        n.source = .ofString source ∧ n.destination = some (.ofString path) := ⟨_, rfl, rfl, rfl⟩
    refine ⟨n, hn, ?_⟩
    rw [Handler.dispatch?_of_wants hconflicts hn (by simp [hwants])]
    -- The source is asked about first, and a loop of links gives no answer.
    rcases isRelevant_cases c env root source with ⟨place, hloop, hfault⟩ | ⟨hnone, answer, hanswer⟩
    · refine ⟨fun hnone => (hnone ⟨place, hloop⟩).elim, fun place' hloop' => ?_⟩
      obtain rfl : place = place' := by simpa using hloop.symm.trans hloop'
      rw [← hsource] at hfault
      have hstopped : (c.handler root channel).isRelevant env n = .error (.linkLoop place) :=
        Handler.isRelevant_of_fault hfault
      rw [hstopped]
      rfl
    · refine ⟨fun _ => ?_, fun place hloop => (hnone ⟨place, hloop⟩).elim⟩
      rw [← hsource] at hanswer
      have hgranted : (c.handler root channel).isRelevant env n = .ok true :=
        Handler.isRelevant_of_destination hanswer hdestination hrelevant
      rw [hgranted]
      rfl

theorem wants_sample (channel : Nat) : (handler {} ["p"] channel).wants "/p/a.rs" = true := by
  have hlanguage : languageOf? "a.rs" = some .rust := by decide +kernel
  have hpath : "/p/a.rs".toList = '/' :: "p/a.rs".toList := by decide +kernel
  have hhead : "p/a.rs".toList.head? = some 'p' := by decide +kernel
  refine wants_handler hlanguage hpath (by decide +kernel) (fun c hc => ?_) {} ["p"] channel
  obtain rfl : 'p' = c := by simpa [hhead] using hc
  decide

theorem isRelevant_sample (h : env.files.Unlinked ["p", "a.rs"]) :
    isRelevant {} ["p"] env (.ofString "/p/a.rs") = .ok true := by
  have hmay : mayRead {} ["a.rs"] = true := by decide +kernel
  have hpath : Address.text (["p"] ++ ["a.rs"]) = "/p/a.rs" := by decide +kernel
  rw [← hpath]
  exact isRelevant_of_mayRead hmay h (by decide +kernel)

/-- Every file that a crawl reads is watched. Nothing in its way is a link, while it is there and once it is
gone; and as long as this is so, each event of it that tells of a change puts exactly one notice on the
channel of the root's handler, if a path whose name fits the patterns is wanted. The one exception is a move
from a path that runs into a loop of links: the question whether that path is relevant then fails, and
nothing is put. -/
theorem read_files_watched (c : Crawler) (env : Environment) (root : Address) (names : List String)
    (bytes : List UInt8) (l : Language) (channel : Nat)
    (hnames : ∀ name ∈ root ++ names, Path.isFileName name = true)
    (hcandidate : (names, bytes) ∈ c.candidates env.files root) (hread : readAs? names = some l)
    (hwants : (c.handler root channel).fitsName (names.getLast?.getD "") = true →
      (c.handler root channel).wants (Address.text (root ++ names)) = true) :
    env.files.Unlinked (root ++ names) ∧ (env.files.erase (root ++ names)).Unlinked (root ++ names) ∧
    ∀ env' : Environment, env'.files.Unlinked (root ++ names) →
      ¬ env'.LinkLoop (Address.text (root ++ names)) ∧
      ∀ cs : Channels, channel < cs.count → ∀ e : FileEvent, e.Concerns (Address.text (root ++ names)) →
        ∃ n, e.notice? = some n ∧
          (¬ env'.LinkLoop e.source →
            (cs.deliver env' e (c.handler root channel)).pending channel = cs.pending channel ++ [n]) ∧
          (env'.LinkLoop e.source →
            (cs.deliver env' e (c.handler root channel)).pending channel = cs.pending channel) := by
  have hlanguage : languageOf? (names.getLast?.getD "") = some l :=
    ((readAs?_eq_some_iff (meets_iff.mp (mem_candidates.mp hcandidate).2).1).mp hread).1
  have hfile : env.files.entryAt (root ++ names) = some (.file bytes) := by
    rw [entryAt_of_language hlanguage]
    exact (mem_candidates.mp hcandidate).1
  have hplain := Files.unlinked_of_file hfile
  have hwanted := hwants (fitsName_handler hlanguage c root channel)
  have hmay := mayRead_of_read hcandidate hread
  refine ⟨hplain, hplain.erase _, fun env' hplain' => ?_⟩
  have hrelevant := isRelevant_of_mayRead hmay hplain' hnames
  refine ⟨not_linkLoop_of_isRelevant hrelevant, fun cs hmade e he => ?_⟩
  obtain ⟨n, hn, hput, hfault⟩ := dispatch?_of_isRelevant hrelevant hwanted he
  refine ⟨n, hn, fun hnone => ?_, fun hloop => ?_⟩
  · rw [Channels.deliver, hput hnone]
    exact cs.pending_put hmade n
  · obtain ⟨place, hplace⟩ := hloop
    rw [Channels.deliver, hfault place hplace]

theorem read_files_watched_sample :
    let h := handler {} ["p"] 0
    let cs := Channels.make {}
    let gone := { sampleEnvironment with files := sampleEnvironment.files.erase ["p", "a.rs"] }
    ∃ n n', FileEvent.notice? ⟨.deleted, "/p/a.rs", "", false⟩ = some n ∧
      (cs.deliver gone ⟨.deleted, "/p/a.rs", "", false⟩ h).pending 0 = [n] ∧
      FileEvent.notice? ⟨.moved, "/p/a.rs~", "/p/a.rs", false⟩ = some n' ∧
      (cs.deliver sampleEnvironment ⟨.moved, "/p/a.rs~", "/p/a.rs", false⟩ h).pending 0 = [n'] := by
  intro h cs gone
  have hcandidates : candidates {} sampleEnvironment.files ["p"] =
      [(["a.rs"], Text.Utf8.encode sampleText)] := by decide +kernel
  obtain ⟨hplain, hplain', hwatched⟩ := read_files_watched {} sampleEnvironment ["p"] ["a.rs"]
    (Text.Utf8.encode sampleText) .rust 0 (by decide +kernel)
    (by rw [hcandidates]; exact List.mem_cons_self ..) (by decide +kernel) fun _ => wants_sample 0
  have hpath : Address.text (["p"] ++ ["a.rs"]) = "/p/a.rs" := by decide +kernel
  rw [hpath] at hwatched
  have hmade : 0 < cs.count := by decide
  obtain ⟨hgone, hdeleted⟩ := hwatched gone hplain'
  obtain ⟨n, hn, hput, -⟩ := hdeleted cs hmade _ (.source .deleted "" (by decide))
  obtain ⟨-, hmoved⟩ := hwatched sampleEnvironment hplain
  obtain ⟨n', hn', hput', -⟩ := hmoved cs hmade _ (.destination "/p/a.rs~")
  -- There is nothing at the old path any more, so no link either.
  have hsource : ¬ sampleEnvironment.LinkLoop "/p/a.rs~" := by
    have hnothing : sampleEnvironment.files.entryAt (["p"] ++ ["a.rs~"]) = none := by decide +kernel
    have hunlinked : sampleEnvironment.files.Unlinked (["p"] ++ ["a.rs~"]) :=
      Files.unlinked_concat (by decide +kernel) fun target hlink => by
        rw [hnothing] at hlink
        cases hlink
    have hresolve := Environment.resolve_of_unlinked hunlinked (by decide +kernel)
    rintro ⟨place, hloop⟩
    rw [show Path.ofString "/p/a.rs~" = ⟨"/", ["p"] ++ ["a.rs~"]⟩ by decide +kernel, hresolve] at hloop
    cases hloop
  exact ⟨n, n', hn, hput hgone, hn', hput' hsource⟩

def loopedEnvironment : Environment :=
  { sampleEnvironment with files := sampleEnvironment.files.put ["p"] "b.rs" (.link "b.rs") }

/-- A move from a link that leads back to itself to a file that the crawl reads puts nothing on the channel. -/
theorem move_from_link_loop_lost :
    let h := handler {} ["p"] 0
    let e : FileEvent := ⟨.moved, "/p/b.rs", "/p/a.rs", false⟩
    (["a.rs"], Text.Utf8.encode sampleText) ∈ candidates {} loopedEnvironment.files ["p"] ∧
      readAs? ["a.rs"] = some .rust ∧ e.Concerns "/p/a.rs" ∧ h.fitsName "a.rs" = true ∧
      h.wants "/p/a.rs" = true ∧ h.dispatch? loopedEnvironment e = .error (.linkLoop "/p/b.rs") ∧
      ((Channels.make {}).deliver loopedEnvironment e h).pending 0 = [] := by
  intro h e
  have hcandidates : candidates {} loopedEnvironment.files ["p"] =
      [(["a.rs"], Text.Utf8.encode sampleText)] := by decide +kernel
  have hlanguage : languageOf? "a.rs" = some .rust := by decide +kernel
  have hwants : h.wants "/p/a.rs" = true := wants_sample 0
  have hfile : loopedEnvironment.files.entryAt ["p", "a.rs"] = some (.file (Text.Utf8.encode sampleText)) := by
    decide +kernel
  have hrelevant := isRelevant_sample (Files.unlinked_of_file hfile)
  have hloop : loopedEnvironment.resolve (.ofString "/p/b.rs") = .error (.linkLoop "/p/b.rs") := by
    have hdirectory : loopedEnvironment.files.DirectoryAt ["p"] :=
      .child .root rfl (by decide) (by decide) (by decide) (by decide +kernel)
    have hlink : loopedEnvironment.files.entryAt (["p"] ++ ["b.rs"]) = some (.link "b.rs") := by
      decide +kernel
    have hresolve := Environment.resolve_selfLink hdirectory rfl hlink (by decide +kernel) (by decide)
      (by decide +kernel)
    have hpath : Path.ofString "/p/b.rs" = ⟨"/", ["p"] ++ ["b.rs"]⟩ := by decide +kernel
    rwa [← hpath, show Address.text (["p"] ++ ["b.rs"]) = "/p/b.rs" by decide +kernel] at hresolve
  have hconcerns : e.Concerns "/p/a.rs" := .destination "/p/b.rs"
  obtain ⟨n, -, -, hfault⟩ := dispatch?_of_isRelevant hrelevant hwants hconcerns
  have hdispatch := hfault _ hloop
  refine ⟨?_, by decide +kernel, hconcerns, fitsName_handler hlanguage {} ["p"] 0, hwants, hdispatch, ?_⟩
  · rw [hcandidates]
    exact List.mem_cons_self ..
  · rw [Channels.deliver, hdispatch]
    decide

end Crawler
end FlowAtlas
