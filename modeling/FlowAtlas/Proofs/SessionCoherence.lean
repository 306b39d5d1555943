import FlowAtlas.Proofs.CrawlableFiles
import FlowAtlas.Proofs.SessionRun

/-! The request, the outcome and the watcher of a session belong together. A session takes up a request
for which there is a directory, and if the crawl of it comes to an end, keeps what came of it and watches
this directory until the next crawl ends. A crawl that fails leaves the request alone behind, with the
outcome and the watcher of an earlier one. A request that is refused changes nothing. -/

namespace FlowAtlas

/-- There is no directory for a request: its root is blank or no directory, it starts in a home that is
unknown, or the system does not say what is there. -/
inductive CrawlRequest.Refused (env : Environment) (r : CrawlRequest) : Prop
  | blank (h : r.place = "")
  | unknownHome (h : env.expandHome (.ofString r.place) = .error .unknownHome)
  | noDirectory {p : Path} (hexpand : env.expandHome (.ofString r.place) = .ok p)
      (h : env.directoryAt? p = .ok none)
  | unseen {p : Path} {fault : Fault} (hexpand : env.expandHome (.ofString r.place) = .ok p)
      (h : env.directoryAt? p = .error fault)

theorem Outcome.request_ofCrawl (r : CrawlRequest) (c : Crawl) : (ofCrawl r c).request = r := by
  unfold ofCrawl
  split <;> rfl

namespace Session
variable {s : Session} {env : Environment} {r : CrawlRequest} {now : Float}

theorem refused_iff : r.Refused env ↔ accepted? env r = none := by
  unfold accepted? target?
  constructor
  · intro h
    split
    · rfl
    · rename_i hplace
      rw [Environment.directory?]
      cases h with
      | blank h => exact absurd h hplace
      | unknownHome h => rw [h]; rfl
      | noDirectory hexpand h | unseen hexpand h =>
        rw [hexpand, Except.bind, h]
        rfl
  · intro h
    split at h
    · rename_i hplace
      exact .blank hplace
    · rw [Environment.directory?] at h
      cases hexpand : env.expandHome (.ofString r.place) with
      | error fault =>
        obtain rfl : fault = .unknownHome := Environment.eq_of_expandHome hexpand
        exact .unknownHome hexpand
      | ok p =>
        rw [hexpand, Except.bind] at h
        cases hdirectory : env.directoryAt? p with
        | error fault => exact .unseen hexpand hdirectory
        | ok found =>
          rw [hdirectory] at h
          obtain rfl : found = none := h
          exact .noDirectory hexpand hdirectory

theorem directoryAt_of_accepted? {directory : Address} (h : accepted? env r = some directory) :
    env.files.DirectoryAt directory := by
  have htarget := target?_eq_of_accepted? h
  unfold target? at htarget
  split at htarget
  · cases htarget
  · exact Environment.directoryAt_of_directory? htarget

theorem request_of_handle {o : Outcome} (h : (s.handle env r).result = .ok o) : o.request = r := by
  cases htarget : target? env r with
  | error fault =>
    rw [handle, htarget] at h
    cases h
  | ok found =>
    cases found with
    | none =>
      rw [handle, htarget] at h
      cases h
      rfl
    | some directory =>
      have haccepted : accepted? env r = some directory := by
        rw [accepted?, htarget]
        rfl
      obtain ⟨crawled, -, rfl⟩ := exists_crawled_of_answer haccepted h
      exact Outcome.request_ofCrawl r crawled

theorem request_of_tick {o : Outcome} (h : (s.tick env now).result = .ok (some o)) :
    s.lastRequest = some o.request := by
  cases hd : s.debouncer with
  | none => rw [(tick_of_idle (.inl hd) env now).2] at h; cases h
  | some d =>
    cases hr : s.lastRequest with
    | none => rw [(tick_of_idle (.inr hr) env now).2] at h; cases h
    | some r =>
      rw [(tick_of_debouncer hd hr env now).2] at h
      split at h
      · cases hresult : ((s.polled d now).handle env r).result with
        | error fault => rw [hresult] at h; cases h
        | ok o' =>
          rw [hresult] at h
          obtain rfl : o' = o := Option.some.inj (Except.ok.inj h)
          rw [request_of_handle hresult]
      · cases h

/-- A request that a session takes up, with the directory that there is for it then and what the crawl of
this comes to. -/
structure Taking where
  request : CrawlRequest
  directory : Address
  result : Except Fault Crawl

namespace Taking

def isAnswered (t : Taking) : Bool :=
  t.result.isOk

def outcome? (t : Taking) : Option Outcome :=
  t.result.toOption.map (.ofCrawl t.request)

/-- The last one whose crawl came to an end. -/
def lastAnswered? (taken : List Taking) : Option Taking :=
  (taken.filter isAnswered).getLast?

theorem lastAnswered?_concat (taken : List Taking) (t : Taking) :
    lastAnswered? (taken ++ [t]) = if t.isAnswered then some t else lastAnswered? taken := by
  rw [lastAnswered?, List.filter_append]
  cases h : t.isAnswered <;> simp [lastAnswered?, h]

theorem lastAnswered?_eq_getLast? {taken : List Taking}
    (h : ∀ t, taken.getLast? = some t → t.isAnswered = true) :
    lastAnswered? taken = taken.getLast? := by
  rcases List.eq_nil_or_concat taken with rfl | ⟨earlier, t, rfl⟩
  · rfl
  · rw [List.concat_eq_append] at h ⊢
    rw [lastAnswered?_concat, h t List.getLast?_concat, if_pos rfl, List.getLast?_concat]

theorem isAnswered_of_lastAnswered? {taken : List Taking} {t : Taking} (h : lastAnswered? taken = some t) :
    ∃ crawled, t.result = .ok crawled := by
  have hanswered : t.isAnswered = true := (List.mem_filter.mp (List.mem_of_getLast? h)).2
  unfold isAnswered at hanswered
  cases hresult : t.result with
  | error fault =>
    rw [hresult] at hanswered
    cases hanswered
  | ok crawled => exact ⟨crawled, rfl⟩

end Taking

def taking? (s : Session) (env : Environment) (r : CrawlRequest) : Option Taking :=
  (accepted? env r).map fun directory =>
    ⟨r, directory, s.settings.crawler.crawlDirectory env r.suppress directory⟩

/-- What a session takes up at an action. -/
def taken? (s : Session) : Action → Option Taking
  | .request env r => s.taking? env r
  | .tick env now => if s.fires now then s.lastRequest.bind (s.taking? env) else none
  | _ => none

def takenIn (s : Session) : List Action → List Taking
  | [] => []
  | a :: rest => (s.taken? a).toList ++ (s.act a).takenIn rest

/-- A session fits what it has taken up: the request is the last one of all, the outcome and the watcher
are those of the last one that was answered. -/
structure Coherent (s : Session) (taken : List Taking) : Prop where
  request : s.lastRequest = taken.getLast?.map Taking.request
  outcome : s.lastOutcome = (Taking.lastAnswered? taken).bind Taking.outcome?
  root : ∀ w, s.watcher = some w → (Taking.lastAnswered? taken).map Taking.directory = some w.root
  unwatched : s.settings.watch = false → s.watcher = none

variable {taken : List Taking}

namespace Coherent

theorem handle_of_crawled {directory : Address} {crawled : Crawl} (hs : s.Coherent taken)
    (haccepted : accepted? env r = some directory)
    (hcrawl : s.settings.crawler.crawlDirectory env r.suppress directory = .ok crawled) :
    (s.handle env r).session.Coherent (taken ++ [⟨r, directory, .ok crawled⟩]) := by
  let outcome := Outcome.ofCrawl r crawled
  have hlast : Taking.lastAnswered? (taken ++ [⟨r, directory, .ok crawled⟩]) =
      some ⟨r, directory, .ok crawled⟩ := Taking.lastAnswered?_concat taken _
  suffices h : (s.handle env r).session.lastRequest = some r ∧
      (s.handle env r).session.lastOutcome = some outcome ∧
      (∀ w, (s.handle env r).session.watcher = some w → w.root = directory) ∧
      ((s.handle env r).session.settings.watch = false → (s.handle env r).session.watcher = none) by
    obtain ⟨hrequest, houtcome, hroot, hunwatched⟩ := h
    refine ⟨?_, ?_, fun w hw => ?_, hunwatched⟩
    · rw [hrequest, List.getLast?_concat]
      rfl
    · rw [houtcome, hlast]
      rfl
    · rw [hlast, hroot w hw]
      rfl
  rw [(Session.handle_of_crawled haccepted hcrawl).1]
  split
  · rename_i hwatch
    let stopped := (s.answered r outcome).stopWatching.session
    have hrequest : stopped.lastRequest = some r := lastRequest_stopWatching _
    have houtcome : stopped.lastOutcome = some outcome := lastOutcome_stopWatching _
    have hsettings : stopped.settings = s.settings := settings_stopWatching _
    have hwatched : stopped.settings.watch = false → False := by simp [hsettings, hwatch]
    rcases stopped.startWatching_cases env r.place directory with ⟨-, hidle⟩ | ⟨w, hroot, -, -, hstarted⟩
    · have hnone : stopped.watcher = none := (stopWatching_cleared _).1
      rw [hidle]
      exact ⟨hrequest, houtcome, fun w hw => (nomatch hnone.symm.trans hw), fun h => (hwatched h).elim⟩
    · rw [hstarted]
      refine ⟨hrequest, houtcome, fun w' hw' => ?_, fun h => (hwatched h).elim⟩
      obtain rfl := Option.some.inj hw'
      rw [Watcher.root_startObserver]
      exact Environment.eq_of_resolve (directoryAt_of_accepted? haccepted) hroot
  · rename_i hwatch
    have hnone : s.watcher = none := hs.unwatched (by simpa using hwatch)
    exact ⟨rfl, rfl, fun w hw => (nomatch hnone.symm.trans hw), fun _ => hnone⟩

/-- A crawl that fails leaves its request, and of the rest what was there before. -/
theorem handle_of_fault {directory : Address} {fault : Fault} (hs : s.Coherent taken)
    (haccepted : accepted? env r = some directory)
    (hcrawl : s.settings.crawler.crawlDirectory env r.suppress directory = .error fault) :
    (s.handle env r).session.Coherent (taken ++ [⟨r, directory, .error fault⟩]) := by
  have hlast : Taking.lastAnswered? (taken ++ [⟨r, directory, .error fault⟩]) =
      Taking.lastAnswered? taken := Taking.lastAnswered?_concat taken _
  rw [Session.handle_of_fault haccepted hcrawl]
  refine ⟨?_, ?_, ?_, hs.unwatched⟩
  · rw [List.getLast?_concat]
    rfl
  · rw [hlast]
    exact hs.outcome
  · rw [hlast]
    exact hs.root

theorem handle (hs : s.Coherent taken) (env : Environment) (r : CrawlRequest) :
    (s.handle env r).session.Coherent (taken ++ (s.taking? env r).toList) := by
  unfold taking?
  cases haccepted : accepted? env r with
  | none =>
    rw [handle_of_refused haccepted]
    exact (List.append_nil taken).symm ▸ hs
  | some directory =>
    rw [Option.map_some]
    cases hcrawl : s.settings.crawler.crawlDirectory env r.suppress directory with
    | error fault => exact hs.handle_of_fault haccepted hcrawl
    | ok crawled => exact hs.handle_of_crawled haccepted hcrawl

theorem act (hs : s.Coherent taken) (a : Action) :
    (s.act a).Coherent (taken ++ (s.taken? a).toList) := by
  have hidle : taken ++ (none : Option Taking).toList = taken := List.append_nil taken
  cases a with
  | request env r => exact hs.handle env r
  | tick env now =>
    show (s.tick env now).session.Coherent _
    cases hd : s.debouncer with
    | none =>
      rw [(tick_of_idle (.inl hd) env now).1, taken?, fires, hd]
      exact hidle.symm ▸ hs
    | some d =>
      have hpolled : (s.polled d now).Coherent taken := ⟨hs.request, hs.outcome, hs.root, hs.unwatched⟩
      cases hr : s.lastRequest with
      | none =>
        rw [(tick_of_idle (.inr hr) env now).1, taken?, hr, Option.bind_none, ite_self, hidle]
        exact hs
      | some r =>
        rw [(tick_of_debouncer hd hr env now).1, taken?, hr]
        cases s.fires now with
        | false => exact hidle.symm ▸ hpolled
        | true => exact hpolled.handle env r
  | trace r => exact hidle.symm ▸ hs
  | stop =>
    obtain ⟨hwatcher, -⟩ := s.stopWatching_cleared
    show s.stopWatching.session.Coherent (taken ++ (none : Option Taking).toList)
    rw [hidle]
    refine ⟨?_, ?_, fun w hw => ?_, fun _ => hwatcher⟩
    · rw [lastRequest_stopWatching, hs.request]
    · rw [lastOutcome_stopWatching, hs.outcome]
    · cases hwatcher.symm.trans hw
  | event env observer e =>
    show (s.act (.event env observer e)).Coherent (taken ++ (none : Option Taking).toList)
    rw [Session.act, foldl_deliver, hidle]
    exact ⟨hs.request, hs.outcome, hs.root, hs.unwatched⟩

theorem run (hs : s.Coherent taken) (actions : List Action) :
    (s.run actions).Coherent (taken ++ s.takenIn actions) := by
  induction actions generalizing s taken with
  | nil => exact (List.append_nil taken).symm ▸ hs
  | cons a rest ih =>
    rw [takenIn, ← List.append_assoc]
    exact ih (hs.act a)

theorem of_answered (hs : s.Coherent taken) (h : ∀ t, taken.getLast? = some t → t.isAnswered = true) :
    (s.lastRequest = none ∧ s.lastOutcome = none ∨
      ∃ o, s.lastOutcome = some o ∧ s.lastRequest = some o.request) ∧
    ∀ w, s.watcher = some w → ∃ t, taken.getLast? = some t ∧ s.lastRequest = some t.request ∧
      w.root = t.directory := by
  obtain ⟨hrequest, houtcome, hroot, -⟩ := hs
  have hlast := Taking.lastAnswered?_eq_getLast? h
  rw [hlast] at houtcome hroot
  cases htaken : taken.getLast? with
  | none =>
    rw [htaken] at hrequest houtcome hroot
    exact ⟨.inl ⟨hrequest, houtcome⟩, fun w hw => nomatch hroot w hw⟩
  | some t =>
    obtain ⟨crawled, hcrawled⟩ := Taking.isAnswered_of_lastAnswered? (hlast.trans htaken)
    rw [htaken] at hrequest houtcome hroot
    refine ⟨.inr ⟨.ofCrawl t.request crawled, ?_, ?_⟩,
      fun w hw => ⟨t, rfl, hrequest, (Option.some.inj (hroot w hw)).symm⟩⟩
    · rw [houtcome, Option.bind_some, Taking.outcome?, hcrawled]
      rfl
    · rw [hrequest, Outcome.request_ofCrawl]
      rfl

theorem trace_eq (hs : s.Coherent taken) (q : TraceRequest) :
    (Taking.lastAnswered? taken = none → s.trace q = .failed "Trace: Nothing crawled yet") ∧
    ∀ t crawled, Taking.lastAnswered? taken = some t → t.result = .ok crawled →
      s.trace q = if crawled.graph.isEmpty then .failed "Trace: Nothing crawled yet"
        else crawled.graph.trace q.source q.sink := by
  have houtcome := hs.outcome
  refine ⟨fun hnone => ?_, fun t crawled hlast hcrawled => ?_⟩
  · rw [hnone] at houtcome
    rw [trace, houtcome]
    rfl
  · rw [hlast, Option.bind_some, Taking.outcome?, hcrawled] at houtcome
    rw [trace, houtcome]
    show (if (Outcome.ofCrawl t.request crawled).graph.isEmpty = true then _ else _ : Trace) = _
    unfold Outcome.ofCrawl
    by_cases hgraph : crawled.graph.isEmpty = true
    · rw [if_pos hgraph, if_pos hgraph]
      rfl
    · rw [if_neg hgraph, if_neg hgraph]

end Coherent

/-- A session after a tick that its last request got no answer from: the debouncer was polled, and the rest
stands. -/
structure Stands (s t : Session) (now : Float) : Prop where
  request : t.lastRequest = s.lastRequest
  outcome : t.lastOutcome = s.lastOutcome
  watcher : t.watcher = s.watcher
  debouncer : t.debouncer = s.debouncer.map fun d => (d.poll now s.channels).2.1
  traces : ∀ r, t.trace r = s.trace r
  ticks : ∀ env now o, (t.tick env now).result = .ok (some o) → s.lastRequest = some o.request

theorem stands_of_refused (hr : s.lastRequest = some r) (h : r.Refused env) (now : Float) :
    s.Stands (s.tick env now).session now := by
  cases hd : s.debouncer with
  | none =>
    rw [(tick_of_idle (.inl hd) env now).1]
    exact ⟨rfl, rfl, rfl, by rw [hd]; rfl, fun _ => rfl, fun _ _ _ => request_of_tick⟩
  | some d =>
    have hpolled : (s.tick env now).session = s.polled d now := by
      rw [(tick_of_debouncer hd hr env now).1, handle_of_refused (refused_iff.mp h), ite_self]
    rw [hpolled]
    have hticks : ∀ env' now' o, ((s.polled d now).tick env' now').result = .ok (some o) →
        (s.polled d now).lastRequest = some o.request := fun _ _ _ => request_of_tick
    exact ⟨rfl, rfl, rfl, by rw [hd]; rfl, fun _ => rfl, hticks⟩

theorem coherent_fresh (settings : Settings) (startFaults stopFaults : List (Option String)) :
    (fresh settings startFaults stopFaults).Coherent [] :=
  ⟨rfl, rfl, fun _ hw => (nomatch hw), fun _ => rfl⟩

/-- However a session is used and whatever becomes of the files meanwhile: it keeps the last request that
there was a directory for, and the outcome and the watcher of the last one whose crawl came to an end. So the
outcome answers the request, and a watcher watches the directory of the request, unless the crawl of this
request has failed. A refused request changes nothing, ticks answer the last request, and traces are made
through the graph that is kept. -/
theorem run_coherent (settings : Settings) (startFaults stopFaults : List (Option String))
    (actions : List Action) :
    let start := fresh settings startFaults stopFaults
    let s := start.run actions
    let taken := start.takenIn actions
    let answered := Taking.lastAnswered? taken
    s.lastRequest = taken.getLast?.map Taking.request ∧
      s.lastOutcome = answered.bind Taking.outcome? ∧
      (∀ w, s.watcher = some w → ∃ t, answered = some t ∧ w.root = t.directory) ∧
      ((∀ t, taken.getLast? = some t → t.isAnswered = true) →
        (s.lastRequest = none ∧ s.lastOutcome = none ∨
          ∃ o, s.lastOutcome = some o ∧ s.lastRequest = some o.request) ∧
        ∀ w, s.watcher = some w → ∃ t, taken.getLast? = some t ∧ s.lastRequest = some t.request ∧
          w.root = t.directory) ∧
      (∀ env r, r.Refused env → (s.handle env r).session = s) ∧
      (∀ env now r, s.lastRequest = some r → r.Refused env → s.Stands (s.tick env now).session now) ∧
      (∀ env now o, (s.tick env now).result = .ok (some o) → s.lastRequest = some o.request) ∧
      ∀ q, (answered = none → s.trace q = .failed "Trace: Nothing crawled yet") ∧
        ∀ t crawled, answered = some t → t.result = .ok crawled →
          s.trace q = if crawled.graph.isEmpty then .failed "Trace: Nothing crawled yet"
            else crawled.graph.trace q.source q.sink := by
  intro start s taken answered
  have hs : s.Coherent taken := (coherent_fresh settings startFaults stopFaults).run actions
  refine ⟨hs.request, hs.outcome, fun w hw => ?_, hs.of_answered,
    fun env r h => handle_of_refused (refused_iff.mp h) s, fun env now r hr h => stands_of_refused hr h now,
    fun env now o => request_of_tick, hs.trace_eq⟩
  obtain ⟨t, ht, hroot⟩ := Option.map_eq_some_iff.mp (hs.root w hw)
  exact ⟨t, ht, hroot.symm⟩

def sampleSettings : Settings :=
  { crawler := {}, watch := true, debounce := 0.5 }

def sampleRequest : CrawlRequest :=
  { root := "/p", suppress := false }

theorem accepted?_sample : accepted? Crawler.sampleEnvironment sampleRequest = some ["p"] := by
  have htrim : Text.trim "/p" = "/p" := by decide +kernel
  exact accepted?_of_root (by decide +kernel) (htrim.symm ▸ Crawler.directory?_sample) false

theorem run_coherent_sample :
    let start := fresh sampleSettings [] []
    let s := start.run [.request Crawler.sampleEnvironment sampleRequest]
    s.lastRequest = some sampleRequest ∧
      (∃ o, s.lastOutcome = some o ∧ s.lastRequest = some o.request) ∧
      (∀ w, s.watcher = some w → w.root = ["p"]) ∧
      s.trace ⟨"f", "g"⟩ = (Crawler.gather {} Crawler.sampleEnvironment false ["p"]).graph.trace "f" "g" := by
  intro start s
  have htaken : start.takenIn [.request Crawler.sampleEnvironment sampleRequest] =
      [⟨sampleRequest, ["p"], .ok (Crawler.gather {} Crawler.sampleEnvironment false ["p"])⟩] := by
    rw [takenIn, taken?, taking?, accepted?_sample]
    exact congrArg (fun result => [(⟨sampleRequest, ["p"], result⟩ : Taking)]) Crawler.crawlDirectory_sample
  obtain ⟨hrequest, -, hroot, hcoherent, -, -, -, htrace⟩ :=
    run_coherent sampleSettings [] [] [.request Crawler.sampleEnvironment sampleRequest]
  rw [show (fresh sampleSettings [] []).takenIn _ = _ from htaken] at hrequest hroot hcoherent htrace
  refine ⟨hrequest, ?_, fun w hw => ?_, ?_⟩
  · obtain ⟨hnone, -⟩ | h := (hcoherent fun t ht => by cases ht; rfl).1
    · cases hrequest.symm.trans hnone
    · exact h
  · obtain ⟨t, ht, h⟩ := hroot w hw
    obtain rfl := Option.some.inj ht
    exact h
  · have hgraph : (Crawler.gather {} Crawler.sampleEnvironment false ["p"]).graph.isEmpty = false := by
      decide +kernel
    exact ((htrace ⟨"f", "g"⟩).2 _ _ rfl rfl).trans (if_neg (by simp [hgraph]))

/-- The crawl of a directory in which nothing can be looked up fails after its request was taken up. The
outcome then answers another request than the one that is kept, and another directory is watched. -/
theorem failed_crawl_incoherent :
    let request : CrawlRequest := { root := "/p/q", suppress := false }
    let s := (fresh sampleSettings [] []).run
      [.request Crawler.sampleEnvironment sampleRequest, .request Crawler.sealedEnvironment request]
    s.lastRequest = some request ∧ (∃ o, s.lastOutcome = some o ∧ o.request = sampleRequest) ∧
      accepted? Crawler.sealedEnvironment request = some ["p", "q"] ∧
      ∃ w, s.watcher = some w ∧ w.root = ["p"] := by
  intro request s
  let start := fresh sampleSettings [] []
  let first := (start.handle Crawler.sampleEnvironment sampleRequest).session
  have hreachable : Crawler.sealedEnvironment.Reachable ["p", "q"] :=
    ⟨.child (.child .root rfl (by decide) (by decide) (by decide) (by decide +kernel)) (by decide) (by decide)
      (by decide) (by decide) (by decide +kernel), by decide +kernel, by decide +kernel⟩
  have htrim : Text.trim "/p/q" = "/p/q" := by decide +kernel
  have haccepted : accepted? Crawler.sealedEnvironment request = some ["p", "q"] :=
    accepted?_of_root (by decide +kernel) (htrim.symm ▸ hreachable.directory?_eq (by decide)) false
  have hcrawl : sampleSettings.crawler.crawlDirectory Crawler.sealedEnvironment request.suppress ["p", "q"] =
      .error (Crawler.faultAt (["p", "q"] ++ ["notes.txt"])) := by
    have hunseen : Crawler.unseen {} Crawler.sealedEnvironment.files ["p", "q"] = [["notes.txt"]] := by
      decide +kernel
    rw [Crawler.crawlDirectory, show Crawler.unseen sampleSettings.crawler _ _ = _ from hunseen]
  have hsettings : first.settings = sampleSettings := (kept_settings sampleSettings).handle rfl _ _
  rw [← hsettings] at hcrawl
  have hs : s = first.accept request := congrArg Turn.session (handle_of_fault haccepted hcrawl)
  obtain ⟨-, houtcome, hroot, -⟩ :=
    (coherent_fresh sampleSettings [] []).handle_of_crawled accepted?_sample Crawler.crawlDirectory_sample
  obtain ⟨-, w, -, hstarted⟩ := started_of_crawled (s := start) accepted?_sample
    Crawler.crawlDirectory_sample rfl Crawler.reachable_sample
  have hw := congrArg Session.watcher hstarted
  rw [hs]
  refine ⟨rfl, ⟨_, houtcome, Outcome.request_ofCrawl _ _⟩, haccepted, _, hw, ?_⟩
  exact (Option.some.inj (hroot _ hw)).symm

end Session
end FlowAtlas
