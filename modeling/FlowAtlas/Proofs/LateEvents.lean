import FlowAtlas.Proofs.Arrivals
import FlowAtlas.Proofs.Bursts
import FlowAtlas.Proofs.SessionCoherence
import FlowAtlas.Proofs.WatchedFiles

/-! Events that come in while a request is answered. The answer is taken apart into its steps, and events may
arrive between any two of them. What arrives once the new watcher has started is kept for the next ticks. What
the old one still hears after the files were read goes down with its channel. -/

namespace FlowAtlas
namespace Session
variable {s : Session} {env : Environment} {r : CrawlRequest} {directory : Address}

/-- The events that arrive in an answer, step by step. -/
structure Gaps where
  /-- Until all files are read. -/
  reading : List Arrival := []
  /-- From then until the old watcher is stopped. -/
  read : List Arrival := []
  /-- From then until the new watcher is started. -/
  stopped : List Arrival := []
  /-- From then until the session holds it. -/
  started : List Arrival := []
  /-- From then on. -/
  held : List Arrival := []

def launch (s : Session) (env : Environment) (directory : Address) : Session × Option Watcher :=
  let channel := s.channels.count
  let s := { s with channels := s.channels.make }
  let handler := s.settings.crawler.handler directory channel
  match Watcher.create env ⟨"/", directory⟩ handler s.verbose s.observers with
  | .error _ => (s, none)
  | .ok (w, observers) =>
    let started := w.start observers
    ({ s with observers := started.observers }, some started.watcher)

def hold (s : Session) : Option Watcher → Session
  | none => s
  | some w =>
    { s with
      watcher := some w
      debouncer := some { channel := w.handler.channel, window := s.settings.debounce } }

def readAmid (s : Session) (r : CrawlRequest) (o : Outcome) (gaps : Gaps) : Session :=
  ((s.accept r).hear gaps.reading).finish o

theorem Attended.readAmid (hs : s.Attended) (r : CrawlRequest) (o : Outcome) (gaps : Gaps) :
    (s.readAmid r o gaps).Attended :=
  Attended.kept.finish _ o (Attended.kept.hear (Attended.kept.accept s r hs) gaps.reading)

/-- Answers an accepted request with what came of its crawl, while events arrive. -/
def handleAmid (s : Session) (env : Environment) (r : CrawlRequest) (directory : Address) (o : Outcome)
    (gaps : Gaps) : Session :=
  let stopped := ((s.readAmid r o gaps).hear gaps.read).stopWatching.session
  let (started, w?) := (stopped.hear gaps.stopped).launch env directory
  ((started.hear gaps.started).hold w?).hear gaps.held

theorem hold_launch (s : Session) (env : Environment) (place : String) (directory : Address) :
    (s.launch env directory).1.hold (s.launch env directory).2 =
      (s.startWatching env place directory).session := by
  unfold launch startWatching
  dsimp only
  cases hcreate : Watcher.create env ⟨"/", directory⟩
      (s.settings.crawler.handler directory s.channels.count)
      (verbose { s with channels := s.channels.make }) s.observers with
  | error fault =>
    dsimp only
    split <;> rfl
  | ok made =>
    obtain ⟨w, observers⟩ := made
    obtain ⟨-, hhandler, -⟩ := Watcher.eq_of_create hcreate
    have hchannel : (w.start observers).watcher.handler.channel = s.channels.count := by
      rw [Watcher.handler_start, hhandler]
      rfl
    show { s with watcher := _, debouncer := some _, observers := _, channels := _ } = _
    rw [hchannel]

theorem hold_hear (s : Session) (arrivals : List Arrival) (w? : Option Watcher) :
    (s.hear arrivals).hold w? = (s.hold w?).hear arrivals := by
  cases w? <;> rfl

@[simp] theorem lastRequest_hear (s : Session) (arrivals : List Arrival) :
    (s.hear arrivals).lastRequest = s.lastRequest := rfl

theorem hear_append (s : Session) (arrivals more : List Arrival) :
    s.hear (arrivals ++ more) = (s.hear arrivals).hear more := by
  show { s with channels := _ } = _
  rw [Channels.hear_append]
  rfl

/-- An answer with arrivals is an answer between them: what arrives before the old watcher is stopped might
as well have come before the request, and what the new one hears might as well come after it. -/
theorem handleAmid_eq {crawled : Crawl} (hs : s.Attended) (hwatch : s.settings.watch = true)
    (haccepted : accepted? env r = some directory)
    (hcrawl : s.settings.crawler.crawlDirectory env r.suppress directory = .ok crawled) (gaps : Gaps) :
    s.handleAmid env r directory (.ofCrawl r crawled) gaps =
      (((s.hear (gaps.reading ++ gaps.read)).handle env r).session).hear (gaps.started ++ gaps.held) := by
  let before := s.hear (gaps.reading ++ gaps.read)
  have hanswered : (s.readAmid r (.ofCrawl r crawled) gaps).hear gaps.read =
      before.answered r (.ofCrawl r crawled) := by
    show _ = answered (s.hear (gaps.reading ++ gaps.read)) r _
    rw [hear_append]
    rfl
  have hstopped : (before.answered r (.ofCrawl r crawled)).stopWatching.session.Attended :=
    Attended.kept.stop _ (Attended.kept.finish _ _ (Attended.kept.accept _ r (Attended.kept.hear hs _)))
  -- Nobody listens between two watchers.
  have hsilent := hstopped.hear_of_unwatched (stopWatching_cleared _).1 gaps.stopped
  have hwatch' : before.settings.watch = true := hwatch
  obtain ⟨hhandled, -⟩ := handle_of_crawled (s := before) haccepted hcrawl
  unfold handleAmid
  dsimp only
  rw [hanswered, hsilent, hold_hear, hold_launch, ← hear_append, hhandled, if_pos hwatch']

theorem startFaults_stopWatching (s : Session) :
    s.stopWatching.session.observers.startFaults = s.observers.startFaults := by
  unfold stopWatching
  cases s.watcher with
  | none => rfl
  | some w => exact w.startFaults_stop s.observers

/-- A directory that a request was answered for can be reached by its address, or it could not be watched. -/
theorem reachable_of_answer {o : Outcome} (hwatch : s.settings.watch = true)
    (haccepted : accepted? env r = some directory)
    (hnames : ∀ name ∈ directory, '\x00' ∉ name.toList) (hanswer : (s.handle env r).result = .ok o) :
    env.Reachable directory := by
  have hplain := directoryAt_of_accepted? haccepted
  have hfree : (⟨"/", directory⟩ : Path).hasNull = false :=
    List.any_eq_false.mpr fun name hname => by simpa using hnames name hname
  refine ⟨hplain, hfree, Nat.le_of_not_lt fun hlong => ?_⟩
  obtain ⟨crawled, hcrawl, -⟩ := exists_crawled_of_answer haccepted hanswer
  have hroot : env.resolve ⟨"/", directory⟩ = .ok directory := by
    rw [Environment.resolve_eq hplain, hfree, if_neg Bool.false_ne_true]
  have hfind : env.find ⟨"/", directory⟩ = .error .tooLong := by
    rw [Environment.find, hfree, if_neg Bool.false_ne_true, Path.text_absolute, if_pos hlong]
  have hfault : env.directoryAt? ⟨"/", directory⟩ = .error (.nameTooLong (Address.text directory)) := by
    rw [Environment.directoryAt?, Environment.stat?, hfind, Path.text_absolute]
    rfl
  rw [(handle_of_crawled haccepted hcrawl).2, if_pos hwatch, startWatching_of_fault hroot hfault rfl] at hanswer
  cases hanswer

/-- A session whose debouncer has seen no change since its last signal, and has none to see. -/
def AtRest (s : Session) : Prop :=
  ∃ d, s.debouncer = some d ∧ d.lastChange = none ∧ s.channels.pending d.channel = []

theorem atRest_of_crawled {crawled : Crawl} (haccepted : accepted? env r = some directory)
    (hcrawl : s.settings.crawler.crawlDirectory env r.suppress directory = .ok crawled)
    (hwatch : s.settings.watch = true) (hreachable : env.Reachable directory) :
    (s.handle env r).session.AtRest := by
  obtain ⟨-, w, -, hstarted⟩ := started_of_crawled haccepted hcrawl hwatch hreachable
  rw [hstarted]
  refine ⟨_, rfl, rfl, ?_⟩
  show s.channels.make.pending s.channels.count = []
  rw [Channels.pending_make]
  exact Channels.pending_of_count_le _ (Nat.le_refl _)

theorem listeners_of_crawled {crawled : Crawl} (hs : s.Attended)
    (haccepted : accepted? env r = some directory)
    (hcrawl : s.settings.crawler.crawlDirectory env r.suppress directory = .ok crawled)
    (hwatch : s.settings.watch = true) (hreachable : env.Reachable directory)
    (hstarts : s.observers.startFaults = []) :
    (s.handle env r).session.listeners = [s.settings.crawler.handler directory s.channels.count] ∧
      (s.handle env r).session.observers.startFaults = [] := by
  let stopped := (s.answered r (.ofCrawl r crawled)).stopWatching.session
  obtain ⟨-, w, hhandler, hstarted⟩ := started_of_crawled haccepted hcrawl hwatch hreachable
  have hfaults : stopped.observers.startFaults = [] := by
    rw [startFaults_stopWatching]
    exact hstarts
  have hnew : stopped.observers.count < stopped.observers.make.count := by
    rw [Observers.count_make]
    exact Nat.lt_succ_self _
  obtain ⟨hobserver, halive, hfaults'⟩ := w.startObserver_of_no_faults hnew hfaults
  have hkept := w.handler_startObserver stopped.observers.make stopped.observers.count
  have hattended : (s.handle env r).session.Attended := Attended.kept.handle hs env r
  have hlisteners := hattended.listeners
  rw [hstarted] at hlisteners ⊢
  refine ⟨?_, hfaults'⟩
  rw [hlisteners, ← hhandler, handlerAtWork?]
  generalize w.startObserver stopped.observers.make stopped.observers.count = started at *
  have hrunning : started.watcher.isRunning started.observers = true := by
    rw [Watcher.isRunning, hobserver]
    exact halive
  simp [Option.filter_some, hrunning, hkept]

theorem lastRequest_of_crawled {crawled : Crawl} (haccepted : accepted? env r = some directory)
    (hcrawl : s.settings.crawler.crawlDirectory env r.suppress directory = .ok crawled)
    (hwatch : s.settings.watch = true) (hreachable : env.Reachable directory) :
    (s.handle env r).session.lastRequest = some r := by
  obtain ⟨-, w, -, hstarted⟩ := started_of_crawled haccepted hcrawl hwatch hreachable
  rw [hstarted]
  exact lastRequest_stopWatching (s.answered r (.ofCrawl r crawled))

/-- The next tick crawls again, or each later one once the window is over. -/
def Due (s : Session) : Prop :=
  ∃ d, s.debouncer = some d ∧ ∀ t : Float, s.fires t = true ∨
    ∀ env now, d.window ≤ now - t → (s.tick env t).session.fires now = true

theorem due_of_pending {d : Debouncer Float} (hd : s.debouncer = some d) (hr : s.lastRequest = some r)
    (hpending : s.channels.pending d.channel ≠ []) : s.Due := by
  refine ⟨d, hd, fun t => ?_⟩
  cases hfires : s.fires t with
  | true => exact .inl rfl
  | false =>
    refine .inr fun env now hwindow => ?_
    have hquiet : (d.poll t s.channels).1 = false := by
      rwa [fires, hd, Option.any_some] at hfires
    have hlast : (d.poll t s.channels).2.1.lastChange = some t := by
      rw [Debouncer.lastChange_poll, hquiet, Debouncer.lastChange_drain, if_neg hpending]
      rfl
    -- The tick has emptied the channel, so the next one counts from its time.
    have hcleared : (s.polled d t).channels.pending (d.poll t s.channels).2.1.channel = [] := by
      rw [polled, Debouncer.channels_poll, Debouncer.channel_poll, Channels.pending_clear]
    rw [(tick_of_debouncer hd hr env t).1, hfires, if_neg Bool.false_ne_true]
    refine (Debouncer.signals_poll_iff _ now _).mpr ⟨t, ?_, by rwa [Debouncer.window_poll]⟩
    rw [Debouncer.lastChange_drain, if_pos hcleared, hlast]

namespace AtRest

theorem tick (hs : s.AtRest) (env : Environment) (now : Float) :
    (s.tick env now).result = .ok none ∧ (s.tick env now).session.AtRest := by
  obtain ⟨d, hd, hlast, hpending⟩ := hs
  have hpoll : d.poll now s.channels = (false, d, s.channels.clear d.channel) := by
    simp [Debouncer.poll, Debouncer.drain, hpending, hlast]
  cases hr : s.lastRequest with
  | none =>
    obtain ⟨hsession, hresult⟩ := tick_of_idle (.inr hr) env now
    rw [hsession, hresult]
    exact ⟨rfl, d, hd, hlast, hpending⟩
  | some r =>
    obtain ⟨hsession, hresult⟩ := tick_of_debouncer hd hr env now
    have hfires : s.fires now = false := by
      rw [fires, hd, Option.any_some, hpoll]
    rw [hsession, hresult, hfires, polled, hpoll]
    exact ⟨rfl, d, rfl, hlast, Channels.pending_clear _ _⟩

theorem ticks (hs : s.AtRest) (times : List (Environment × Float)) :
    (s.run (times.map fun t => .tick t.1 t.2)).AtRest := by
  induction times generalizing s with
  | nil => exact hs
  | cons t rest ih => exact ih (hs.tick t.1 t.2).2

end AtRest

theorem AtRest.pending_hear (hrest : s.AtRest) (hs : s.Attended) (arrivals : List Arrival) :
    ∃ d, (s.hear arrivals).debouncer = some d ∧ d.lastChange = none ∧
      (s.hear arrivals).channels.pending d.channel = (s.hear arrivals).heard arrivals := by
  obtain ⟨d, hd, hlast, hpending⟩ := hrest
  have hheard := hs.pending?_hear arrivals
  have hsame : (s.hear arrivals).debouncer = some d := hd
  rw [pending?, pending?, hsame, hd, Option.map_some, Option.map_some, Option.map_some, hpending] at hheard
  exact ⟨d, hd, hlast, Option.some.inj hheard⟩

theorem pending_handleAmid {crawled : Crawl} (hs : s.Attended) (haccepted : accepted? env r = some directory)
    (hcrawl : s.settings.crawler.crawlDirectory env r.suppress directory = .ok crawled)
    (hwatch : s.settings.watch = true) (hreachable : env.Reachable directory) (gaps : Gaps) :
    let after := s.handleAmid env r directory (.ofCrawl r crawled) gaps
    ∃ d, after.debouncer = some d ∧ d.lastChange = none ∧
      after.channels.pending d.channel = after.heard (gaps.started ++ gaps.held) := by
  let before := s.hear (gaps.reading ++ gaps.read)
  have hbefore : before.Attended := Attended.kept.hear hs _
  have hrest := atRest_of_crawled (s := before) haccepted hcrawl hwatch hreachable
  rw [handleAmid_eq hs hwatch haccepted hcrawl]
  exact hrest.pending_hear (Attended.kept.handle hbefore env r) _

/-- What a request can meet: a session after any run, or within a tick that has polled the debouncer. -/
inductive Reached (settings : Settings) (startFaults stopFaults : List (Option String)) : Session → Prop
  | run (actions : List Action) :
      Reached settings startFaults stopFaults ((fresh settings startFaults stopFaults).run actions)
  | polled (actions : List Action) (d : Debouncer Float) (now : Float)
      (h : ((fresh settings startFaults stopFaults).run actions).debouncer = some d) :
      Reached settings startFaults stopFaults
        (((fresh settings startFaults stopFaults).run actions).polled d now)

theorem Reached.attended {settings : Settings} {startFaults stopFaults : List (Option String)}
    (hstops : ∀ fault ∈ stopFaults, fault = none) (hs : Reached settings startFaults stopFaults s) :
    s.Attended ∧ s.settings = settings := by
  have hfresh : (fresh settings startFaults stopFaults).Attended :=
    ⟨sole_fresh settings startFaults hstops, rfl⟩
  cases hs with
  | run actions => exact ⟨Attended.kept.run hfresh actions, (kept_settings settings).run rfl actions⟩
  | polled actions d now h =>
    have hrun := Attended.kept.run hfresh actions
    exact ⟨Attended.kept.poll _ d now h hrun, (kept_settings settings).run rfl actions⟩

def watchedSample : Session :=
  (fresh sampleSettings [] []).run [.request Crawler.sampleEnvironment sampleRequest]

def sampleArrival : Arrival :=
  ⟨Crawler.sampleEnvironment, ⟨.modified, "/p/a.rs", "", false⟩⟩

def sampleNotice : Notice :=
  ⟨.modified, .ofString "/p/a.rs", none⟩

theorem attended_sample : watchedSample.Attended ∧ watchedSample.settings = sampleSettings := by
  have hreached : Reached sampleSettings [] [] watchedSample := .run _
  exact hreached.attended (by simp)

theorem listeners_sample : watchedSample.listeners = [Crawler.handler {} ["p"] 0] ∧
    watchedSample.observers.startFaults = [] := by
  have hfresh : Reached sampleSettings [] [] (fresh sampleSettings [] []) := .run []
  exact listeners_of_crawled (hfresh.attended (by simp)).1 accepted?_sample Crawler.crawlDirectory_sample rfl
    Crawler.reachable_sample rfl

def sampleOutcome : Outcome :=
  .ofCrawl sampleRequest (Crawler.gather {} Crawler.sampleEnvironment false ["p"])

theorem crawlDirectory_watchedSample : watchedSample.settings.crawler.crawlDirectory Crawler.sampleEnvironment
    sampleRequest.suppress ["p"] = .ok (Crawler.gather {} Crawler.sampleEnvironment false ["p"]) := by
  rw [attended_sample.2]
  exact Crawler.crawlDirectory_sample

theorem watch_watchedSample : watchedSample.settings.watch = true :=
  congrArg Settings.watch attended_sample.2

theorem answer_sample :
    (watchedSample.handle Crawler.sampleEnvironment sampleRequest).result = .ok sampleOutcome :=
  (started_of_crawled accepted?_sample crawlDirectory_watchedSample watch_watchedSample
    Crawler.reachable_sample).1

theorem heard_sample {channel : Nat} (h : s.listeners = [Crawler.handler {} ["p"] channel]) :
    s.heard [sampleArrival] = [sampleNotice] := by
  have hfile : Crawler.sampleEnvironment.files.entryAt ["p", "a.rs"] =
      some (.file (Text.Utf8.encode Crawler.sampleText)) := by decide +kernel
  have hrelevant := Crawler.isRelevant_sample (Files.unlinked_of_file hfile)
  have hconcerns : FileEvent.Concerns "/p/a.rs" sampleArrival.event := .source .modified "" (by decide)
  obtain ⟨n, hn, hput, -⟩ :=
    Crawler.dispatch?_of_isRelevant hrelevant (Crawler.wants_sample channel) hconcerns
  obtain rfl := Option.some.inj hn
  have hdispatch := hput (Crawler.not_linkLoop_of_isRelevant hrelevant)
  have hnotice : sampleArrival.notice? (Crawler.handler {} ["p"] channel) = some sampleNotice :=
    congrArg (Option.join ∘ Except.toOption) hdispatch
  rw [heard, Arrival.noticesOf, h, List.flatMap_singleton, List.filterMap_cons_some hnotice,
    List.filterMap_nil]

/-- However a session was used and whichever observers did not start: if no stop fails, an event that is
passed on while a request is answered is kept exactly if it comes in after the start of the new watcher. Of
those that come in while the old one is still at work nothing is left, though the files were read before some
of them. The session is then the same as if they had come before the request, and no tick crawls again. -/
theorem late_events_kept_iff (settings : Settings) (startFaults stopFaults : List (Option String))
    (hstops : ∀ fault ∈ stopFaults, fault = none) (hwatch : settings.watch = true) (s : Session)
    (hs : Reached settings startFaults stopFaults s)
    (env : Environment) (r : CrawlRequest) (directory : Address)
    (haccepted : accepted? env r = some directory)
    (hnames : ∀ name ∈ directory, '\x00' ∉ name.toList)
    (o : Outcome) (hanswer : (s.handle env r).result = .ok o) (gaps : Gaps) :
    let read := s.readAmid r o gaps
    let after := s.handleAmid env r directory o gaps
    let early := s.heard gaps.read
    let late := after.heard (gaps.started ++ gaps.held)
    (read.hear gaps.read).pending? = read.pending?.map (· ++ early) ∧
      after = (((s.hear (gaps.reading ++ gaps.read)).handle env r).session).hear
        (gaps.started ++ gaps.held) ∧
      after.pending? = some late ∧ after.debouncer.bind Debouncer.lastChange = none ∧
      ((∃ others, after.pending? = some (others ++ early ++ late)) ↔ early = []) ∧
      (late ≠ [] → after.Due) ∧
      (late = [] → ∀ (times : List (Environment × Float)) env' now,
        ((after.run (times.map fun t => .tick t.1 t.2)).tick env' now).result = .ok none) := by
  intro read after early late
  obtain ⟨hattended, hsettings⟩ := hs.attended hstops
  have hwatch' : s.settings.watch = true := hsettings ▸ hwatch
  have hreachable := reachable_of_answer hwatch' haccepted hnames hanswer
  obtain ⟨crawled, hcrawl, rfl⟩ := exists_crawled_of_answer haccepted hanswer
  have hread : read.Attended := hattended.readAmid r _ gaps
  have heq := handleAmid_eq hattended hwatch' haccepted hcrawl gaps
  obtain ⟨d, hd, hlast, hpending⟩ :=
    pending_handleAmid hattended haccepted hcrawl hwatch' hreachable gaps
  have hrequest : after.lastRequest = some r := by
    show (s.handleAmid env r directory _ gaps).lastRequest = some r
    rw [heq, lastRequest_hear]
    exact lastRequest_of_crawled haccepted hcrawl hwatch' hreachable
  have hafter : after.pending? = some late := by
    show after.debouncer.map _ = some late
    rw [hd, Option.map_some, hpending]
  refine ⟨hread.pending?_hear gaps.read, heq, hafter, ?_, ?_, fun hlate => ?_,
    fun hlate times env' now => ?_⟩
  · show (s.handleAmid env r directory _ gaps).debouncer.bind _ = none
    rw [hd, Option.bind_some, hlast]
  · rw [hafter]
    constructor
    · rintro ⟨others, hothers⟩
      have hnothing : others ++ early = [] := List.append_left_eq_self.mp (Option.some.inj hothers).symm
      exact (List.append_eq_nil_iff.mp hnothing).2
    · intro hearly
      exact ⟨[], by rw [hearly]; rfl⟩
  · exact due_of_pending hd hrequest (by rwa [hpending])
  · have hrest : after.AtRest := ⟨d, hd, hlast, hpending.trans hlate⟩
    exact ((hrest.ticks times).tick env' now).1

theorem late_events_kept_sample :
    let after := watchedSample.handleAmid Crawler.sampleEnvironment sampleRequest ["p"] sampleOutcome
      { started := [sampleArrival] }
    after.pending? = some [sampleNotice] ∧ after.Due := by
  intro after
  obtain ⟨-, heq, hpending, -, -, hdue, -⟩ := late_events_kept_iff sampleSettings [] [] (by simp) rfl
    watchedSample (.run _) Crawler.sampleEnvironment sampleRequest ["p"] accepted?_sample (by decide)
    sampleOutcome answer_sample { started := [sampleArrival] }
  have hlisteners := (listeners_of_crawled attended_sample.1 accepted?_sample crawlDirectory_watchedSample
    watch_watchedSample Crawler.reachable_sample listeners_sample.2).1
  have hheard : after.heard [sampleArrival] = [sampleNotice] := by
    show heard (watchedSample.handleAmid _ _ _ _ _) _ = _
    rw [heq]
    exact heard_sample (attended_sample.2 ▸ hlisteners)
  exact ⟨hpending.trans (congrArg some hheard), hdue (hheard ▸ List.cons_ne_nil _ _)⟩

/-- If the sample file is written between the reading of the files and the stop of the old watcher, a notice is put on
the channel, but nothing is left of it. The session watches the directory of the request, and crawls it no
more. -/
theorem late_event_lost :
    let gaps : Gaps := { read := [sampleArrival] }
    let read := watchedSample.readAmid sampleRequest sampleOutcome gaps
    let after := watchedSample.handleAmid Crawler.sampleEnvironment sampleRequest ["p"] sampleOutcome gaps
    accepted? Crawler.sampleEnvironment sampleRequest = some ["p"] ∧
      (watchedSample.handle Crawler.sampleEnvironment sampleRequest).result = .ok sampleOutcome ∧
      (∃ w, watchedSample.watcher = some w ∧ w.root = ["p"]) ∧
      (read.hear gaps.read).pending? = some [sampleNotice] ∧
      after.pending? = some [] ∧ after.debouncer.bind Debouncer.lastChange = none ∧
      ∀ (times : List (Environment × Float)) env now,
        ((after.run (times.map fun t => .tick t.1 t.2)).tick env now).result = .ok none := by
  intro gaps read after
  have hroot : ∃ w, watchedSample.watcher = some w ∧ w.root = ["p"] := by
    obtain ⟨w, hw, -⟩ := exists_watcher_of_crawled (s := fresh sampleSettings [] []) accepted?_sample
      Crawler.crawlDirectory_sample rfl Crawler.reachable_sample
    have hcoherent := (coherent_fresh sampleSettings [] []).handle_of_crawled accepted?_sample
      Crawler.crawlDirectory_sample
    exact ⟨w, hw, (Option.some.inj (hcoherent.root w hw)).symm⟩
  have hput : (read.hear gaps.read).pending? = some [sampleNotice] := by
    have hread : read.Attended := attended_sample.1.readAmid _ _ gaps
    obtain ⟨d, hd, -, hpending⟩ : watchedSample.AtRest :=
      atRest_of_crawled (s := fresh sampleSettings [] []) accepted?_sample Crawler.crawlDirectory_sample rfl
        Crawler.reachable_sample
    have hbefore : read.pending? = some [] := by
      show watchedSample.pending? = some []
      rw [pending?, hd, Option.map_some, hpending]
    rw [hread.pending?_hear, hbefore]
    exact congrArg some (heard_sample listeners_sample.1)
  obtain ⟨d, hd, hlast, hpending⟩ : ∃ d, after.debouncer = some d ∧ d.lastChange = none ∧
      after.channels.pending d.channel = [] :=
    pending_handleAmid attended_sample.1 accepted?_sample crawlDirectory_watchedSample watch_watchedSample
      Crawler.reachable_sample gaps
  have hrest : after.AtRest := ⟨d, hd, hlast, hpending⟩
  refine ⟨accepted?_sample, answer_sample, hroot, hput, ?_, ?_,
    fun times env now => ((hrest.ticks times).tick env now).1⟩
  · show after.debouncer.map _ = some []
    rw [hd, Option.map_some, hpending]
  · show after.debouncer.bind _ = none
    rw [hd, Option.bind_some, hlast]

end Session
end FlowAtlas
