import FlowAtlas.Proofs.Crawl
import FlowAtlas.Proofs.SessionRun

/-! A session owns a single watcher. Of all observers that were ever made for it, only that of the watcher
at hand can be alive, and the debouncer reads the channel that only the handler of this watcher writes. What
is left of the watchers before it has no influence on later ticks. -/

namespace FlowAtlas

theorem Channels.count_deliver (cs : Channels) (env : Environment) (e : FileEvent) (h : Handler) :
    (cs.deliver env e h).count = cs.count := by
  unfold deliver
  split
  · exact cs.count_put h.channel _
  · rfl

namespace Session
variable {s : Session} {env : Environment} {r : CrawlRequest} {now : Float}

theorem count_polled (s : Session) (d : Debouncer Float) (now : Float) :
    (s.polled d now).channels.count = s.channels.count := by
  show (d.poll now s.channels).2.2.count = s.channels.count
  rw [Debouncer.channels_poll, Channels.count_clear]

/-- The watcher at hand is the only one that is active, if no stop fails. -/
structure Sole (s : Session) : Prop where
  stops : ∀ fault ∈ s.observers.stopFaults, fault = none
  paired : s.watcher = none ↔ s.debouncer = none
  alive : ∀ i, s.observers.isAlive i = true → ∃ w, s.watcher = some w ∧ w.observer = some i
  reads : ∀ w d, s.watcher = some w → s.debouncer = some d → d.channel = w.handler.channel
  made : ∀ w, s.watcher = some w → w.handler.channel < s.channels.count
  scheduled : ∀ i, ∀ h ∈ (s.observers.member i).handlers, h.channel < s.channels.count ∧
    ∀ w, s.watcher = some w → h.channel = w.handler.channel → h = w.handler

namespace Sole

theorem not_isAlive (hs : s.Sole) (hwatcher : s.watcher = none) (i : Nat) :
    s.observers.isAlive i ≠ true := fun hi => by
  obtain ⟨w, hw, -⟩ := hs.alive i hi
  cases hwatcher.symm.trans hw

theorem stopWatching (hs : s.Sole) : s.stopWatching.session.Sole := by
  unfold Session.stopWatching
  cases hw : s.watcher with
  | none =>
    exact ⟨hs.stops, ⟨fun _ => rfl, fun _ => rfl⟩, fun i hi => (hs.not_isAlive hw i hi).elim, nofun, nofun,
      fun i h hh => ⟨(hs.scheduled i h hh).1, nofun⟩⟩
  | some w =>
    have hmember := w.member_stop hs.stops
    -- The watcher stops the only observer that can be alive.
    have hdead : ∀ i, (w.stop s.observers).observers.isAlive i ≠ true := fun i hi => by
      obtain ⟨halive, hother⟩ := (hmember i).2.mp hi
      obtain ⟨w', hw', hobserver⟩ := hs.alive i halive
      obtain rfl := Option.some.inj (hw.symm.trans hw')
      exact hother hobserver
    refine ⟨w.stopFaults_stop hs.stops, ⟨fun _ => rfl, fun _ => rfl⟩, fun i hi => (hdead i hi).elim, nofun,
      nofun, fun i h hh => ?_⟩
    rw [(hmember i).1] at hh
    exact ⟨(hs.scheduled i h hh).1, nofun⟩

theorem startWatching (hs : s.Sole) (hwatcher : s.watcher = none) (env : Environment) (place : String)
    (directory : Address) : (s.startWatching env place directory).session.Sole := by
  have hdead := hs.not_isAlive hwatcher
  have hbelow : ∀ i, ∀ h ∈ (s.observers.member i).handlers, h.channel < s.channels.count :=
    fun i h hh => (hs.scheduled i h hh).1
  have hgrown : ∀ channel ≤ s.channels.count, channel < s.channels.make.count := fun channel hle => by
    rw [Channels.count_make]
    exact Nat.lt_succ_of_le hle
  rcases s.startWatching_cases env place directory with ⟨-, hidle⟩ | ⟨w, -, hhandler, -, hstarted⟩
  · rw [hidle]
    have hnone : ∀ w, s.watcher = some w → False := fun w hw => nomatch hwatcher.symm.trans hw
    refine ⟨hs.stops, hs.paired, fun i hi => (hdead i hi).elim, fun w _ hw => (hnone w hw).elim,
      fun w hw => (hnone w hw).elim, fun i h hh => ⟨?_, fun w hw => (hnone w hw).elim⟩⟩
    exact hgrown _ (Nat.le_of_lt (hbelow i h hh))
  · rw [hstarted]
    have hchannel : w.handler.channel = s.channels.count := by rw [hhandler]; rfl
    have hnew : s.observers.count < s.observers.make.count := by
      rw [Observers.count_make]
      exact Nat.lt_succ_self _
    have hmember := w.member_startObserver hnew
    refine ⟨?_, ?_, fun i hi => ?_, ?_, ?_, fun i h hh => ?_⟩
    · rw [Watcher.stopFaults_startObserver]
      exact hs.stops
    · exact ⟨nofun, nofun⟩
    · rcases (hmember i).2 hi with halive | ⟨rfl, hobserver⟩
      · rw [Observers.isAlive_eq, Observers.member_make, ← Observers.isAlive_eq] at halive
        exact (hdead i halive).elim
      · exact ⟨_, rfl, hobserver⟩
    · rintro w' d hw hd
      cases hw
      cases hd
      rw [Watcher.handler_startObserver, hchannel]
    · rintro w' hw
      cases hw
      rw [Watcher.handler_startObserver, hchannel]
      exact hgrown _ (Nat.le_refl _)
    · -- The handlers from before have older channels than the new one.
      rw [(hmember i).1, Observers.member_make] at hh
      rcases List.mem_append.mp hh with hold | hown
      · have hlt := hbelow i h hold
        refine ⟨hgrown _ (Nat.le_of_lt hlt), fun w' hw heq => ?_⟩
        cases hw
        rw [Watcher.handler_startObserver, hchannel] at heq
        exact (Nat.ne_of_lt hlt heq).elim
      · have hsame : h = w.handler := by
          split at hown
          · exact List.mem_singleton.mp hown
          · cases hown
        refine ⟨hgrown _ (Nat.le_of_eq (by rw [hsame, hchannel])), fun w' hw _ => ?_⟩
        cases hw
        rw [Watcher.handler_startObserver, hsame]

theorem kept : Kept Sole where
  accept _ _ hs := ⟨hs.stops, hs.paired, hs.alive, hs.reads, hs.made, hs.scheduled⟩
  finish _ _ hs := ⟨hs.stops, hs.paired, hs.alive, hs.reads, hs.made, hs.scheduled⟩
  poll s d now hd hs := by
    have hcount := s.count_polled d now
    have hwatched : s.watcher ≠ none := fun h => nomatch hd.symm.trans (hs.paired.mp h)
    refine ⟨hs.stops, ⟨fun h => (hwatched h).elim, nofun⟩, hs.alive, fun w d' hw hd' => ?_,
      fun w hw => ?_, fun i h hh => ?_⟩
    · obtain rfl := Option.some.inj hd'
      rw [Debouncer.channel_poll]
      exact hs.reads w d hw hd
    · rw [hcount]
      exact hs.made w hw
    · rw [hcount]
      exact hs.scheduled i h hh
  stop _ hs := hs.stopWatching
  start _ env place directory hwatcher _ hs := hs.startWatching hwatcher env place directory
  deliver s env e h hs := by
    have hcount : (s.deliver env e h).channels.count = s.channels.count :=
      s.channels.count_deliver env e h
    refine ⟨hs.stops, hs.paired, hs.alive, hs.reads, fun w hw => ?_, fun i h' hh => ?_⟩
    · rw [hcount]
      exact hs.made w hw
    · rw [hcount]
      exact hs.scheduled i h' hh

end Sole

theorem sole_fresh (settings : Settings) (startFaults : List (Option String))
    {stopFaults : List (Option String)} (hstops : ∀ fault ∈ stopFaults, fault = none) :
    (fresh settings startFaults stopFaults).Sole where
  stops := hstops
  paired := ⟨fun _ => rfl, fun _ => rfl⟩
  alive _ hi := nomatch hi
  reads _ _ hw := nomatch hw
  made _ hw := nomatch hw
  scheduled _ _ hh := nomatch hh

structure Stale (channel : Nat) (s : Session) : Prop where
  made : channel < s.channels.count
  unread : ∀ d, s.debouncer = some d → d.channel ≠ channel

variable {channel : Nat}

theorem stale_stopWatching (hmade : channel < s.channels.count) :
    s.stopWatching.session.Stale channel := by
  obtain ⟨-, hnone⟩ := s.stopWatching_cleared
  refine ⟨?_, fun d hd => nomatch hnone.symm.trans hd⟩
  rw [channels_stopWatching]
  exact hmade

/-- A stale channel stays stale, because a new debouncer reads a new channel. -/
theorem Stale.kept (channel : Nat) : Kept (Stale channel) where
  accept _ _ hs := ⟨hs.made, hs.unread⟩
  finish _ _ hs := ⟨hs.made, hs.unread⟩
  poll s d now hd hs := by
    refine ⟨?_, fun d' hd' => ?_⟩
    · rw [count_polled]
      exact hs.made
    · obtain rfl := Option.some.inj hd'
      rw [Debouncer.channel_poll]
      exact hs.unread d hd
  stop _ hs := stale_stopWatching hs.made
  start s env place directory _ _ hs := by
    have hmade : channel < s.channels.make.count := by
      rw [Channels.count_make]
      exact Nat.lt_succ_of_lt hs.made
    rcases s.startWatching_cases env place directory with ⟨-, hidle⟩ | ⟨w, -, -, -, hstarted⟩
    · rw [hidle]
      exact ⟨hmade, hs.unread⟩
    · rw [hstarted]
      refine ⟨hmade, fun d hd => ?_⟩
      cases hd
      exact Nat.ne_of_gt hs.made
  deliver s env e h hs := by
    refine ⟨?_, hs.unread⟩
    show channel < (s.channels.deliver env e h).count
    rw [Channels.count_deliver]
    exact hs.made

theorem kept_held_or_stale (w : Watcher) :
    Kept fun s => s.Sole ∧ (s.watcher = some w ∨ s.Stale w.handler.channel) where
  accept s r hs := ⟨Sole.kept.accept s r hs.1, hs.2.imp id ((Stale.kept _).accept s r)⟩
  finish s o hs := ⟨Sole.kept.finish s o hs.1, hs.2.imp id ((Stale.kept _).finish s o)⟩
  poll s d now hd hs :=
    ⟨Sole.kept.poll s d now hd hs.1, hs.2.imp id ((Stale.kept _).poll s d now hd)⟩
  stop s hs := by
    refine ⟨Sole.kept.stop s hs.1, .inr (stale_stopWatching ?_)⟩
    rcases hs.2 with hheld | hstale
    · exact hs.1.made w hheld
    · exact hstale.made
  start s env place directory hwatcher hdebouncer hs := by
    refine ⟨Sole.kept.start s env place directory hwatcher hdebouncer hs.1, .inr ?_⟩
    rcases hs.2 with hheld | hstale
    · cases hwatcher.symm.trans hheld
    · exact (Stale.kept _).start s env place directory hwatcher hdebouncer hstale
  deliver s env e h hs :=
    ⟨Sole.kept.deliver s env e h hs.1, hs.2.imp id ((Stale.kept _).deliver s env e h)⟩

/-- Sessions that differ in nothing but what one channel holds. -/
inductive AgreeOff (channel : Nat) (s : Session) : Session → Prop
  | intro (cs : Channels) (count : cs.count = s.channels.count)
      (pending : ∀ other ≠ channel, cs.pending other = s.channels.pending other) :
      AgreeOff channel s { s with channels := cs }

variable {t : Session}

theorem agreeOff_deliver (s : Session) (env : Environment) (e : FileEvent) (h : Handler) :
    AgreeOff h.channel s (s.deliver env e h) := by
  refine .intro _ (s.channels.count_deliver env e h) fun other hne => ?_
  unfold Channels.deliver
  split
  · exact s.channels.pending_put_of_ne hne _
  · rfl

namespace AgreeOff

theorem rest (hst : AgreeOff channel s t) : t.settings = s.settings ∧ t.lastRequest = s.lastRequest ∧
    t.debouncer = s.debouncer ∧ t.observers = s.observers := by
  cases hst
  exact ⟨rfl, rfl, rfl, rfl⟩

theorem deliver (hst : AgreeOff channel s t) (env : Environment) (e : FileEvent) (h : Handler) :
    AgreeOff channel (s.deliver env e h) (t.deliver env e h) := by
  obtain ⟨cs, hcount, hpending⟩ := hst
  refine .intro (cs.deliver env e h) ?_ fun other hne => ?_
  · show _ = (s.channels.deliver env e h).count
    rw [Channels.count_deliver, Channels.count_deliver, hcount]
  · show _ = (s.channels.deliver env e h).pending other
    unfold Channels.deliver
    split
    · exact Channels.pending_put_congr hcount (hpending other hne) h.channel _
    · exact hpending other hne

theorem stopWatching (hst : AgreeOff channel s t) :
    AgreeOff channel s.stopWatching.session t.stopWatching.session := by
  obtain ⟨cs, hcount, hpending⟩ := hst
  unfold Session.stopWatching
  cases s.watcher <;> exact .intro cs hcount hpending

theorem startWatching (hst : AgreeOff channel s t) (env : Environment) (place : String)
    (directory : Address) : AgreeOff channel (s.startWatching env place directory).session
      (t.startWatching env place directory).session ∧
      (t.startWatching env place directory).result = (s.startWatching env place directory).result := by
  obtain ⟨cs, hcount, hpending⟩ := hst
  have hmake : cs.make.count = s.channels.make.count := by
    rw [Channels.count_make, Channels.count_make, hcount]
  have hpending' : ∀ other ≠ channel, cs.make.pending other = s.channels.make.pending other := by
    intro other hne
    rw [Channels.pending_make, Channels.pending_make, hpending other hne]
  have hverbose : ∀ cs, verbose { s with channels := cs } = s.verbose := fun _ => rfl
  unfold Session.startWatching
  simp only [hcount, hverbose]
  generalize Watcher.create env ⟨"/", directory⟩ _ s.verbose s.observers = made
  cases made with
  | error fault =>
    dsimp only
    split <;> exact ⟨.intro cs.make hmake hpending', rfl⟩
  | ok made => exact ⟨.intro cs.make hmake hpending', rfl⟩

theorem answered (hst : AgreeOff channel s t) (r : CrawlRequest) (o : Outcome) :
    AgreeOff channel (s.answered r o) (t.answered r o) := by
  obtain ⟨cs, hcount, hpending⟩ := hst
  exact .intro cs hcount hpending

theorem handle_of_accepted (hst : AgreeOff channel s t) {env : Environment} {directory : Address}
    (haccepted : accepted? env r = some directory) :
    AgreeOff channel (s.handle env r).session (t.handle env r).session ∧
      (t.handle env r).result = (s.handle env r).result := by
  obtain ⟨hsettings, -⟩ := hst.rest
  cases hcrawl : s.settings.crawler.crawlDirectory env r.suppress directory with
  | error fault =>
    rw [handle_of_fault haccepted hcrawl, handle_of_fault haccepted (hsettings ▸ hcrawl)]
    obtain ⟨cs, hcount, hpending⟩ := hst
    exact ⟨.intro cs hcount hpending, rfl⟩
  | ok crawled =>
    obtain ⟨hs, hresult⟩ := handle_of_crawled haccepted hcrawl
    obtain ⟨ht, hresult'⟩ := handle_of_crawled (s := t) haccepted (hsettings ▸ hcrawl)
    have hanswered := hst.answered r (.ofCrawl r crawled)
    obtain ⟨hstarted, hsame⟩ := hanswered.stopWatching.startWatching env r.place directory
    rw [hs, hresult, ht, hresult', hsettings]
    split
    · exact ⟨hstarted, congrArg _ hsame⟩
    · exact ⟨hanswered, rfl⟩

theorem handle (hst : AgreeOff channel s t) (env : Environment) (r : CrawlRequest) :
    AgreeOff channel (s.handle env r).session (t.handle env r).session ∧
      (t.handle env r).result = (s.handle env r).result := by
  cases haccepted : accepted? env r with
  | none =>
    rw [handle_of_refused haccepted, handle_of_refused haccepted]
    obtain ⟨cs, hcount, hpending⟩ := hst
    refine ⟨.intro cs hcount hpending, ?_⟩
    unfold accepted? at haccepted
    unfold Session.handle
    rcases htarget : target? env r with _ | _ | _
    · rfl
    · rfl
    · rw [htarget] at haccepted
      cases haccepted
  | some directory => exact hst.handle_of_accepted haccepted

theorem polled (hst : AgreeOff channel s t) {d : Debouncer Float} (hunread : d.channel ≠ channel)
    (now : Float) : AgreeOff channel (s.polled d now) (t.polled d now) ∧
      (d.poll now t.channels).1 = (d.poll now s.channels).1 := by
  obtain ⟨cs, hcount, hpending⟩ := hst
  obtain ⟨hfires, hnext⟩ := d.poll_congr now (hpending d.channel hunread)
  have hpolled : ({ s with channels := cs } : Session).polled d now =
      { s.polled d now with channels := (d.poll now cs).2.2 } := by
    unfold Session.polled
    rw [hnext]
  refine ⟨?_, hfires⟩
  rw [hpolled]
  refine .intro _ ?_ fun other hne => ?_
  · rw [count_polled, Debouncer.channels_poll, Channels.count_clear, hcount]
  · show _ = (d.poll now s.channels).2.2.pending other
    rw [Debouncer.channels_poll, Debouncer.channels_poll]
    by_cases hother : other = d.channel
    · rw [hother, Channels.pending_clear, Channels.pending_clear]
    · rw [cs.pending_clear_of_ne hother, s.channels.pending_clear_of_ne hother, hpending other hne]

theorem tick (hst : AgreeOff channel s t) (hstale : s.Stale channel) (env : Environment) (now : Float) :
    AgreeOff channel (s.tick env now).session (t.tick env now).session ∧
      (t.tick env now).result = (s.tick env now).result := by
  obtain ⟨-, hrequest, hdebouncer, -⟩ := hst.rest
  by_cases hidle : s.debouncer = none ∨ s.lastRequest = none
  · obtain ⟨hs, hresult⟩ := tick_of_idle hidle env now
    obtain ⟨ht, hresult'⟩ := tick_of_idle (s := t) (by rwa [hdebouncer, hrequest]) env now
    rw [hs, ht, hresult, hresult']
    exact ⟨hst, rfl⟩
  · obtain ⟨hd, hr⟩ := not_or.mp hidle
    obtain ⟨d, hd⟩ := Option.ne_none_iff_exists'.mp hd
    obtain ⟨r, hr⟩ := Option.ne_none_iff_exists'.mp hr
    obtain ⟨hs, hresult⟩ := tick_of_debouncer hd hr env now
    obtain ⟨ht, hresult'⟩ := tick_of_debouncer (hdebouncer.trans hd) (hrequest.trans hr) env now
    obtain ⟨hpolled, hpoll⟩ := hst.polled (hstale.unread d hd) now
    have hfires : t.fires now = s.fires now := by
      rw [fires, fires, hdebouncer, hd]
      exact hpoll
    rw [hs, ht, hresult, hresult', hfires]
    split
    · obtain ⟨hanswer, hsame⟩ := hpolled.handle env r
      exact ⟨hanswer, congrArg (Except.map some) hsame⟩
    · exact ⟨hpolled, rfl⟩

theorem act (hst : AgreeOff channel s t) (hstale : s.Stale channel) (a : Action) :
    AgreeOff channel (s.act a) (t.act a) := by
  cases a with
  | request env r => exact (hst.handle env r).1
  | tick env now => exact (hst.tick hstale env now).1
  | trace r => exact hst
  | stop => exact hst.stopWatching
  | event env observer e =>
    obtain ⟨-, -, -, hobservers⟩ := hst.rest
    rw [Session.act, Session.act, hobservers]
    clear hstale hobservers
    generalize (s.observers.member observer).handlers = handlers
    induction handlers generalizing s t with
    | nil => exact hst
    | cons h rest ih => exact ih (hst.deliver env e h)

theorem run (hst : AgreeOff channel s t) (hstale : s.Stale channel) (actions : List Action) :
    AgreeOff channel (s.run actions) (t.run actions) := by
  induction actions generalizing s t with
  | nil => exact hst
  | cons a rest ih => exact ih (hst.act hstale a) ((Stale.kept channel).act hstale a)

end AgreeOff

/-- However a session is used, whatever becomes of the files and whichever observers do not start: if no
stop fails, there is a debouncer exactly as long as there is a watcher, no other observer than that of
the watcher is alive, no other handler writes the channel that the debouncer reads, and an event that
reaches the handler of an earlier watcher changes the result of no tick. -/
theorem run_single_watcher (settings : Settings) (startFaults stopFaults : List (Option String))
    (hstops : ∀ fault ∈ stopFaults, fault = none) (actions : List Action) :
    let start := fresh settings startFaults stopFaults
    let s := start.run actions
    (s.watcher = none ↔ s.debouncer = none) ∧
      (∀ i j, s.observers.isAlive i = true → s.observers.isAlive j = true → i = j) ∧
      (∀ i, s.observers.isAlive i = true → ∃ w, s.watcher = some w ∧ w.observer = some i) ∧
      (∀ w d, s.watcher = some w → s.debouncer = some d → d.channel = w.handler.channel ∧
        ∀ i, ∀ h ∈ (s.observers.member i).handlers, h.channel = d.channel → h = w.handler) ∧
      ∀ earlier between w, actions = earlier ++ between → (start.run earlier).watcher = some w →
        s.watcher ≠ some w → ∀ env e later env' now,
          (((s.deliver env e w.handler).run later).tick env' now).result =
            ((s.run later).tick env' now).result := by
  intro start s
  have hstart : start.Sole := sole_fresh settings startFaults hstops
  have hs : s.Sole := Sole.kept.run hstart actions
  refine ⟨hs.paired, fun i j hi hj => ?_, hs.alive, fun w d hw hd => ?_, ?_⟩
  · obtain ⟨w, hw, hwi⟩ := hs.alive i hi
    obtain ⟨w', hw', hwj⟩ := hs.alive j hj
    obtain rfl := Option.some.inj (hw.symm.trans hw')
    exact Option.some.inj (hwi.symm.trans hwj)
  · have hreads := hs.reads w d hw hd
    exact ⟨hreads, fun i h hh heq => (hs.scheduled i h hh).2 w hw (heq.trans hreads)⟩
  · rintro earlier between w rfl hheld hnot env e later env' now
    have hrun : s = (start.run earlier).run between := start.run_append earlier between
    have hstale : s.Stale w.handler.channel := by
      rw [hrun] at hnot ⊢
      have hearlier : (start.run earlier).Sole := Sole.kept.run hstart earlier
      exact ((kept_held_or_stale w).run ⟨hearlier, .inl hheld⟩ between).2.resolve_left hnot
    have hagree := (agreeOff_deliver s env e w.handler).run hstale later
    exact (hagree.tick ((Stale.kept _).run hstale later) env' now).2

theorem exists_watcher_of_crawled {directory : Address} {crawled : Crawl}
    (haccepted : accepted? env r = some directory)
    (hcrawl : s.settings.crawler.crawlDirectory env r.suppress directory = .ok crawled)
    (hwatch : s.settings.watch = true) (hreachable : env.Reachable directory) :
    ∃ w, (s.handle env r).session.watcher = some w ∧ w.handler.channel = s.channels.count := by
  obtain ⟨-, w, hhandler, hstarted⟩ := started_of_crawled haccepted hcrawl hwatch hreachable
  refine ⟨_, congrArg Session.watcher hstarted, ?_⟩
  rw [Watcher.handler_startObserver, hhandler]
  rfl

theorem run_single_watcher_sample :
    let start := fresh { crawler := {}, watch := true, debounce := 0.5 } [none, some "no more watches"] [none]
    let request := Action.request Crawler.sampleEnvironment { root := "/p", suppress := false }
    let s := start.run [request, request]
    ∃ w w', (start.run [request]).watcher = some w ∧ s.watcher = some w' ∧
      w.handler.channel ≠ w'.handler.channel ∧
      (∀ i, s.observers.isAlive i = true → w'.observer = some i) ∧
      ∀ env e later env' now, (((s.deliver env e w.handler).run later).tick env' now).result =
        ((s.run later).tick env' now).result := by
  intro start request s
  have htrim : Text.trim "/p" = "/p" := by decide +kernel
  have haccepted : accepted? Crawler.sampleEnvironment { root := "/p", suppress := false } = some ["p"] :=
    accepted?_of_root (by decide +kernel) (htrim.symm ▸ Crawler.directory?_sample) false
  have hstops : ∀ fault ∈ [(none : Option String)], fault = none := by simp
  have hsole : (start.run [request]).Sole := Sole.kept.run (sole_fresh _ _ hstops) [request]
  have hsettings : (start.run [request]).settings = start.settings :=
    (kept_settings start.settings).run rfl [request]
  obtain ⟨crawled, hcrawl⟩ : ∃ crawled, start.settings.crawler.crawlDirectory Crawler.sampleEnvironment
      false ["p"] = .ok crawled := ⟨_, Crawler.crawlDirectory_sample⟩
  have hwatch : start.settings.watch = true := rfl
  obtain ⟨w, hw, -⟩ := exists_watcher_of_crawled (s := start) haccepted hcrawl hwatch
    Crawler.reachable_sample
  rw [← hsettings] at hcrawl hwatch
  obtain ⟨w', hw', hchannel⟩ := exists_watcher_of_crawled haccepted hcrawl hwatch
    Crawler.reachable_sample
  have hne : w.handler.channel ≠ w'.handler.channel := by
    rw [hchannel]
    exact Nat.ne_of_lt (hsole.made w hw)
  obtain ⟨-, -, halive, -, hold⟩ := run_single_watcher start.settings [none, some "no more watches"]
    [none] hstops [request, request]
  refine ⟨w, w', hw, hw', hne, fun i hi => ?_, hold [request] [request] w rfl hw fun hsame => ?_⟩
  · obtain ⟨held, hheld, hobserver⟩ := halive i hi
    obtain rfl := Option.some.inj (hw'.symm.trans hheld)
    exact hobserver
  · exact hne (congrArg (·.handler.channel) (Option.some.inj (hsame.symm.trans hw')))

end Session
end FlowAtlas
