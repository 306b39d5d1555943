import FlowAtlas.Proofs.FileLookup
import FlowAtlas.Proofs.Observers
import FlowAtlas.Proofs.Results
import FlowAtlas.Session

/-! Runs of a session: requests, ticks, traces, stops and events, one after the other. Each of them comes
with the surroundings that it meets, so the files may change in any way between two of them. What a
session does is put together from a few moves, and what each move keeps is kept by every run. -/

namespace FlowAtlas

/-- The channels after an event was dispatched to a handler. One that fails puts nothing on its
channel. -/
def Channels.deliver (cs : Channels) (env : Environment) (e : FileEvent) (h : Handler) : Channels :=
  match h.dispatch? env e with
  | .ok (some n) => cs.put h.channel n
  | _ => cs

theorem Observers.foldl_deliver_of_report {os : Observers} {env : Environment} {e : FileEvent}
    {cs cs' : Channels} (h : os.report env e cs = .ok cs') :
    (os.alive.flatMap Observer.handlers).foldl (·.deliver env e) cs = cs' := by
  unfold report at h
  generalize os.alive.flatMap Observer.handlers = handlers at h
  induction handlers generalizing cs with
  | nil => exact Except.ok.inj h
  | cons handler rest ih =>
    rw [List.foldlM_cons] at h
    rw [List.foldl_cons]
    refine ih ?_
    unfold Channels.deliver
    cases hdispatch : handler.dispatch? env e with
    | error fault =>
      rw [hdispatch] at h
      cases h
    | ok notice =>
      rw [hdispatch] at h
      cases notice <;> exact h

namespace Session

/-- What a session is asked to do, or what happens to it. An event is one of some observer, which passes
it on to its handlers. -/
inductive Action where
  | request (env : Environment) (r : CrawlRequest)
  | tick (env : Environment) (now : Float)
  | trace (r : TraceRequest)
  | stop
  | event (env : Environment) (observer : Nat) (e : FileEvent)

def deliver (s : Session) (env : Environment) (e : FileEvent) (h : Handler) : Session :=
  { s with channels := s.channels.deliver env e h }

def act (s : Session) : Action → Session
  | .request env r => (s.handle env r).session
  | .tick env now => (s.tick env now).session
  | .trace _ => s
  | .stop => s.stopWatching.session
  | .event env observer e => (s.observers.member observer).handlers.foldl (·.deliver env e) s

def run (s : Session) (actions : List Action) : Session :=
  actions.foldl act s

def fresh (settings : Settings) (startFaults stopFaults : List (Option String)) : Session :=
  { settings, observers := { startFaults, stopFaults } }

theorem run_append (s : Session) (actions more : List Action) :
    s.run (actions ++ more) = (s.run actions).run more :=
  List.foldl_append

theorem foldl_deliver (s : Session) (env : Environment) (e : FileEvent) (handlers : List Handler) :
    handlers.foldl (·.deliver env e) s =
      { s with channels := handlers.foldl (·.deliver env e) s.channels } := by
  induction handlers generalizing s with
  | nil => rfl
  | cons h rest ih => exact ih (s.deliver env e h)

theorem run_events (s : Session) (env : Environment) (e : FileEvent) (observers : List Nat) :
    s.run (observers.map (.event env · e)) =
      ((observers.map s.observers.member).flatMap Observer.handlers).foldl (·.deliver env e) s := by
  induction observers generalizing s with
  | nil => rfl
  | cons i rest ih =>
    have hobservers : (s.act (.event env i e)).observers = s.observers := by
      rw [act, foldl_deliver]
    show (s.act (.event env i e)).run (rest.map (.event env · e)) = _
    rw [ih, hobservers, List.map_cons, List.flatMap_cons, List.foldl_append]
    rfl

theorem eq_run_of_report {s s' : Session} {env : Environment} {e : FileEvent}
    (h : s.report env e = .ok s') :
    s' = s.run (((List.range s.observers.count).filter s.observers.isAlive).map (.event env · e)) := by
  unfold report at h
  cases hreport : s.observers.report env e s.channels with
  | error fault => rw [hreport] at h; cases h
  | ok channels =>
    rw [hreport] at h
    cases h
    rw [run_events, ← Observers.alive_eq, foldl_deliver, Observers.foldl_deliver_of_report hreport]

def polled (s : Session) (d : Debouncer Float) (now : Float) : Session :=
  { s with
    debouncer := some (d.poll now s.channels).2.1
    channels := (d.poll now s.channels).2.2 }

def fires (s : Session) (now : Float) : Bool :=
  s.debouncer.any fun d => (d.poll now s.channels).1

variable {s : Session} {env : Environment} {r : CrawlRequest} {now : Float}

/-- The directory that a request is accepted for. -/
def accepted? (env : Environment) (r : CrawlRequest) : Option Address :=
  (target? env r).toOption.join

theorem target?_eq_of_accepted? {directory : Address} (h : accepted? env r = some directory) :
    target? env r = .ok (some directory) := by
  unfold accepted? at h
  cases htarget : target? env r with
  | error fault => rw [htarget] at h; cases h
  | ok found =>
    rw [htarget] at h
    rw [show found = some directory from h]

theorem accepted?_of_root {root : String} {directory : Address} (hplace : Text.trim root ≠ "")
    (h : env.directory? (Text.trim root) = .ok (some directory)) (suppress : Bool) :
    accepted? env { root, suppress } = some directory := by
  have htarget : target? env { root, suppress } = .ok (some directory) := (if_neg hplace).trans h
  rw [accepted?, htarget]
  rfl

theorem handle_of_refused (h : accepted? env r = none) (s : Session) :
    (s.handle env r).session = s := by
  unfold accepted? at h
  unfold handle
  cases htarget : target? env r with
  | error fault => rfl
  | ok found =>
    rw [htarget] at h
    obtain rfl : found = none := h
    rfl

def answered (s : Session) (r : CrawlRequest) (o : Outcome) : Session :=
  (s.accept r).finish o

theorem handle_of_fault {directory : Address} {fault : Fault}
    (haccepted : accepted? env r = some directory)
    (hcrawl : s.settings.crawler.crawlDirectory env r.suppress directory = .error fault) :
    s.handle env r = ⟨s.accept r, .error fault, []⟩ := by
  rw [handle, target?_eq_of_accepted? haccepted]
  dsimp only
  rw [crawl, hcrawl]

theorem handle_of_crawled {directory : Address} {crawled : Crawl}
    (haccepted : accepted? env r = some directory)
    (hcrawl : s.settings.crawler.crawlDirectory env r.suppress directory = .ok crawled) :
    let stopped := (s.answered r (.ofCrawl r crawled)).stopWatching.session
    (s.handle env r).session =
        (if s.settings.watch then (stopped.startWatching env r.place directory).session
        else s.answered r (.ofCrawl r crawled)) ∧
      (s.handle env r).result =
        if s.settings.watch then
          (stopped.startWatching env r.place directory).result.map fun _ => .ofCrawl r crawled
        else .ok (.ofCrawl r crawled) := by
  have hwatch : (s.answered r (.ofCrawl r crawled)).settings.watch = s.settings.watch := rfl
  intro stopped
  rw [handle, target?_eq_of_accepted? haccepted]
  dsimp only
  rw [crawl, hcrawl]
  dsimp only
  rw [replaceWatcher, ← answered, hwatch]
  split <;> exact ⟨rfl, rfl⟩

theorem exists_crawled_of_answer {directory : Address} {o : Outcome}
    (haccepted : accepted? env r = some directory) (h : (s.handle env r).result = .ok o) :
    ∃ crawled, s.settings.crawler.crawlDirectory env r.suppress directory = .ok crawled ∧
      o = .ofCrawl r crawled := by
  cases hcrawl : s.settings.crawler.crawlDirectory env r.suppress directory with
  | error fault =>
    rw [handle_of_fault haccepted hcrawl] at h
    cases h
  | ok crawled =>
    refine ⟨crawled, rfl, ?_⟩
    rw [(handle_of_crawled haccepted hcrawl).2] at h
    split at h
    · obtain ⟨-, -, rfl⟩ := exists_of_map h
      rfl
    · exact (Except.ok.inj h).symm

theorem tick_of_idle (h : s.debouncer = none ∨ s.lastRequest = none) (env : Environment)
    (now : Float) : (s.tick env now).session = s ∧ (s.tick env now).result = .ok none := by
  unfold tick
  rcases h with h | h
  · rw [h]
    exact ⟨rfl, rfl⟩
  · rw [h]
    cases s.debouncer <;> exact ⟨rfl, rfl⟩

theorem tick_of_debouncer {d : Debouncer Float} (hd : s.debouncer = some d)
    (hr : s.lastRequest = some r) (env : Environment) (now : Float) :
    (s.tick env now).session =
        (if s.fires now then ((s.polled d now).handle env r).session else s.polled d now) ∧
      (s.tick env now).result =
        if s.fires now then ((s.polled d now).handle env r).result.map some else .ok none := by
  have hfires : s.fires now = (d.poll now s.channels).1 := by
    rw [fires, hd]
    rfl
  rw [hfires]
  unfold tick polled
  simp only [hd, hr]
  generalize d.poll now s.channels = answer
  obtain ⟨fires, d', channels⟩ := answer
  cases fires with
  | false => exact ⟨rfl, rfl⟩
  | true => simp only [if_true, and_self]

@[simp] theorem settings_stopWatching (s : Session) :
    s.stopWatching.session.settings = s.settings := by
  unfold stopWatching
  cases s.watcher <;> rfl

@[simp] theorem lastRequest_stopWatching (s : Session) :
    s.stopWatching.session.lastRequest = s.lastRequest := by
  unfold stopWatching
  cases s.watcher <;> rfl

@[simp] theorem lastOutcome_stopWatching (s : Session) :
    s.stopWatching.session.lastOutcome = s.lastOutcome := by
  unfold stopWatching
  cases s.watcher <;> rfl

@[simp] theorem channels_stopWatching (s : Session) :
    s.stopWatching.session.channels = s.channels := by
  unfold stopWatching
  cases s.watcher <;> rfl

theorem stopWatching_cleared (s : Session) :
    s.stopWatching.session.watcher = none ∧ s.stopWatching.session.debouncer = none := by
  unfold stopWatching
  cases s.watcher <;> exact ⟨rfl, rfl⟩

/-- Either there is nothing to watch, or a watcher of the directory with the new channel has scheduled its
handler on a new observer and started it, if it starts. -/
theorem startWatching_cases (s : Session) (env : Environment) (place : String) (directory : Address) :
    (∀ root found, env.resolve ⟨"/", directory⟩ = .ok root →
        env.directoryAt? ⟨"/", root⟩ ≠ .ok (some found)) ∧
        (s.startWatching env place directory).session = { s with channels := s.channels.make } ∨
      ∃ w : Watcher, env.resolve ⟨"/", directory⟩ = .ok w.root ∧
        w.handler = s.settings.crawler.handler directory s.channels.count ∧
        (s.startWatching env place directory).result = .ok () ∧
        (s.startWatching env place directory).session =
          { s with
            watcher := some (w.startObserver s.observers.make s.observers.count).watcher
            debouncer := some { channel := s.channels.count, window := s.settings.debounce }
            observers := (w.startObserver s.observers.make s.observers.count).observers
            channels := s.channels.make } := by
  unfold startWatching
  dsimp only
  cases hcreate : Watcher.create env ⟨"/", directory⟩
      (s.settings.crawler.handler directory s.channels.count)
      (verbose { s with channels := s.channels.make }) s.observers with
  | error fault =>
    refine .inl ⟨fun root found hroot => Watcher.not_directoryAt_of_create hcreate hroot found, ?_⟩
    dsimp only
    split <;> rfl
  | ok made =>
    obtain ⟨w, observers⟩ := made
    obtain ⟨hroot, hhandler, hobserver, rfl⟩ := Watcher.eq_of_create hcreate
    have hstart : w.start s.observers.make = w.startObserver s.observers.make s.observers.count := by
      have hnew : s.observers.make.isAlive s.observers.count = false := by
        rw [Observers.isAlive_eq, Observers.member_make, Observers.member_of_count_le (Nat.le_refl _)]
      rw [Watcher.start, hobserver]
      simp [hnew]
    refine .inr ⟨w, hroot, hhandler, rfl, ?_⟩
    rw [← hstart]

theorem startWatching_of_fault {directory : Address} {fault : Fault}
    (hroot : env.resolve ⟨"/", directory⟩ = .ok directory)
    (hfault : env.directoryAt? ⟨"/", directory⟩ = .error fault) (hsystem : fault.isOfSystem = true)
    (s : Session) (place : String) : (s.startWatching env place directory).result = .error fault := by
  unfold startWatching
  dsimp only
  rw [Watcher.create_of_fault hroot hfault]
  dsimp only
  rw [if_pos hsystem]

theorem started_of_crawled {directory : Address} {crawled : Crawl}
    (haccepted : accepted? env r = some directory)
    (hcrawl : s.settings.crawler.crawlDirectory env r.suppress directory = .ok crawled)
    (hwatch : s.settings.watch = true) (hreachable : env.Reachable directory) :
    let stopped := (s.answered r (.ofCrawl r crawled)).stopWatching.session
    (s.handle env r).result = .ok (.ofCrawl r crawled) ∧
    ∃ w : Watcher, w.handler = s.settings.crawler.handler directory s.channels.count ∧
      (s.handle env r).session =
        { stopped with
          watcher := some (w.startObserver stopped.observers.make stopped.observers.count).watcher
          debouncer := some { channel := s.channels.count, window := stopped.settings.debounce }
          observers := (w.startObserver stopped.observers.make stopped.observers.count).observers
          channels := s.channels.make } := by
  intro stopped
  have hchannels : stopped.channels = s.channels := channels_stopWatching _
  have hsettings : stopped.settings = s.settings := settings_stopWatching _
  obtain ⟨hsession, hresult⟩ := handle_of_crawled haccepted hcrawl
  rw [hsession, hresult, if_pos hwatch, if_pos hwatch]
  rcases stopped.startWatching_cases env r.place directory with
    ⟨hidle, -⟩ | ⟨w, -, hhandler, hreturned, hstarted⟩
  · exact (hidle directory directory hreachable.resolve_eq hreachable.directoryAt?_eq).elim
  · rw [hchannels] at hstarted
    rw [hchannels, hsettings] at hhandler
    refine ⟨?_, w, hhandler, hstarted⟩
    rw [hreturned]
    rfl

/-- What every move of a session keeps. A session starts to watch only when it watches nothing. -/
structure Kept (P : Session → Prop) : Prop where
  accept : ∀ s r, P s → P (s.accept r)
  finish : ∀ s o, P s → P (s.finish o)
  poll : ∀ s d now, s.debouncer = some d → P s → P (s.polled d now)
  stop : ∀ s, P s → P s.stopWatching.session
  start : ∀ s env place directory, s.watcher = none → s.debouncer = none → P s →
    P (s.startWatching env place directory).session
  deliver : ∀ s env e h, P s → P (s.deliver env e h)

namespace Kept
variable {P : Session → Prop}

theorem handle (hP : Kept P) (hs : P s) (env : Environment) (r : CrawlRequest) :
    P (s.handle env r).session := by
  cases haccepted : accepted? env r with
  | none =>
    rw [handle_of_refused haccepted]
    exact hs
  | some directory =>
    cases hcrawl : s.settings.crawler.crawlDirectory env r.suppress directory with
    | error fault =>
      rw [handle_of_fault haccepted hcrawl]
      exact hP.accept s r hs
    | ok crawled =>
      have hanswered : P (s.answered r (.ofCrawl r crawled)) := hP.finish _ _ (hP.accept s r hs)
      obtain ⟨hwatcher, hdebouncer⟩ := (s.answered r (.ofCrawl r crawled)).stopWatching_cleared
      rw [(handle_of_crawled haccepted hcrawl).1]
      split
      · exact hP.start _ env r.place directory hwatcher hdebouncer (hP.stop _ hanswered)
      · exact hanswered

theorem tick (hP : Kept P) (hs : P s) (env : Environment) (now : Float) :
    P (s.tick env now).session := by
  cases hd : s.debouncer with
  | none =>
    rw [(tick_of_idle (.inl hd) env now).1]
    exact hs
  | some d =>
    cases hr : s.lastRequest with
    | none =>
      rw [(tick_of_idle (.inr hr) env now).1]
      exact hs
    | some r =>
      have hpolled := hP.poll s d now hd hs
      rw [(tick_of_debouncer hd hr env now).1]
      split
      · exact hP.handle hpolled env r
      · exact hpolled

theorem act (hP : Kept P) (hs : P s) (a : Action) : P (s.act a) := by
  cases a with
  | request env r => exact hP.handle hs env r
  | tick env now => exact hP.tick hs env now
  | trace r => exact hs
  | stop => exact hP.stop s hs
  | event env observer e =>
    show P ((s.observers.member observer).handlers.foldl (·.deliver env e) s)
    generalize (s.observers.member observer).handlers = handlers
    induction handlers generalizing s with
    | nil => exact hs
    | cons h rest ih => exact ih (hP.deliver s env e h hs)

theorem run (hP : Kept P) (hs : P s) (actions : List Action) : P (s.run actions) := by
  induction actions generalizing s with
  | nil => exact hs
  | cons a rest ih => exact ih (hP.act hs a)

end Kept

theorem kept_settings (settings : Settings) : Kept fun s => s.settings = settings where
  accept _ _ hs := hs
  finish _ _ hs := hs
  poll _ _ _ _ hs := hs
  stop s hs := (settings_stopWatching s).trans hs
  start s env place directory _ _ hs := by
    rcases s.startWatching_cases env place directory with ⟨-, hidle⟩ | ⟨w, -, -, -, hstarted⟩
    · rw [hidle]
      exact hs
    · rw [hstarted]
      exact hs
  deliver _ _ _ _ hs := hs

end Session
end FlowAtlas
