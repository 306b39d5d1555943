import FlowAtlas.Config.Settings
import FlowAtlas.Session.Outcome
import FlowAtlas.Trace
import FlowAtlas.Watch.Debouncer
import FlowAtlas.Watch.Relevance
import FlowAtlas.Watch.Watcher

/-! A session holds the last crawl and, if its settings ask for it, watches the crawled directory to
crawl it again after changes. Each crawl replaces the watcher, its channel and the debouncer that
reads the channel. -/

namespace FlowAtlas

structure Session where
  settings : Settings
  lastRequest : Option CrawlRequest := none
  lastOutcome : Option Outcome := none
  watcher : Option Watcher := none
  debouncer : Option (Debouncer Float) := none
  observers : Observers := {}
  channels : Channels := {}

namespace Session

structure Turn (α : Type) where
  session : Session
  result : α
  log : List String

def verbose (s : Session) : Bool :=
  s.settings.crawler.verbose

def reportOf (s : Session) (o : Outcome) : List String :=
  if s.verbose || !o.ok then ["CrawlSession: " ++ o.status] else []

def target? (env : Environment) (r : CrawlRequest) : Except Fault (Option Address) :=
  if r.place = "" then .ok none else env.directory? r.place

def accept (s : Session) (r : CrawlRequest) : Session :=
  { s with lastRequest := some r }

def finish (s : Session) (o : Outcome) : Session :=
  { s with lastOutcome := some o }

def stopWatching (s : Session) : Turn Unit :=
  match s.watcher with
  | none => ⟨{ s with debouncer := none }, (), []⟩
  | some w =>
    let stopped := w.stop s.observers
    ⟨{ s with watcher := none, debouncer := none, observers := stopped.observers }, (), stopped.log⟩

/-- Watches a directory on a new channel. The place is the directory as it was asked for. That it cannot
be watched is no fault, unless the system says so. -/
def startWatching (s : Session) (env : Environment) (place : String) (directory : Address) :
    Turn (Except Fault Unit) :=
  let channel := s.channels.count
  let s := { s with channels := s.channels.make }
  let handler := s.settings.crawler.handler directory channel
  match Watcher.create env ⟨"/", directory⟩ handler s.verbose s.observers with
  | .error fault =>
    if fault.isOfSystem then ⟨s, .error fault, []⟩
    else ⟨s, .ok (), ["CrawlSession Warning: Not watching " ++ place ++ ": " ++ fault.message]⟩
  | .ok (w, observers) =>
    let started := w.start observers
    ⟨{ s with
        watcher := some started.watcher
        debouncer := some { channel, window := s.settings.debounce }
        observers := started.observers },
      .ok (), started.log⟩

def replaceWatcher (s : Session) (env : Environment) (place : String) (directory : Address) :
    Turn (Except Fault Unit) :=
  if s.settings.watch then
    let stopped := s.stopWatching
    let started := stopped.session.startWatching env place directory
    { started with log := stopped.log ++ started.log }
  else ⟨s, .ok (), []⟩

/-- Crawls an existing directory and watches it. The request is taken up before, and stays even if the
crawl fails. -/
def crawl (s : Session) (env : Environment) (r : CrawlRequest) (directory : Address) :
    Turn (Except Fault Outcome) :=
  match s.settings.crawler.crawlDirectory env r.suppress directory with
  | .error fault => ⟨s.accept r, .error fault, []⟩
  | .ok crawled =>
    let outcome := Outcome.ofCrawl r crawled
    let watching := ((s.accept r).finish outcome).replaceWatcher env r.place directory
    { session := watching.session
      result := watching.result.map fun _ => outcome
      log :=
        crawled.log ++ Outcome.layoutLog crawled s.verbose ++ s.reportOf outcome ++ watching.log }

/-- Answers a request. If there is no such directory, all stays as it was. -/
def handle (s : Session) (env : Environment) (r : CrawlRequest) : Turn (Except Fault Outcome) :=
  match target? env r with
  | .error fault => ⟨s, .error fault, []⟩
  | .ok none => ⟨s, .ok (.notFound r), s.reportOf (.notFound r)⟩
  | .ok (some directory) => s.crawl env r directory

def trace (s : Session) (r : TraceRequest) : Trace :=
  match s.lastOutcome with
  | none => .failed "Trace: Nothing crawled yet"
  | some o =>
    if o.graph.isEmpty then .failed "Trace: Nothing crawled yet"
    else o.graph.trace r.source r.sink

def tick (s : Session) (env : Environment) (now : Float) :
    Turn (Except Fault (Option Outcome)) :=
  match s.debouncer, s.lastRequest with
  | some d, some r =>
    let (fires, d, channels) := d.poll now s.channels
    let s := { s with debouncer := some d, channels := channels }
    if fires then
      let turn := s.handle env r
      { session := turn.session
        result := turn.result.map some
        log :=
          (if s.verbose then ["CrawlSession: Changes detected, re-crawling " ++ r.root] else []) ++
            turn.log }
    else ⟨s, .ok none, []⟩
  | _, _ => ⟨s, .ok none, []⟩

def report (s : Session) (env : Environment) (e : FileEvent) : Except Fault Session :=
  (s.observers.report env e s.channels).map fun channels => { s with channels }

def isRunning (s : Session) : Bool :=
  s.watcher.any fun w => w.isRunning s.observers

def pending? (s : Session) : Option (List Notice) :=
  s.debouncer.map fun d => s.channels.pending d.channel

end Session
end FlowAtlas
