import FlowAtlas.CommandLine.Arguments
import FlowAtlas.CommandLine.Report
import FlowAtlas.Config.Json
import FlowAtlas.Config.Load
import FlowAtlas.Session

/-! The program on the command line: it crawls a directory, prints the outcome, and may write it to a
file, trace through it, and crawl again whenever files change. -/

namespace FlowAtlas.CommandLine

structure Run where
  session : Session
  environment : Environment
  exit : Nat
  log : List String

inductive Incident where
  | change (f : Environment → Environment)
  | event (e : FileEvent)

def assignIn (config : Value) (name key : String) (v : Value) : Except Fault Value := do
  let found ← config.get? name
  let changed ← (found.getD .null).assign key v
  config.assign name changed

def configure (config : Value) (args : Arguments) : Except Fault Value := do
  let config ← if args.verbose then assignIn config "general" "verbose" (.bool true) else pure config
  if args.watch then assignIn config "watcher" "enabled" (.bool true) else pure config

def requestOf (config : Value) (args : Arguments) : Except Fault CrawlRequest :=
  if args.flat then .ok ⟨args.root, true⟩
  else do
    let crawler ← config.get? "crawler"
    let suppress ← (crawler.getD .null).get? "suppress_decisions"
    return ⟨args.root, (suppress.getD .null).isTrue⟩

def writeOutcome (env : Environment) (o : Outcome) : Option Path → Environment × List String
  | none => (env, [])
  | some p =>
    ({ env with files := env.files.write (env.names p) (Text.Utf8.encode o.toValue.toJson) },
      ["Wrote " ++ p.text])

def traceLog (s : Session) : Option (String × String) → List String
  | none => []
  | some (source, sink) => (s.trace ⟨source, sink⟩).lines

/-- Everything before the watch. The observers at hand tell what coming starts and stops fail with. -/
def start (env : Environment) (args : Arguments) (observers : Observers) : Except Fault Run := do
  let loaded ← LoadedConfig.load env args.config args.verbose
  let config ← configure loaded.config args
  let request ← requestOf config args
  let settings ← Settings.ofConfig config
  let turn := Session.handle { settings, observers } env request
  let outcome ← turn.result
  let (environment, written) := writeOutcome env outcome args.output
  return {
    session := turn.session
    environment
    exit := if outcome.ok then 0 else 1
    log :=
      loaded.log ++ env.parsers.setupLog ++ turn.log ++ outcome.lines ++ written ++
        traceLog turn.session args.trace }

namespace Run

def say (run : Run) (lines : List String) : Run :=
  { run with log := run.log ++ lines }

def tick (run : Run) (now : Float) : Except Fault Run := do
  let turn := run.session.tick run.environment now
  let outcome ← turn.result
  return { run.say (turn.log ++ (outcome.map Outcome.lines).getD []) with session := turn.session }

def incur (run : Run) : Incident → Except Fault Run
  | .change f => .ok { run with environment := f run.environment }
  | .event e => (run.session.report run.environment e).map fun session => { run with session }

def beginWatch (run : Run) : Run :=
  run.say ["Watching for changes. Press Ctrl+C to stop."]

def endWatch (run : Run) : Run :=
  let stopped := run.session.stopWatching
  { run.say ("\nKeyboard interrupt received." :: stopped.log) with session := stopped.session }

def watch (run : Run) (now : Float) : List (List Incident) → Except Fault Run
  | [] => (run.tick now).map endWatch
  | pause :: rest => do
    let run ← run.tick now
    let run ← pause.foldlM incur run
    watch run now rest

end Run

/-- Runs the program on a command line, with what happens in each pause of the watch; none if the words
make no command line. -/
def run (env : Environment) (words : List String) (observers : Observers) (now : Float)
    (pauses : List (List Incident)) : Except Fault (Option Run) :=
  match Arguments.read words with
  | .run args => do
    let started ← start env args observers
    if args.watch then
      let watched ← started.beginWatch.watch now pauses
      return some watched
    else return some started
  | _ => .ok none

end FlowAtlas.CommandLine
