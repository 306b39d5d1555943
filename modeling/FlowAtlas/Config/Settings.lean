import FlowAtlas.Config.Value
import FlowAtlas.Crawl.Selection

/-! The settings of a session, and the values that stand for them in a configuration. -/

namespace FlowAtlas

def Value.defaults : Value :=
  .map
    [("general", .map [("verbose", .bool false)]),
     ("crawler", .map [("suppress_decisions", .bool false), ("extra_ignored_dirs", .list [])]),
     ("watcher", .map [("enabled", .bool false), ("debounce_seconds", .float 0.5)])]

def defaultDebounce : Float := 0.5

structure Settings where
  crawler : Crawler
  watch : Bool
  debounce : Float

namespace Settings

/-- The section of a configuration; empty if it is left out. -/
def sectionOf (config : Value) (name : String) : Except Fault Value :=
  (config.get? name).map fun found => found.getD (.map [])

/-- Reads the settings out of a configuration. The first unusable part is the fault. -/
def ofConfig (config : Value) : Except Fault Settings := do
  let general ← sectionOf config "general"
  let verbose ← general.get? "verbose"
  let crawler ← sectionOf config "crawler"
  let watcher ← sectionOf config "watcher"
  let extra ← crawler.get? "extra_ignored_dirs"
  let ignored ← (extra.getD .null).names
  let enabled ← watcher.get? "enabled"
  let debounce ← watcher.get? "debounce_seconds"
  let seconds ←
    match debounce with
    | none => Except.ok defaultDebounce
    | some v => v.toFloat
  return {
    crawler := { verbose := (verbose.getD .null).isTrue, extraIgnored := ignored }
    watch := (enabled.getD .null).isTrue
    debounce := seconds }

end Settings
end FlowAtlas
