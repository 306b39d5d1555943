import FlowAtlas.Watch.Observer

/-! A watcher keeps one observer on a directory. Observers are used once: a new one takes the place of
one that was stopped or did not start. -/

namespace FlowAtlas

structure Watcher where
  root : Address
  handler : Handler
  verbose : Bool := false
  observer : Option Nat

structure Watching where
  watcher : Watcher
  observers : Observers
  log : List String

namespace Watcher

def create (env : Environment) (path : Path) (handler : Handler) (verbose : Bool)
    (os : Observers) : Except Fault (Watcher × Observers) :=
  (env.resolve path).bind fun root =>
    match env.directoryAt? ⟨"/", root⟩ with
    | .error fault => .error fault
    | .ok none => .error (.notADirectory (Address.text root))
    | .ok (some _) => .ok ({ root, handler, verbose, observer := some os.count }, os.make)

def isRunning (w : Watcher) (os : Observers) : Bool :=
  w.observer.any os.isAlive

def say (w : Watcher) (message : String) : List String :=
  if w.verbose then ["FileWatcherService: " ++ message] else []

def startObserver (w : Watcher) (os : Observers) (i : Nat) : Watching :=
  match (os.schedule i w.handler).start i with
  | (os, none) =>
    ⟨{ w with observer := some i }, os,
      w.say ("Started watching directory '" ++ Address.text w.root ++ "'.")⟩
  | (os, some reason) =>
    ⟨{ w with observer := some os.count }, os.make,
      ["FileWatcherService Error: Could not start observer: " ++ reason]⟩

def start (w : Watcher) (os : Observers) : Watching :=
  match w.observer with
  | none => w.startObserver os.make os.count
  | some i =>
    if os.isAlive i then ⟨w, os, w.say "Observer is already running."⟩
    else w.startObserver os i

def stop (w : Watcher) (os : Observers) : Watching :=
  let (os, log) :=
    match w.observer with
    | none => (os, [])
    | some i =>
      if os.isAlive i then
        match os.stop i with
        | (os, none) => (os, w.say "Stopped watching.")
        | (os, some reason) =>
          (os, ["FileWatcherService Error: Exception while stopping observer: " ++ reason])
      else (os, [])
  ⟨{ w with observer := some os.count }, os.make, log⟩

end Watcher
end FlowAtlas
