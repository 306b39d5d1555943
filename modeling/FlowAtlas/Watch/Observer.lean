import FlowAtlas.Watch.Channel
import FlowAtlas.Watch.Handler

/-! Observers report events to the handlers scheduled on them, from the time they are started until
they are stopped. Starting or stopping one may fail; it is then as alive as before. -/

namespace FlowAtlas

structure Observer where
  handlers : List Handler := []
  /-- How often it was told to start, in vain or not. -/
  starts : Nat := 0
  alive : Bool := false

structure Observers where
  members : List Observer := []
  startFaults : List (Option String) := []
  stopFaults : List (Option String) := []

namespace Observers

def count (os : Observers) : Nat :=
  os.members.length

def make (os : Observers) : Observers :=
  { os with members := os.members ++ [{}] }

def isAlive (os : Observers) (i : Nat) : Bool :=
  (os.members[i]?.map Observer.alive).getD false

def alive (os : Observers) : List Observer :=
  os.members.filter Observer.alive

def change (os : Observers) (i : Nat) (f : Observer → Observer) : Observers :=
  { os with members := os.members.modify i f }

def schedule (os : Observers) (i : Nat) (h : Handler) : Observers :=
  os.change i fun o => { o with handlers := o.handlers ++ [h] }

def start (os : Observers) (i : Nat) : Observers × Option String :=
  let fault := os.startFaults.head?.join
  let os := { os with startFaults := os.startFaults.tail }
  (os.change i fun o => { o with starts := o.starts + 1, alive := o.alive || fault.isNone }, fault)

def stop (os : Observers) (i : Nat) : Observers × Option String :=
  let fault := os.stopFaults.head?.join
  let os := { os with stopFaults := os.stopFaults.tail }
  (os.change i fun o => { o with alive := o.alive && fault.isSome }, fault)

def report (os : Observers) (env : Environment) (e : FileEvent) (cs : Channels) :
    Except Fault Channels :=
  (os.alive.flatMap Observer.handlers).foldlM
    (fun cs h => do
      match ← h.dispatch? env e with
      | none => return cs
      | some n => return cs.put h.channel n)
    cs

end Observers
end FlowAtlas
