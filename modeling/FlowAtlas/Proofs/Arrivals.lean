import FlowAtlas.Proofs.SingleWatcher

/-! Events that come in from outside, one after the other. All handlers that listen hear of them, and those are
the handlers of the watcher at hand as long as its observer is alive. -/

namespace FlowAtlas

structure Arrival where
  env : Environment
  event : FileEvent

def Arrival.notice? (a : Arrival) (h : Handler) : Option Notice :=
  (h.dispatch? a.env a.event).toOption.join

def Arrival.noticesOf (arrivals : List Arrival) (handlers : List Handler) : List Notice :=
  arrivals.flatMap fun a => handlers.filterMap a.notice?

theorem Arrival.noticesOf_cons (a : Arrival) (rest : List Arrival) (h : Handler) :
    noticesOf (a :: rest) [h] = (a.notice? h).toList ++ noticesOf rest [h] := by
  rw [noticesOf, List.flatMap_cons]
  cases hn : a.notice? h with
  | none =>
    rw [List.filterMap_cons_none hn]
    rfl
  | some n =>
    rw [List.filterMap_cons_some hn]
    rfl

namespace Channels

theorem deliver_eq (cs : Channels) (a : Arrival) (h : Handler) :
    cs.deliver a.env a.event h = match a.notice? h with
      | none => cs
      | some n => cs.put h.channel n := by
  unfold deliver Arrival.notice?
  rcases h.dispatch? a.env a.event with _ | _ | _ <;> rfl

def hear (cs : Channels) (handlers : List Handler) (arrivals : List Arrival) : Channels :=
  arrivals.foldl (fun cs a => handlers.foldl (·.deliver a.env a.event) cs) cs

theorem hear_append (cs : Channels) (handlers : List Handler) (arrivals more : List Arrival) :
    cs.hear handlers (arrivals ++ more) = (cs.hear handlers arrivals).hear handlers more :=
  List.foldl_append

theorem hear_nobody (cs : Channels) (arrivals : List Arrival) : cs.hear [] arrivals = cs := by
  induction arrivals with
  | nil => rfl
  | cons a rest ih => exact ih

theorem pending_hear {cs : Channels} {h : Handler} (hmade : h.channel < cs.count)
    (arrivals : List Arrival) : (cs.hear [h] arrivals).pending h.channel =
      cs.pending h.channel ++ Arrival.noticesOf arrivals [h] := by
  induction arrivals generalizing cs with
  | nil => exact (List.append_nil _).symm
  | cons a rest ih =>
    have hmade' : h.channel < (cs.deliver a.env a.event h).count := by rwa [count_deliver]
    have hrest := ih hmade'
    show ((cs.deliver a.env a.event h).hear [h] rest).pending h.channel = _
    rw [hrest, Arrival.noticesOf_cons, deliver_eq, ← List.append_assoc]
    cases a.notice? h with
    | none => exact congrArg (· ++ _) (List.append_nil _).symm
    | some n => exact congrArg (· ++ _) (cs.pending_put hmade n)

end Channels

namespace Session
variable {s : Session}

def listeners (s : Session) : List Handler :=
  s.observers.alive.flatMap Observer.handlers

def hear (s : Session) (arrivals : List Arrival) : Session :=
  { s with channels := s.channels.hear s.listeners arrivals }

def heard (s : Session) (arrivals : List Arrival) : List Notice :=
  Arrival.noticesOf arrivals s.listeners

theorem hear_eq_run (s : Session) (arrivals : List Arrival) :
    s.hear arrivals = s.run (arrivals.flatMap fun a =>
      ((List.range s.observers.count).filter s.observers.isAlive).map (.event a.env · a.event)) := by
  induction arrivals generalizing s with
  | nil => rfl
  | cons a rest ih =>
    let next := { s with channels := s.listeners.foldl (·.deliver a.env a.event) s.channels }
    have hnext : s.run (((List.range s.observers.count).filter s.observers.isAlive).map
        (.event a.env · a.event)) = next := by
      rw [run_events, ← Observers.alive_eq, foldl_deliver]
      rfl
    rw [List.flatMap_cons, run_append, hnext]
    exact ih next

theorem Kept.hear {P : Session → Prop} (hP : Kept P) (hs : P s) (arrivals : List Arrival) :
    P (s.hear arrivals) := by
  rw [hear_eq_run]
  exact hP.run hs _

def handlerAtWork? (s : Session) : Option Handler :=
  (s.watcher.filter fun w => w.isRunning s.observers).map Watcher.handler

/-- No handler listens but that of the watcher at hand. -/
structure Attended (s : Session) : Prop where
  sole : s.Sole
  listeners : s.listeners = s.handlerAtWork?.toList

theorem listeners_startObserver (hdead : ∀ j, s.observers.isAlive j ≠ true) (w : Watcher)
    {debouncer : Option (Debouncer Float)} {channels : Channels} :
    let started := w.startObserver s.observers.make s.observers.count
    let next := { s with
      watcher := some started.watcher, debouncer, observers := started.observers, channels }
    next.listeners = next.handlerAtWork?.toList := by
  have hnew : s.observers.count < s.observers.make.count := by
    rw [Observers.count_make]
    exact Nat.lt_succ_self _
  have hmember := w.member_startObserver hnew
  have hhandler := w.handler_startObserver s.observers.make s.observers.count
  dsimp only [listeners, handlerAtWork?]
  generalize w.startObserver s.observers.make s.observers.count = started at hmember hhandler
  have halive : ∀ j, started.observers.isAlive j = true →
      s.observers.count = j ∧ started.watcher.observer = some s.observers.count := fun j hj => by
    refine ((hmember j).2 hj).resolve_left ?_
    rw [Observers.isAlive_eq, Observers.member_make, ← Observers.isAlive_eq]
    exact hdead j
  rw [Observers.alive_of_unique fun j hj => (halive j hj).1.symm]
  cases hstarted : started.observers.isAlive s.observers.count with
  | true =>
    have hhandlers := (hmember s.observers.count).1
    rw [Observers.member_make, Observers.member_of_count_le (Nat.le_refl _), if_pos rfl] at hhandlers
    have hrunning : started.watcher.isRunning started.observers = true := by
      rw [Watcher.isRunning, (halive _ hstarted).2]
      exact hstarted
    simp [hhandlers, Option.filter_some, hrunning, hhandler]
  | false =>
    have hstopped : started.watcher.isRunning started.observers = false := by
      rw [Bool.eq_false_iff, Watcher.isRunning, Ne, Option.any_eq_true]
      rintro ⟨j, -, hj⟩
      obtain ⟨rfl, -⟩ := halive j hj
      rw [hstarted] at hj
      cases hj
    simp [hstopped]

namespace Attended

theorem kept : Kept Attended where
  accept s r hs := ⟨Sole.kept.accept s r hs.sole, hs.listeners⟩
  finish s o hs := ⟨Sole.kept.finish s o hs.sole, hs.listeners⟩
  poll s d now hd hs := ⟨Sole.kept.poll s d now hd hs.sole, hs.listeners⟩
  stop s hs := by
    have hsole := hs.sole.stopWatching
    have hnone := s.stopWatching_cleared.1
    have hdead := hsole.not_isAlive hnone
    refine ⟨hsole, ?_⟩
    rw [Session.listeners, Observers.alive_of_unique (i := 0) fun j hj => (hdead j hj).elim,
      if_neg (hdead 0), handlerAtWork?, hnone]
    rfl
  start s env place directory hwatcher hdebouncer hs := by
    have hsole := hs.sole.startWatching hwatcher env place directory
    have hdead := hs.sole.not_isAlive hwatcher
    refine ⟨hsole, ?_⟩
    rcases s.startWatching_cases env place directory with ⟨-, hidle⟩ | ⟨w, -, -, -, hstarted⟩
    · rw [hidle]
      exact hs.listeners
    · rw [hstarted]
      exact listeners_startObserver hdead w
  deliver s env e h hs := ⟨Sole.kept.deliver s env e h hs.sole, hs.listeners⟩

end Attended

theorem Attended.hear_of_unwatched (hs : s.Attended) (hwatcher : s.watcher = none)
    (arrivals : List Arrival) : s.hear arrivals = s := by
  have hnobody : s.listeners = [] := by
    rw [hs.listeners, handlerAtWork?, hwatcher]
    rfl
  rw [hear, hnobody, Channels.hear_nobody]

theorem Attended.pending?_hear (hs : s.Attended) (arrivals : List Arrival) :
    (s.hear arrivals).pending? = s.pending?.map (· ++ s.heard arrivals) := by
  cases hd : s.debouncer with
  | none => simp [pending?, hear, hd]
  | some d =>
    have hheard : (s.channels.hear s.listeners arrivals).pending d.channel =
        s.channels.pending d.channel ++ s.heard arrivals := by
      rw [heard, hs.listeners, handlerAtWork?]
      cases hw : s.watcher.filter fun w => w.isRunning s.observers with
      | none =>
        have hnothing : Arrival.noticesOf arrivals [] = [] := List.flatMap_eq_nil_iff.mpr fun _ _ => rfl
        show (s.channels.hear [] arrivals).pending d.channel = _ ++ Arrival.noticesOf arrivals []
        rw [Channels.hear_nobody, hnothing, List.append_nil]
      | some w =>
        have hheld := (Option.filter_eq_some_iff.mp hw).1
        have hmade := hs.sole.made w hheld
        rw [hs.sole.reads w d hheld hd]
        exact Channels.pending_hear hmade arrivals
    simp [pending?, hear, hd, hheard]

end Session
end FlowAtlas
