import FlowAtlas.Proofs.FileLookup
import FlowAtlas.Proofs.Observers

/-! A watcher that is started and stopped over and over, where any start or stop of an observer may fail. It
never uses an observer twice: the one at hand is alive, or nothing was done with it yet. -/

namespace FlowAtlas

namespace Watcher
variable {w : Watcher} {os : Observers} {i : Nat}

inductive Call where
  | start
  | stop
  deriving DecidableEq, Repr

theorem member_startObserver_eq (w : Watcher) (h : i < os.count) (j : Nat) :
    (w.startObserver os i).observers.member j = if i = j then
        { handlers := (os.member j).handlers ++ [w.handler]
          starts := (os.member j).starts + 1
          alive := (os.member j).alive || os.startFaults.head?.join.isNone }
      else os.member j := by
  have hcount : i < (os.schedule i w.handler).count := by
    rw [Observers.schedule, Observers.count_change]
    exact h
  have hmember : ((os.schedule i w.handler).start i).1.member j = if i = j then
        { handlers := (os.member j).handlers ++ [w.handler]
          starts := (os.member j).starts + 1
          alive := (os.member j).alive || os.startFaults.head?.join.isNone }
      else os.member j := by
    refine (Observers.member_change hcount _ j).trans ?_
    rw [show (os.schedule i w.handler).member j = _ from Observers.member_change h _ j]
    split <;> rfl
  unfold startObserver
  generalize (os.schedule i w.handler).start i = started at hmember
  obtain ⟨os', fault⟩ := started
  cases fault with
  | none => exact hmember
  | some reason => exact (Observers.member_make os' j).trans hmember

theorem startObserver_cases (w : Watcher) (os : Observers) (i : Nat) :
    (os.startFaults.head?.join = none ∧ (w.startObserver os i).watcher.observer = some i ∧
        (w.startObserver os i).observers.count = os.count) ∨
      ∃ reason, os.startFaults.head?.join = some reason ∧
        (w.startObserver os i).watcher.observer = some os.count ∧
        (w.startObserver os i).observers.count = os.count + 1 ∧
        (w.startObserver os i).log =
          ["FileWatcherService Error: Could not start observer: " ++ reason] := by
  have hfault : ((os.schedule i w.handler).start i).2 = os.startFaults.head?.join := rfl
  have hcount : ((os.schedule i w.handler).start i).1.count = os.count :=
    (Observers.count_change _ i _).trans (Observers.count_change os i _)
  unfold startObserver
  generalize (os.schedule i w.handler).start i = started at hfault hcount
  obtain ⟨os', fault⟩ := started
  dsimp only at hfault hcount
  cases fault with
  | none => exact .inl ⟨hfault.symm, rfl, hcount⟩
  | some reason =>
    refine .inr ⟨reason, hfault.symm, congrArg some hcount, ?_, rfl⟩
    rw [Observers.count_make, hcount]

end Watcher

namespace Watching
variable {s : Watching} {first : Nat} {handler : Handler}

def call (s : Watching) : Watcher.Call → Watching
  | .start => s.watcher.start s.observers
  | .stop => s.watcher.stop s.observers

def run (s : Watching) (calls : List Watcher.Call) : Watching :=
  calls.foldl call s

def isRunning (s : Watching) : Bool :=
  s.watcher.isRunning s.observers

/-- What a start would fail with now: the observer that it starts does not start. -/
def startFault? (s : Watching) : Option String :=
  if s.isRunning then none else s.observers.startFaults.head?.join

/-- What a stop would fail with now: the observer that it stops does not stop. -/
def stopFault? (s : Watching) : Option String :=
  if s.isRunning then s.observers.stopFaults.head?.join else none

/-- The observers from number `first` on are those of the watcher. Each is new or was started once with the
handler scheduled on it once, and the one at hand is alive or new. -/
structure Tidy (first : Nat) (handler : Handler) (s : Watching) : Prop where
  handler_eq : s.watcher.handler = handler
  first_le : first ≤ s.observers.count
  used : ∀ i ≥ first, s.observers.member i = {} ∨
    ∃ alive, s.observers.member i = { handlers := [handler], starts := 1, alive }
  held : ∀ i, s.watcher.observer = some i → first ≤ i ∧ i < s.observers.count ∧
    (s.observers.isAlive i = false → s.observers.member i = {})

theorem call_start_of_running (h : s.isRunning = true) :
    (s.call .start).watcher = s.watcher ∧ (s.call .start).observers = s.observers := by
  have hcall : s.call .start = s.watcher.start s.observers := rfl
  rw [isRunning, Watcher.isRunning] at h
  rw [hcall, Watcher.start]
  cases hobserver : s.watcher.observer with
  | none =>
    rw [hobserver] at h
    cases h
  | some i =>
    rw [hobserver] at h
    have halive : s.observers.isAlive i = true := h
    simp [halive]

theorem call_start_of_idle (hs : s.Tidy first handler) (hidle : s.isRunning = false) :
    ∃ os i, s.call .start = s.watcher.startObserver os i ∧ first ≤ i ∧ i < os.count ∧
      os.member i = {} ∧ os.member = s.observers.member ∧
      os.startFaults = s.observers.startFaults := by
  have hcall : s.call .start = s.watcher.start s.observers := rfl
  rw [isRunning, Watcher.isRunning] at hidle
  rw [hcall, Watcher.start]
  cases hobserver : s.watcher.observer with
  | none =>
    have hmember : s.observers.make.member = s.observers.member := funext s.observers.member_make
    refine ⟨s.observers.make, s.observers.count, rfl, hs.first_le, ?_, ?_, hmember, rfl⟩
    · rw [Observers.count_make]
      exact Nat.lt_succ_self _
    · rw [hmember]
      exact Observers.member_of_count_le (Nat.le_refl _)
  | some i =>
    obtain ⟨hfirst, hmade, hnew⟩ := hs.held i hobserver
    rw [hobserver] at hidle
    have hdead : s.observers.isAlive i = false := hidle
    refine ⟨s.observers, i, ?_, hfirst, hmade, hnew hdead, rfl, rfl⟩
    simp [hdead]

/-- The observer `i` was new and is now the only one that a start changed. It is at hand if it started, and
otherwise another new one is. -/
structure Started (s : Watching) (first : Nat) (handler : Handler) (i : Nat) : Prop where
  first_le : first ≤ i
  lt_count : i < (s.call .start).observers.count
  new : s.observers.member i = {}
  member_eq : ∀ j, (s.call .start).observers.member j = if i = j then
      { handlers := [handler], starts := 1, alive := s.startFault?.isNone }
    else s.observers.member j
  held : s.startFault? = none → (s.call .start).watcher.observer = some i
  reported : ∀ reason, s.startFault? = some reason →
    (s.call .start).log = ["FileWatcherService Error: Could not start observer: " ++ reason] ∧
    ∃ k, (s.call .start).watcher.observer = some k ∧ k ≠ i ∧ first ≤ k ∧
      k < (s.call .start).observers.count ∧ s.observers.member k = {}

theorem exists_started (hs : s.Tidy first handler) (hidle : s.isRunning = false) :
    ∃ i, s.Started first handler i := by
  obtain ⟨os, i, hcall, hfirst, hmade, hnew, hmember, hfaults⟩ := call_start_of_idle hs hidle
  have hfault : s.startFault? = os.startFaults.head?.join := by
    rw [startFault?, hidle, hfaults]
    rfl
  have hnew' : s.observers.member i = {} := by rw [← hmember, hnew]
  have hmembers : ∀ j, (s.call .start).observers.member j = if i = j then
        { handlers := [handler], starts := 1, alive := s.startFault?.isNone }
      else s.observers.member j := by
    intro j
    rw [hcall, s.watcher.member_startObserver_eq hmade, hs.handler_eq, ← hmember, hfault]
    split
    · subst i
      rw [hnew]
      rfl
    · rfl
  refine ⟨i, hfirst, ?_, hnew', hmembers, ?_, ?_⟩ <;> rw [hcall]
  · rcases s.watcher.startObserver_cases os i with ⟨-, -, hcount⟩ | ⟨reason, -, -, hcount, -⟩ <;> omega
  · intro hnone
    rw [hfault] at hnone
    rcases s.watcher.startObserver_cases os i with ⟨-, hobserver, -⟩ | ⟨reason, hsome, -⟩
    · exact hobserver
    · cases hnone.symm.trans hsome
  · intro reason hsome
    rw [hfault] at hsome
    rcases s.watcher.startObserver_cases os i with ⟨hnone, -⟩ | ⟨reason', hsome', hobserver, hcount, hlog⟩
    · cases hnone.symm.trans hsome
    · obtain rfl := Option.some.inj (hsome.symm.trans hsome')
      refine ⟨hlog, os.count, hobserver, by omega, by omega, by omega, ?_⟩
      rw [← hmember]
      exact Observers.member_of_count_le (Nat.le_refl _)

theorem call_stop_of_idle (h : s.isRunning = false) :
    s.call .stop = ⟨{ s.watcher with observer := some s.observers.count }, s.observers.make, []⟩ := by
  rw [isRunning, Watcher.isRunning] at h
  rw [show s.call .stop = s.watcher.stop s.observers from rfl, Watcher.stop]
  cases hobserver : s.watcher.observer with
  | none => rfl
  | some i =>
    rw [hobserver] at h
    have hdead : s.observers.isAlive i = false := h
    simp [hdead]

theorem call_stop_of_running (h : s.isRunning = true) :
    ∃ i, s.watcher.observer = some i ∧ s.observers.isAlive i = true ∧
      (s.call .stop).watcher.observer = some s.observers.count ∧
      (s.call .stop).observers = (s.observers.stop i).1.make ∧
      ∀ reason, s.stopFault? = some reason → (s.call .stop).log =
        ["FileWatcherService Error: Exception while stopping observer: " ++ reason] := by
  have hfault : s.stopFault? = s.observers.stopFaults.head?.join := by rw [stopFault?, if_pos h]
  rw [isRunning, Watcher.isRunning] at h
  rw [show s.call .stop = s.watcher.stop s.observers from rfl, hfault, Watcher.stop]
  cases hobserver : s.watcher.observer with
  | none =>
    rw [hobserver] at h
    cases h
  | some i =>
    rw [hobserver] at h
    have halive : s.observers.isAlive i = true := h
    have hstopped : (s.observers.stop i).2 = s.observers.stopFaults.head?.join := rfl
    have hcount : (s.observers.stop i).1.count = s.observers.count := Observers.count_change _ i _
    refine ⟨i, rfl, halive, ?_⟩
    simp only [halive, if_true, ← hstopped]
    generalize s.observers.stop i = stopped at hcount
    obtain ⟨os, fault⟩ := stopped
    dsimp only at hcount ⊢
    cases fault with
    | none => exact ⟨congrArg some hcount, rfl, nofun⟩
    | some reason =>
      refine ⟨congrArg some hcount, rfl, ?_⟩
      rintro reason' ⟨⟩
      rfl

/-- A stop leaves a new observer at hand. Only the one that was at hand is changed: it is alive if it was and
did not stop. -/
theorem call_stop_eq (s : Watching) :
    (s.call .stop).watcher.observer = some s.observers.count ∧
      (s.call .stop).observers.count = s.observers.count + 1 ∧
      ∀ j, (s.call .stop).observers.member j = if s.watcher.observer = some j then
          { s.observers.member j with alive := (s.observers.member j).alive && s.stopFault?.isSome }
        else s.observers.member j := by
  cases hrunning : s.isRunning with
  | false =>
    rw [call_stop_of_idle hrunning]
    refine ⟨rfl, s.observers.count_make, fun j => ?_⟩
    rw [Observers.member_make]
    split
    · have hdead : (s.observers.member j).alive = false := by
        rw [← Observers.isAlive_eq, ← hrunning, isRunning, Watcher.isRunning, ‹s.watcher.observer = some j›]
        rfl
      rw [hdead, Bool.false_and, ← hdead]
    · rfl
  | true =>
    obtain ⟨i, hi, halive, hobserver, hobservers, -⟩ := call_stop_of_running hrunning
    have hcount : (s.observers.stop i).1.count = s.observers.count := Observers.count_change _ i _
    have hmember : ∀ j, (s.observers.stop i).1.member j = if i = j then
          { s.observers.member j with
            alive := (s.observers.member j).alive && s.observers.stopFaults.head?.join.isSome }
        else s.observers.member j :=
      Observers.member_change (Observers.lt_count_of_isAlive halive) _
    rw [hobservers, stopFault?, hrunning, hi]
    refine ⟨hobserver, by rw [Observers.count_make, hcount], fun j => ?_⟩
    rw [Observers.member_make, hmember]
    simp only [Option.some.injEq, if_true]

namespace Tidy

theorem start (hs : s.Tidy first handler) : (s.call .start).Tidy first handler := by
  cases hrunning : s.isRunning with
  | true =>
    obtain ⟨hwatcher, hobservers⟩ := call_start_of_running hrunning
    constructor <;> simp only [hwatcher, hobservers]
    · exact hs.handler_eq
    · exact hs.first_le
    · exact hs.used
    · exact hs.held
  | false =>
    obtain ⟨i, hstarted⟩ := exists_started hs hrunning
    have hcount := Nat.le_trans hstarted.first_le (Nat.le_of_lt hstarted.lt_count)
    have hhandler := s.watcher.handler_start s.observers
    refine ⟨hhandler.trans hs.handler_eq, hcount, fun j hj => ?_, ?_⟩
    · rw [hstarted.member_eq]
      split
      · exact .inr ⟨_, rfl⟩
      · exact hs.used j hj
    · intro k hk
      cases hfault : s.startFault? with
      | none =>
        obtain rfl := Option.some.inj (hk.symm.trans (hstarted.held hfault))
        refine ⟨hstarted.first_le, hstarted.lt_count, fun hdead => ?_⟩
        rw [Observers.isAlive_eq, hstarted.member_eq, if_pos rfl, hfault] at hdead
        cases hdead
      | some reason =>
        obtain ⟨-, k', hk', hne, hfirst, hmade, hnew⟩ := hstarted.reported reason hfault
        obtain rfl := Option.some.inj (hk.symm.trans hk')
        refine ⟨hfirst, hmade, fun _ => ?_⟩
        rw [hstarted.member_eq, if_neg hne.symm, hnew]

theorem stop (hs : s.Tidy first handler) : (s.call .stop).Tidy first handler := by
  obtain ⟨hobserver, hcount, hmember⟩ := s.call_stop_eq
  refine ⟨hs.handler_eq, ?_, fun j hj => ?_, fun i hi => ?_⟩
  · rw [hcount]
    exact Nat.le_succ_of_le hs.first_le
  · rw [hmember]
    split
    · rcases hs.used j hj with hnew | ⟨alive, hused⟩
      · rw [hnew]
        exact .inl rfl
      · rw [hused]
        exact .inr ⟨_, rfl⟩
    · exact hs.used j hj
  · obtain rfl := Option.some.inj (hi.symm.trans hobserver)
    have hnew : s.observers.member s.observers.count = {} := Observers.member_of_count_le (Nat.le_refl _)
    refine ⟨hs.first_le, ?_, fun _ => ?_⟩
    · rw [hcount]
      exact Nat.lt_succ_self _
    · rw [hmember, hnew]
      split <;> rfl

theorem run (hs : s.Tidy first handler) (calls : List Watcher.Call) : (s.run calls).Tidy first handler := by
  induction calls generalizing s with
  | nil => exact hs
  | cons c rest ih =>
    cases c with
    | start => exact ih hs.start
    | stop => exact ih hs.stop

end Tidy

theorem tidy_of_create {env : Environment} {path : Path} {verbose : Bool} {os os' : Observers} {w : Watcher}
    (hcreate : Watcher.create env path handler verbose os = .ok (w, os')) {held : Option Nat}
    (hheld : held = w.observer ∨ held = none) :
    Tidy os.count handler ⟨{ w with observer := held }, os', []⟩ := by
  obtain ⟨-, hhandler, hobserver, rfl⟩ := Watcher.eq_of_create hcreate
  have hnew : ∀ i ≥ os.count, os.make.member i = {} := by
    intro i hi
    rw [Observers.member_make, Observers.member_of_count_le hi]
  have hcount := os.count_make
  refine ⟨hhandler, ?_, fun i hi => .inl (hnew i hi), fun i hi => ?_⟩
  · exact hcount ▸ Nat.le_succ _
  · rcases hheld with rfl | rfl
    · obtain rfl := Option.some.inj (hobserver.symm.trans hi)
      exact ⟨Nat.le_refl _, hcount ▸ Nat.lt_succ_self _, fun _ => hnew _ (Nat.le_refl _)⟩
    · cases hi

theorem not_isRunning_stop (s : Watching) : (s.call .stop).isRunning = false := by
  obtain ⟨hobserver, -, hmember⟩ := s.call_stop_eq
  have hnew : s.observers.member s.observers.count = {} := Observers.member_of_count_le (Nat.le_refl _)
  rw [isRunning, Watcher.isRunning, hobserver, Option.any_some, Observers.isAlive_eq, hmember, hnew]
  split <;> rfl

theorem isRunning_start_iff (hs : s.Tidy first handler) :
    (s.call .start).isRunning = true ↔ s.startFault? = none := by
  cases hrunning : s.isRunning with
  | true =>
    obtain ⟨hwatcher, hobservers⟩ := call_start_of_running hrunning
    rw [isRunning, hwatcher, hobservers, startFault?, if_pos hrunning]
    exact iff_of_true hrunning rfl
  | false =>
    obtain ⟨i, hstarted⟩ := exists_started hs hrunning
    rw [isRunning, Watcher.isRunning]
    cases hfault : s.startFault? with
    | none =>
      refine iff_of_true ?_ rfl
      rw [hstarted.held hfault, Option.any_some, Observers.isAlive_eq, hstarted.member_eq, if_pos rfl, hfault]
      rfl
    | some reason =>
      obtain ⟨-, k, hk, hne, -, -, hnew⟩ := hstarted.reported reason hfault
      refine iff_of_false ?_ nofun
      rw [hk, Option.any_some, Observers.isAlive_eq, hstarted.member_eq, if_neg hne.symm, hnew]
      decide

def Alone (first : Nat) (s : Watching) : Prop :=
  ∀ i ≥ first, s.observers.isAlive i = true → s.watcher.observer = some i

theorem alone_of_create {env : Environment} {path : Path} {verbose : Bool} {os os' : Observers} {w : Watcher}
    (hcreate : Watcher.create env path handler verbose os = .ok (w, os')) (held : Option Nat) :
    Alone os.count ⟨{ w with observer := held }, os', []⟩ := by
  obtain ⟨-, -, -, rfl⟩ := Watcher.eq_of_create hcreate
  intro i hi halive
  have halive' : os.make.isAlive i = true := halive
  rw [Observers.isAlive_eq, Observers.member_make, Observers.member_of_count_le hi] at halive'
  cases halive'

theorem Alone.start (hs : s.Tidy first handler) (halone : s.Alone first) : (s.call .start).Alone first := by
  intro j hj halive
  cases hrunning : s.isRunning with
  | true =>
    obtain ⟨hwatcher, hobservers⟩ := call_start_of_running hrunning
    rw [hobservers] at halive
    rw [hwatcher]
    exact halone j hj halive
  | false =>
    obtain ⟨i, hstarted⟩ := exists_started hs hrunning
    rw [Observers.isAlive_eq, hstarted.member_eq] at halive
    split at halive
    · subst i
      exact hstarted.held (Option.isNone_iff_eq_none.mp halive)
    · rw [← Observers.isAlive_eq] at halive
      rw [isRunning, Watcher.isRunning, halone j hj halive, Option.any_some, halive] at hrunning
      cases hrunning

theorem Alone.stop (halone : s.Alone first) (hfault : s.stopFault? = none) : (s.call .stop).Alone first := by
  intro j hj halive
  obtain ⟨-, -, hmember⟩ := s.call_stop_eq
  rw [Observers.isAlive_eq, hmember, hfault] at halive
  split at halive
  · rw [Option.isSome_none, Bool.and_false] at halive
    cases halive
  · rw [← Observers.isAlive_eq] at halive
    exact absurd (halone j hj halive) ‹_›

theorem Alone.run (hs : s.Tidy first handler) (halone : s.Alone first) {calls : List Watcher.Call}
    (hstops : ∀ earlier, earlier ++ [.stop] <+: calls → (s.run earlier).stopFault? = none) :
    (s.run calls).Alone first := by
  induction calls generalizing s with
  | nil => exact halone
  | cons c rest ih =>
    have hlater : ∀ earlier, earlier ++ [.stop] <+: rest → ((s.call c).run earlier).stopFault? = none := by
      intro earlier hearlier
      exact hstops (c :: earlier) (List.cons_prefix_cons.mpr ⟨rfl, hearlier⟩)
    cases c with
    | start => exact ih hs.start (halone.start hs) hlater
    | stop =>
      have hfault : s.stopFault? = none := hstops [] (List.cons_prefix_cons.mpr ⟨rfl, List.nil_prefix⟩)
      exact ih hs.stop (halone.stop hfault) hlater

/-- However often a watcher is started and stopped, and whatever fails: every call is answered, and what an
observer failed with is reported. No observer of its own is started twice, and one that was started had
the handler scheduled on it once. After a stop the watcher is not running, and after a start it is unless
the observer did not start. A start that finds the watcher not running, as after one that failed, starts an
observer with which nothing was done before. Until a stop fails, no two of its observers are alive. -/
theorem observers_used_once {env : Environment} {path : Path} {verbose : Bool} {os os' : Observers}
    {w : Watcher} (hcreate : Watcher.create env path handler verbose os = .ok (w, os')) {held : Option Nat}
    (hheld : held = w.observer ∨ held = none) (calls : List Watcher.Call) :
    let start : Watching := ⟨{ w with observer := held }, os', []⟩
    let s := start.run calls
    (∀ i ≥ os.count, (s.observers.member i).starts ≤ 1 ∧
        ((s.observers.member i).starts = 1 → (s.observers.member i).handlers = [handler])) ∧
      ((s.call .stop).isRunning = false ∧ ∀ reason, s.stopFault? = some reason → (s.call .stop).log =
        ["FileWatcherService Error: Exception while stopping observer: " ++ reason]) ∧
      (((s.call .start).isRunning = true ↔ s.startFault? = none) ∧
        ∀ reason, s.startFault? = some reason → (s.call .start).log =
          ["FileWatcherService Error: Could not start observer: " ++ reason]) ∧
      (s.isRunning = false → ∃ i ≥ os.count, s.observers.member i = {} ∧
        ∀ j, (s.call .start).observers.member j = if i = j then
            { handlers := [handler], starts := 1, alive := s.startFault?.isNone }
          else s.observers.member j) ∧
      ((∀ earlier, earlier ++ [.stop] <+: calls → (start.run earlier).stopFault? = none) →
        ∀ i ≥ os.count, ∀ j ≥ os.count,
          s.observers.isAlive i = true → s.observers.isAlive j = true → i = j) := by
  intro start s
  have hstart : start.Tidy os.count handler := tidy_of_create hcreate hheld
  have hs : s.Tidy os.count handler := hstart.run calls
  refine ⟨fun i hi => ?_, ⟨s.not_isRunning_stop, ?_⟩, ⟨isRunning_start_iff hs, ?_⟩, fun hidle => ?_, ?_⟩
  · rcases hs.used i hi with hnew | ⟨alive, hused⟩
    · rw [hnew]
      exact ⟨Nat.zero_le 1, nofun⟩
    · rw [hused]
      exact ⟨Nat.le_refl 1, fun _ => rfl⟩
  · intro reason hfault
    cases hrunning : s.isRunning with
    | false =>
      rw [stopFault?, hrunning] at hfault
      cases hfault
    | true =>
      obtain ⟨-, -, -, -, -, hlog⟩ := call_stop_of_running hrunning
      exact hlog reason hfault
  · intro reason hfault
    cases hrunning : s.isRunning with
    | false =>
      obtain ⟨i, hstarted⟩ := exists_started hs hrunning
      exact (hstarted.reported reason hfault).1
    | true =>
      rw [startFault?, hrunning] at hfault
      cases hfault
  · obtain ⟨i, hstarted⟩ := exists_started hs hidle
    exact ⟨i, hstarted.first_le, hstarted.new, hstarted.member_eq⟩
  · intro hstops i hi j hj hialive hjalive
    have hall := Alone.run hstart (alone_of_create hcreate held) hstops
    exact Option.some.inj ((hall i hi hialive).symm.trans (hall j hj hjalive))

def sampleHandler : Handler where
  extensions := [".py"]
  channel := 0

def sampleObservers : Observers where
  startFaults := [some "no more watches"]
  stopFaults := [none, some "busy"]

def rootEnvironment : Environment where
  files := .empty
  workingDirectory := []
  home := []
  parsers := { unavailable := fun _ => none, parse := fun _ _ => .malformed }
  yaml := fun _ _ => .error .malformed

def sampleWatcher : Watcher where
  root := []
  handler := sampleHandler
  observer := some 0

theorem create_sampleWatcher : Watcher.create rootEnvironment ⟨"/", []⟩ sampleHandler false sampleObservers =
    .ok (sampleWatcher, sampleObservers.make) := by
  have hroot : rootEnvironment.Reachable [] := ⟨.root, by decide +kernel, by decide +kernel⟩
  have hdirectory := hroot.directoryAt?_eq
  rw [Watcher.create, hroot.resolve_eq]
  dsimp only [Except.bind]
  rw [hdirectory]
  rfl

theorem observers_used_once_sample :
    let start : Watching := ⟨{ sampleWatcher with observer := none }, sampleObservers.make, []⟩
    let s := start.run [.start, .start, .stop, .start]
    Watcher.create rootEnvironment ⟨"/", []⟩ sampleHandler false sampleObservers =
        .ok (sampleWatcher, sampleObservers.make) ∧
      s.observers.members.map Observer.starts = [0, 1, 1, 1] ∧
      (∀ i ≥ 0, (s.observers.member i).starts ≤ 1 ∧
        ((s.observers.member i).starts = 1 → (s.observers.member i).handlers = [sampleHandler])) ∧
      s.stopFault? = some "busy" ∧ (s.call .stop).isRunning = false ∧
      (s.call .stop).log = ["FileWatcherService Error: Exception while stopping observer: busy"] ∧
      ∀ i ≥ 0, ∀ j ≥ 0, s.observers.isAlive i = true → s.observers.isAlive j = true → i = j := by
  intro start s
  have hfault : s.stopFault? = some "busy" := by decide +kernel
  obtain ⟨hused, ⟨hstop, hlog⟩, -, -, halone⟩ := observers_used_once create_sampleWatcher (.inr rfl)
    [.start, .start, .stop, .start]
  refine ⟨create_sampleWatcher, by decide +kernel, hused, hfault, hstop, hlog "busy" hfault, halone ?_⟩
  rintro earlier ⟨later, hcalls⟩
  -- The only stop comes after two starts.
  have hearlier : earlier = [.start, .start] := by
    rw [List.append_assoc] at hcalls
    rcases earlier with _ | ⟨_, _ | ⟨_, _ | ⟨_, _ | ⟨_, earlier⟩⟩⟩⟩ <;> simp_all
  rw [hearlier]
  decide +kernel

end Watching
end FlowAtlas
