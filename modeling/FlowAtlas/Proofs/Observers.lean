import FlowAtlas.Watch.Watcher

/-! Observers one by one, as the calls of a watcher leave them: which are alive, and which handlers are
scheduled on them. An observer that is not made yet counts as one with which nothing was done. -/

namespace FlowAtlas

namespace Observers
variable {os : Observers} {i j : Nat}

def member (os : Observers) (i : Nat) : Observer :=
  os.members[i]?.getD {}

theorem isAlive_eq (os : Observers) (i : Nat) : os.isAlive i = (os.member i).alive := by
  unfold isAlive member
  cases os.members[i]? <;> rfl

theorem member_of_count_le (h : os.count ≤ i) : os.member i = {} := by
  rw [member, List.getElem?_eq_none h, Option.getD_none]

@[simp] theorem member_make (os : Observers) (i : Nat) : os.make.member i = os.member i :=
  Channels.getD_concat_self os.members {} i

theorem member_change (h : i < os.count) (f : Observer → Observer) (j : Nat) :
    (os.change i f).member j = if i = j then f (os.member j) else os.member j := by
  unfold member change
  rw [List.getElem?_modify]
  by_cases hij : i = j
  · subst hij
    rw [if_pos rfl, List.getElem?_eq_getElem h]
    simp
  · simp [hij]

@[simp] theorem count_make (os : Observers) : os.make.count = os.count + 1 := by
  simp [count, make]

@[simp] theorem count_change (os : Observers) (i : Nat) (f : Observer → Observer) :
    (os.change i f).count = os.count := by
  simp [count, change]

theorem alive_eq (os : Observers) :
    os.alive = ((List.range os.count).filter os.isAlive).map os.member := by
  have hmembers : os.members = (List.range os.count).map os.member := by
    refine List.ext_getElem (by simp [count]) fun i hi _ => ?_
    simp [member, hi]
  have halive : Observer.alive ∘ os.member = os.isAlive := by
    funext i
    exact (os.isAlive_eq i).symm
  rw [alive, hmembers, List.filter_map, halive]

theorem member_start (h : i < os.count) (j : Nat) :
    ((os.start i).1.member j).handlers = (os.member j).handlers ∧
      ((os.start i).1.isAlive j = true ↔
        os.isAlive j = true ∨ (os.start i).2 = none ∧ i = j) := by
  have hmember : (os.start i).1.member j = if i = j then
      { os.member j with
        starts := (os.member j).starts + 1
        alive := (os.member j).alive || os.startFaults.head?.join.isNone }
      else os.member j :=
    Observers.member_change h _ j
  have hfault : (os.start i).2 = os.startFaults.head?.join := rfl
  rw [isAlive_eq, isAlive_eq, hmember, hfault]
  split <;> simp [*]

theorem member_stop (h : i < os.count) (j : Nat) :
    ((os.stop i).1.member j).handlers = (os.member j).handlers ∧
      ((os.stop i).1.isAlive j = true ↔
        os.isAlive j = true ∧ ((os.stop i).2 = none → i ≠ j)) := by
  have hmember : (os.stop i).1.member j = if i = j then
      { os.member j with alive := (os.member j).alive && os.stopFaults.head?.join.isSome }
      else os.member j :=
    Observers.member_change h _ j
  have hfault : (os.stop i).2 = os.stopFaults.head?.join := rfl
  rw [isAlive_eq, isAlive_eq, hmember, hfault]
  split
  · cases os.stopFaults.head?.join <;> simp [*]
  · simp [*]

theorem member_schedule (h : i < os.count) (handler : Handler) (j : Nat) :
    ((os.schedule i handler).member j).handlers =
        (os.member j).handlers ++ (if i = j then [handler] else []) ∧
      (os.schedule i handler).isAlive j = os.isAlive j := by
  rw [isAlive_eq, isAlive_eq, schedule, member_change h]
  split <;> simp

theorem stopFaults_stop (hstops : ∀ fault ∈ os.stopFaults, fault = none) (i : Nat) :
    (os.stop i).2 = none ∧ ∀ fault ∈ (os.stop i).1.stopFaults, fault = none := by
  refine ⟨?_, fun fault hfault => hstops fault (List.mem_of_mem_tail hfault)⟩
  have hhead : (os.stop i).2 = os.stopFaults.head?.join := rfl
  cases hfaults : os.stopFaults with
  | nil => rw [hhead, hfaults]; rfl
  | cons fault rest =>
    have hnone := hstops fault (by rw [hfaults]; exact List.mem_cons_self)
    rw [hhead, hfaults, hnone]
    rfl

theorem lt_count_of_isAlive (h : os.isAlive i = true) : i < os.count := by
  refine Nat.lt_of_not_le fun hle => ?_
  rw [isAlive_eq, member_of_count_le hle] at h
  cases h

theorem alive_of_unique (h : ∀ j, os.isAlive j = true → j = i) :
    os.alive = if os.isAlive i then [os.member i] else [] := by
  rw [alive_eq]
  cases hi : os.isAlive i with
  | false =>
    have hnone : (List.range os.count).filter os.isAlive = [] := by
      refine List.filter_eq_nil_iff.mpr fun j _ hj => ?_
      rw [h j hj, hi] at hj
      cases hj
    rw [hnone]
    rfl
  | true =>
    have hsame : ∀ j, os.isAlive j = (j == i) := fun j => by
      rw [Bool.eq_iff_iff, beq_iff_eq]
      exact ⟨h j, fun hj => hj ▸ hi⟩
    have hone : (List.range os.count).filter os.isAlive = [i] := by
      rw [List.filter_congr fun j _ => hsame j, List.filter_beq,
        List.nodup_range.count, if_pos (List.mem_range.mpr (lt_count_of_isAlive hi))]
      rfl
    rw [hone]
    rfl

end Observers

namespace Watcher
variable {w : Watcher} {os : Observers} {i j : Nat}

theorem eq_of_create {env : Environment} {path : Path} {handler : Handler} {verbose : Bool}
    {os' : Observers} (h : create env path handler verbose os = .ok (w, os')) :
    env.resolve path = .ok w.root ∧ w.handler = handler ∧ w.observer = some os.count ∧
      os' = os.make := by
  unfold create at h
  cases hroot : env.resolve path with
  | error fault => rw [hroot] at h; cases h
  | ok root =>
    rw [hroot] at h
    dsimp only [Except.bind] at h
    split at h
    · cases h
    · cases h
    · obtain ⟨rfl, rfl⟩ := Prod.mk.inj (Except.ok.inj h)
      exact ⟨rfl, rfl, rfl, rfl⟩

theorem not_directoryAt_of_create {env : Environment} {path : Path} {handler : Handler} {verbose : Bool}
    {fault : Fault} {root : Address} (h : create env path handler verbose os = .error fault)
    (hroot : env.resolve path = .ok root) (found : Address) :
    env.directoryAt? ⟨"/", root⟩ ≠ .ok (some found) := by
  intro hfound
  rw [create, hroot] at h
  dsimp only [Except.bind] at h
  rw [hfound] at h
  cases h

theorem create_of_fault {env : Environment} {path : Path} {handler : Handler} {verbose : Bool}
    {fault : Fault} {root : Address} (hroot : env.resolve path = .ok root)
    (hfault : env.directoryAt? ⟨"/", root⟩ = .error fault) :
    create env path handler verbose os = .error fault := by
  rw [create, hroot]
  dsimp only [Except.bind]
  rw [hfault]

@[simp] theorem root_startObserver (w : Watcher) (os : Observers) (i : Nat) :
    (w.startObserver os i).watcher.root = w.root := by
  unfold startObserver
  split <;> rfl

@[simp] theorem handler_startObserver (w : Watcher) (os : Observers) (i : Nat) :
    (w.startObserver os i).watcher.handler = w.handler := by
  unfold startObserver
  split <;> rfl

/-- A watcher schedules its handler on its observer. If this does not start, the watcher ends up with
another one, and none more is alive than before. -/
theorem member_startObserver (w : Watcher) (h : i < os.count) (j : Nat) :
    ((w.startObserver os i).observers.member j).handlers =
        (os.member j).handlers ++ (if i = j then [w.handler] else []) ∧
      ((w.startObserver os i).observers.isAlive j = true →
        os.isAlive j = true ∨ i = j ∧ (w.startObserver os i).watcher.observer = some i) := by
  have hcount : i < (os.schedule i w.handler).count := by
    rw [Observers.schedule, Observers.count_change]
    exact h
  obtain ⟨hscheduled, halive⟩ := Observers.member_schedule h w.handler j
  obtain ⟨hhandlers, hstarted⟩ := Observers.member_start hcount j
  rw [hscheduled] at hhandlers
  rw [halive] at hstarted
  unfold startObserver
  generalize (os.schedule i w.handler).start i = started at *
  obtain ⟨os', fault⟩ := started
  cases fault with
  | none =>
    refine ⟨hhandlers, fun hj => ?_⟩
    exact (hstarted.mp hj).imp_right fun hnew => ⟨hnew.2, rfl⟩
  | some reason =>
    rw [Observers.isAlive_eq, Observers.member_make, ← Observers.isAlive_eq]
    exact ⟨hhandlers, fun hj => .inl (by simpa using hstarted.mp hj)⟩

theorem stopFaults_startObserver (w : Watcher) (os : Observers) (i : Nat) :
    (w.startObserver os i).observers.stopFaults = os.stopFaults := by
  unfold startObserver
  have hstart : ((os.schedule i w.handler).start i).1.stopFaults = os.stopFaults := rfl
  generalize (os.schedule i w.handler).start i = started at hstart
  obtain ⟨os', fault⟩ := started
  cases fault <;> exact hstart

theorem member_stop (w : Watcher) (hstops : ∀ fault ∈ os.stopFaults, fault = none) (j : Nat) :
    ((w.stop os).observers.member j).handlers = (os.member j).handlers ∧
      ((w.stop os).observers.isAlive j = true ↔ os.isAlive j = true ∧ w.observer ≠ some j) := by
  unfold stop
  cases hobserver : w.observer with
  | none => simp [Observers.isAlive_eq]
  | some i =>
    dsimp only
    cases halive : os.isAlive i with
    | false =>
      have hj : os.isAlive j = true → i ≠ j := by
        rintro hj rfl
        rw [halive] at hj
        cases hj
      simpa [Observers.isAlive_eq] using hj
    | true =>
      obtain ⟨hhandlers, hstopped⟩ := Observers.member_stop (Observers.lt_count_of_isAlive halive) j
      have hnone := (Observers.stopFaults_stop hstops i).1
      generalize os.stop i = stopped at *
      obtain ⟨os', fault⟩ := stopped
      obtain rfl : fault = none := hnone
      simpa [Observers.isAlive_eq] using And.intro hhandlers hstopped

theorem stopFaults_stop (w : Watcher) (hstops : ∀ fault ∈ os.stopFaults, fault = none) :
    ∀ fault ∈ (w.stop os).observers.stopFaults, fault = none := by
  unfold stop
  cases w.observer with
  | none => exact hstops
  | some i =>
    dsimp only
    cases os.isAlive i with
    | false => exact hstops
    | true =>
      obtain ⟨hnone, hrest⟩ := Observers.stopFaults_stop hstops i
      generalize os.stop i = stopped at *
      obtain ⟨os', fault⟩ := stopped
      obtain rfl : fault = none := hnone
      exact hrest

theorem startFaults_stop (w : Watcher) (os : Observers) :
    (w.stop os).observers.startFaults = os.startFaults := by
  unfold stop
  cases w.observer with
  | none => rfl
  | some i =>
    dsimp only
    cases os.isAlive i with
    | false => rfl
    | true =>
      have hkept : (os.stop i).1.startFaults = os.startFaults := rfl
      generalize os.stop i = stopped at hkept
      obtain ⟨os', fault⟩ := stopped
      cases fault <;> exact hkept

theorem startObserver_of_no_faults (w : Watcher) (h : i < os.count) (hfaults : os.startFaults = []) :
    (w.startObserver os i).watcher.observer = some i ∧ (w.startObserver os i).observers.isAlive i = true ∧
      (w.startObserver os i).observers.startFaults = [] := by
  have hcount : i < (os.schedule i w.handler).count := by
    rw [Observers.schedule, Observers.count_change]
    exact h
  have hnone : ((os.schedule i w.handler).start i).2 = none := by
    show os.startFaults.head?.join = none
    rw [hfaults]
    rfl
  have hrest : ((os.schedule i w.handler).start i).1.startFaults = [] := by
    show os.startFaults.tail = []
    rw [hfaults]
    rfl
  have halive := (Observers.member_start hcount i).2.mpr (.inr ⟨hnone, rfl⟩)
  unfold startObserver
  generalize (os.schedule i w.handler).start i = started at hnone hrest halive
  obtain ⟨os', fault⟩ := started
  obtain rfl : fault = none := hnone
  exact ⟨rfl, halive, hrest⟩

@[simp] theorem handler_start (w : Watcher) (os : Observers) :
    (w.start os).watcher.handler = w.handler := by
  unfold start
  split
  · exact w.handler_startObserver _ _
  · split
    · rfl
    · exact w.handler_startObserver _ _

end Watcher
end FlowAtlas
