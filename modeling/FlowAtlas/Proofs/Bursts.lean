import FlowAtlas.Watch.Debouncer
import Mathlib.Data.List.DropRight

/-! Bursts of changes. A debouncer and its channel are followed through any run of puts, drains and polls.
What it remembers is when the looks since its last signal last took something, so a poll signals exactly
if they took something and the window has passed since. The notices that its signals answer come one
burst after the other in the order in which they were put. -/

namespace FlowAtlas.Debouncer
variable {τ : Type}

inductive Step (τ : Type) where
  | put (n : Notice)
  | drain (now : τ)
  | poll (now : τ)

def Step.put? : Step τ → Option Notice
  | put n => some n
  | _ => none

/-- A drain or a poll: when it was, what it took from the channel, and whether it was a poll that
signalled. -/
structure Look (τ : Type) where
  time : τ
  taken : List Notice
  signals : Bool
  deriving DecidableEq

def sinceSignal (looks : List (Look τ)) : List (Look τ) :=
  looks.rtakeWhile fun look => !look.signals

def lastTaking? (looks : List (Look τ)) : Option τ :=
  (looks.filter fun look => !look.taken.isEmpty).getLast?.map Look.time

def answered (held : List Notice) : List (Look τ) → List (List Notice)
  | [] => []
  | look :: rest =>
    if look.signals then (held ++ look.taken) :: answered [] rest
    else answered (held ++ look.taken) rest

def unanswered (held : List Notice) : List (Look τ) → List Notice
  | [] => held
  | look :: rest =>
    if look.signals then unanswered [] rest else unanswered (held ++ look.taken) rest

structure History (τ : Type) where
  debouncer : Debouncer τ
  channels : Channels
  looks : List (Look τ) := []

namespace History

def pending (h : History τ) : List Notice :=
  h.channels.pending h.debouncer.channel

variable [Sub τ] [LE τ] [DecidableLE τ]

def signals (h : History τ) (now : τ) : Bool :=
  (h.debouncer.poll now h.channels).1

def step (h : History τ) : Step τ → History τ
  | .put n => { h with channels := h.channels.put h.debouncer.channel n }
  | .drain now =>
    { debouncer := (h.debouncer.drain now h.channels).2.1
      channels := (h.debouncer.drain now h.channels).2.2
      looks := h.looks ++ [⟨now, h.pending, false⟩] }
  | .poll now =>
    { debouncer := (h.debouncer.poll now h.channels).2.1
      channels := (h.debouncer.poll now h.channels).2.2
      looks := h.looks ++ [⟨now, h.pending, h.signals now⟩] }

def run (h : History τ) (steps : List (Step τ)) : History τ :=
  steps.foldl step h

theorem run_append (h : History τ) (steps more : List (Step τ)) :
    h.run (steps ++ more) = (h.run steps).run more :=
  List.foldl_append

theorem run_concat (h : History τ) (steps : List (Step τ)) (s : Step τ) :
    h.run (steps ++ [s]) = (h.run steps).step s :=
  h.run_append steps [s]

end History

section Looks
variable {look : Look τ} {looks : List (Look τ)}

theorem sinceSignal_concat (looks : List (Look τ)) (look : Look τ) :
    sinceSignal (looks ++ [look]) = if look.signals then [] else sinceSignal looks ++ [look] := by
  unfold sinceSignal
  rw [List.rtakeWhile_concat]
  cases look.signals <;> rfl

theorem lastTaking?_concat (looks : List (Look τ)) (look : Look τ) :
    lastTaking? (looks ++ [look]) =
      if look.taken = [] then lastTaking? looks else some look.time := by
  unfold lastTaking?
  rw [List.filter_append]
  by_cases htaken : look.taken = [] <;> simp [htaken]

theorem lastTaking?_eq_none_iff :
    lastTaking? looks = none ↔ ∀ look ∈ looks, look.taken = [] := by
  simp [lastTaking?]

theorem lastTaking?_sinceSignal (looks : List (Look τ)) :
    lastTaking? (sinceSignal looks) =
      if ∃ look ∈ sinceSignal looks, look.taken ≠ [] then lastTaking? looks else none := by
  split
  · rename_i htook
    obtain ⟨before, hbefore⟩ := List.rtakeWhile_suffix (fun look => !look.signals) looks
    have hsome : lastTaking? (sinceSignal looks) ≠ none := fun hnone => by
      obtain ⟨look, hlook, htaken⟩ := htook
      exact htaken (lastTaking?_eq_none_iff.mp hnone look hlook)
    have happend : lastTaking? looks = (lastTaking? (sinceSignal looks)).or (lastTaking? before) := by
      have hlooks : looks = before ++ sinceSignal looks := hbefore.symm
      conv_lhs => rw [hlooks]
      simp only [lastTaking?, List.filter_append, List.getLast?_append, Option.map_or]
    rw [happend]
    cases hlast : lastTaking? (sinceSignal looks) with
    | none => exact (hsome hlast).elim
    | some t => rfl
  · rename_i htook
    rw [lastTaking?_eq_none_iff]
    simpa using htook

theorem flatten_answered (held : List Notice) (looks : List (Look τ)) :
    (answered held looks).flatten ++ unanswered held looks = held ++ looks.flatMap Look.taken := by
  induction looks generalizing held with
  | nil => simp [answered, unanswered]
  | cons look rest ih =>
    rw [answered, unanswered, List.flatMap_cons]
    split
    · have hrest := ih []
      rw [List.nil_append] at hrest
      rw [List.flatten_cons, List.append_assoc, hrest, List.append_assoc]
    · rw [ih, List.append_assoc]

theorem length_answered (held : List Notice) (looks : List (Look τ)) :
    (answered held looks).length = looks.countP Look.signals := by
  induction looks generalizing held with
  | nil => rfl
  | cons look rest ih =>
    rw [answered, List.countP_cons]
    split <;> simp [ih]

theorem answered_concat (held : List Notice) (looks : List (Look τ)) (look : Look τ) :
    answered held (looks ++ [look]) = answered held looks ++
      if look.signals then [unanswered held looks ++ look.taken] else [] := by
  induction looks generalizing held with
  | nil => cases h : look.signals <;> simp [answered, unanswered, h]
  | cons first rest ih =>
    rw [List.cons_append, answered, answered, unanswered]
    split
    · rw [ih, List.cons_append]
    · exact ih _

theorem unanswered_concat (held : List Notice) (looks : List (Look τ)) (look : Look τ) :
    unanswered held (looks ++ [look]) =
      if look.signals then [] else unanswered held looks ++ look.taken := by
  induction looks generalizing held with
  | nil => cases h : look.signals <;> simp [unanswered, h]
  | cons first rest ih =>
    rw [List.cons_append, unanswered, unanswered]
    split <;> exact ih _

theorem unanswered_eq_flatMap (looks : List (Look τ)) :
    unanswered [] looks = (sinceSignal looks).flatMap Look.taken := by
  induction looks using List.reverseRecOn with
  | nil => rfl
  | append_singleton looks look ih =>
    rw [unanswered_concat, sinceSignal_concat, ih]
    split
    · rfl
    · rw [List.flatMap_append, List.flatMap_singleton]

end Looks

@[simp] theorem channel_drain (d : Debouncer τ) (now : τ) (cs : Channels) :
    (d.drain now cs).2.1.channel = d.channel := by
  unfold drain
  dsimp only
  split <;> rfl

theorem lastChange_drain (d : Debouncer τ) (now : τ) (cs : Channels) :
    (d.drain now cs).2.1.lastChange =
      if cs.pending d.channel = [] then d.lastChange else some now := by
  unfold drain
  simp only [List.length_eq_zero_iff]
  split <;> rfl

@[simp] theorem window_drain (d : Debouncer τ) (now : τ) (cs : Channels) :
    (d.drain now cs).2.1.window = d.window := by
  unfold drain
  dsimp only
  split <;> rfl

namespace History
variable {h : History τ}

theorem lastChange_look (hlast : h.debouncer.lastChange = lastTaking? (sinceSignal h.looks)) (now : τ)
    (signals : Bool) : (h.debouncer.drain now h.channels).2.1.lastChange =
      lastTaking? (sinceSignal h.looks ++ [⟨now, h.pending, signals⟩]) := by
  rw [lastChange_drain, lastTaking?_concat, hlast]
  rfl

theorem lastChange_drain_of_empty (hpending : h.pending = []) (now : τ) :
    (h.debouncer.drain now h.channels).2.1.lastChange = h.debouncer.lastChange := by
  rw [lastChange_drain]
  exact if_pos hpending

end History

variable [Sub τ] [LE τ] [DecidableLE τ]

theorem poll_eq (d : Debouncer τ) (now : τ) (cs : Channels) :
    d.poll now cs =
      let drained := (d.drain now cs).2.1
      if drained.lastChange.any fun last => d.window ≤ now - last then
        (true, { drained with lastChange := none }, cs.clear d.channel)
      else (false, drained, cs.clear d.channel) := by
  rw [← window_drain d now cs]
  rfl

theorem signals_poll_iff (d : Debouncer τ) (now : τ) (cs : Channels) : (d.poll now cs).1 = true ↔
    ∃ last, (d.drain now cs).2.1.lastChange = some last ∧ d.window ≤ now - last := by
  rw [poll_eq]
  dsimp only
  cases (d.drain now cs).2.1.lastChange with
  | none => simp
  | some last => by_cases hpassed : d.window ≤ now - last <;> simp [hpassed]

@[simp] theorem window_poll (d : Debouncer τ) (now : τ) (cs : Channels) :
    (d.poll now cs).2.1.window = d.window := by
  rw [← window_drain d now cs, poll_eq]
  dsimp only
  split <;> rfl

theorem lastChange_poll (d : Debouncer τ) (now : τ) (cs : Channels) : (d.poll now cs).2.1.lastChange =
    if (d.poll now cs).1 then none else (d.drain now cs).2.1.lastChange := by
  rw [poll_eq]
  dsimp only
  split <;> rfl

namespace History
variable {h start : History τ} {steps : List (Step τ)}

theorem pending_put (hmade : h.debouncer.channel < h.channels.count) (n : Notice) :
    (h.step (.put n)).pending = h.pending ++ [n] :=
  h.channels.pending_put hmade n

theorem pending_drain (h : History τ) (now : τ) : (h.step (.drain now)).pending = [] := by
  show (h.channels.clear h.debouncer.channel).pending (h.debouncer.drain now h.channels).2.1.channel = []
  rw [channel_drain, Channels.pending_clear]

theorem pending_poll (h : History τ) (now : τ) : (h.step (.poll now)).pending = [] := by
  show (h.debouncer.poll now h.channels).2.2.pending (h.debouncer.poll now h.channels).2.1.channel = []
  rw [channels_poll, channel_poll, Channels.pending_clear]

/-- What the runs of a debouncer keep. It remembers when the looks since its last signal last took
something, and every notice is taken and answered in its turn. -/
structure Tracks (start : History τ) (steps : List (Step τ)) (h : History τ) : Prop where
  window : h.debouncer.window = start.debouncer.window
  made : h.debouncer.channel < h.channels.count
  lastChange : h.debouncer.lastChange = lastTaking? (sinceSignal h.looks)
  taken : h.looks.flatMap Look.taken ++ h.pending = start.pending ++ steps.filterMap Step.put?
  answers : [] ∉ answered [] h.looks

/-- A poll signals if something was taken since the last signal, and the window has passed since the last
look that took something. -/
theorem signals_iff (hlast : h.debouncer.lastChange = lastTaking? (sinceSignal h.looks)) (now : τ) :
    h.signals now = true ↔
      (h.pending ≠ [] ∨ ∃ look ∈ sinceSignal h.looks, look.taken ≠ []) ∧
        ∃ t, lastTaking? (h.step (.poll now)).looks = some t ∧ h.debouncer.window ≤ now - t := by
  have hlooks : lastTaking? (h.step (.poll now)).looks =
      if h.pending = [] then lastTaking? h.looks else some now :=
    lastTaking?_concat h.looks _
  rw [signals, signals_poll_iff, lastChange_look hlast now false, lastTaking?_concat, hlooks]
  dsimp only
  by_cases hpending : h.pending = []
  · rw [lastTaking?_sinceSignal]
    by_cases htook : ∃ look ∈ sinceSignal h.looks, look.taken ≠ [] <;> simp [hpending, htook]
  · simp [hpending]

namespace Tracks

theorem put (hh : Tracks start steps h) (n : Notice) :
    Tracks start (steps ++ [.put n]) (h.step (.put n)) where
  window := hh.window
  made := by
    show h.debouncer.channel < (h.channels.put h.debouncer.channel n).count
    rw [Channels.count_put]
    exact hh.made
  lastChange := hh.lastChange
  taken := by
    have htaken := congrArg (· ++ [n]) hh.taken
    rw [pending_put hh.made, List.filterMap_append]
    simpa [Step.put?, step] using htaken
  answers := hh.answers

theorem drain (hh : Tracks start steps h) (now : τ) :
    Tracks start (steps ++ [.drain now]) (h.step (.drain now)) where
  window := (window_drain h.debouncer now h.channels).trans hh.window
  made := by
    show (h.debouncer.drain now h.channels).2.1.channel < (h.channels.clear h.debouncer.channel).count
    rw [channel_drain, Channels.count_clear]
    exact hh.made
  lastChange := by
    show (h.debouncer.drain now h.channels).2.1.lastChange = lastTaking? (sinceSignal (h.looks ++ [_]))
    rw [sinceSignal_concat]
    exact lastChange_look hh.lastChange now false
  taken := by
    rw [pending_drain, List.filterMap_append, ← List.append_assoc, ← hh.taken]
    simp [step, Step.put?]
  answers := by
    show [] ∉ answered [] (h.looks ++ [_])
    rw [answered_concat]
    simpa using hh.answers

theorem poll (hh : Tracks start steps h) (now : τ) :
    Tracks start (steps ++ [.poll now]) (h.step (.poll now)) where
  window := (window_poll h.debouncer now h.channels).trans hh.window
  made := by
    show (h.debouncer.poll now h.channels).2.1.channel < (h.debouncer.poll now h.channels).2.2.count
    rw [channel_poll, channels_poll, Channels.count_clear]
    exact hh.made
  lastChange := by
    show (h.debouncer.poll now h.channels).2.1.lastChange = lastTaking? (sinceSignal (h.looks ++ [_]))
    rw [sinceSignal_concat, lastChange_poll]
    -- After a signal nothing is remembered, and there are no looks since.
    show (if h.signals now then _ else _) = lastTaking? (if h.signals now then _ else _)
    split
    · rfl
    · exact lastChange_look hh.lastChange now _
  taken := by
    rw [pending_poll, List.filterMap_append, ← List.append_assoc, ← hh.taken]
    simp [step, Step.put?]
  answers := by
    show [] ∉ answered [] (h.looks ++ [_])
    rw [answered_concat, List.mem_append, not_or]
    refine ⟨hh.answers, ?_⟩
    split
    · rename_i hsignals
      -- A signal answers something, because something was taken.
      have htook := ((signals_iff hh.lastChange now).mp hsignals).1
      rw [List.mem_singleton, unanswered_eq_flatMap, eq_comm, List.append_eq_nil_iff,
        List.flatMap_eq_nil_iff]
      rintro ⟨hnone, hpending⟩
      rcases htook with htook | ⟨look, hlook, htook⟩
      · exact htook hpending
      · exact htook (hnone look hlook)
    · exact List.not_mem_nil

end Tracks

theorem tracks_run (hlast : start.debouncer.lastChange = none)
    (hmade : start.debouncer.channel < start.channels.count) (hlooks : start.looks = [])
    (steps : List (Step τ)) : Tracks start steps (start.run steps) := by
  induction steps using List.reverseRecOn with
  | nil =>
    show Tracks start [] start
    refine ⟨rfl, hmade, ?_, ?_, ?_⟩
    · rw [hlooks, hlast]
      rfl
    · rw [hlooks, List.flatMap_nil, List.filterMap_nil, List.append_nil, List.nil_append]
    · rw [hlooks]
      exact List.not_mem_nil
  | append_singleton steps s ih =>
    rw [run_concat]
    cases s with
    | put n => exact ih.put n
    | drain now => exact ih.drain now
    | poll now => exact ih.poll now

theorem quiet_run (hlast : h.debouncer.lastChange = none) (hpending : h.pending = [])
    (hputs : ∀ n, .put n ∉ steps) :
    (h.run steps).debouncer.lastChange = none ∧ (h.run steps).pending = [] := by
  induction steps using List.reverseRecOn with
  | nil => exact ⟨hlast, hpending⟩
  | append_singleton steps s ih =>
    have hputs' := fun n hn => hputs n (List.mem_append_left _ hn)
    obtain ⟨hlast', hpending'⟩ := ih hputs'
    have hdrained := fun now => (lastChange_drain_of_empty hpending' now).trans hlast'
    rw [run_concat]
    cases s with
    | put n => exact (hputs n (by simp)).elim
    | drain now => exact ⟨hdrained now, pending_drain _ now⟩
    | poll now =>
      refine ⟨?_, pending_poll _ now⟩
      show ((h.run steps).debouncer.poll now (h.run steps).channels).2.1.lastChange = none
      rw [lastChange_poll, hdrained, ite_self]

theorem exists_put_of_signals {now now' : τ} (hfirst : h.signals now = true)
    (hsecond : ((h.step (.poll now)).run steps).signals now' = true) : ∃ n, .put n ∈ steps := by
  by_contra hputs
  have hlast : (h.step (.poll now)).debouncer.lastChange = none := by
    show (h.debouncer.poll now h.channels).2.1.lastChange = none
    rw [lastChange_poll]
    exact if_pos hfirst
  obtain ⟨hlast', hpending'⟩ :=
    quiet_run hlast (h.pending_poll now) fun n hn => hputs ⟨n, hn⟩
  rw [signals, signals_poll_iff, lastChange_drain_of_empty hpending', hlast'] at hsecond
  obtain ⟨t, ht, -⟩ := hsecond
  cases ht

end History

/-- However the puts, drains and polls of a debouncer follow each other, and whatever the times: a poll
signals exactly if something was taken since the last signal and the window has passed since the last
look that took something. It leaves nothing pending. The notices that the signals answer, those taken since
the last signal and those pending are all that were put, in their order; no signal answers none, and
between two signals something was put. -/
theorem run_bursts (d : Debouncer τ) (cs : Channels) (hlast : d.lastChange = none)
    (hmade : d.channel < cs.count) (steps : List (Step τ)) :
    let start : History τ := { debouncer := d, channels := cs }
    let h := start.run steps
    (∀ now, h.signals now = true ↔
        (h.pending ≠ [] ∨ ∃ look ∈ sinceSignal h.looks, look.taken ≠ []) ∧
          ∃ t, lastTaking? (h.step (.poll now)).looks = some t ∧ d.window ≤ now - t) ∧
      (∀ now, (h.step (.poll now)).pending = []) ∧
      (answered [] h.looks).flatten ++ unanswered [] h.looks ++ h.pending =
        cs.pending d.channel ++ steps.filterMap Step.put? ∧
      (answered [] h.looks).length = h.looks.countP Look.signals ∧ [] ∉ answered [] h.looks ∧
      ∀ before between now now', steps = before ++ .poll now :: between →
        (start.run before).signals now = true → h.signals now' = true → ∃ n, .put n ∈ between := by
  intro start h
  have hh : History.Tracks start steps h := History.tracks_run hlast hmade rfl steps
  refine ⟨fun now => ?_, h.pending_poll, ?_, length_answered [] h.looks, hh.answers, ?_⟩
  · have hsignals := History.signals_iff hh.lastChange now
    rwa [hh.window] at hsignals
  · rw [flatten_answered, List.nil_append]
    exact hh.taken
  · rintro before between now now' rfl hfirst hsecond
    have hrun : h = ((start.run before).step (.poll now)).run between := start.run_append before _
    rw [hrun] at hsecond
    exact History.exists_put_of_signals hfirst hsecond

theorem run_bursts_sample :
    let d : Debouncer Rat := { channel := 0, window := 1 / 2 }
    let changed : Notice := { kind := .modified, source := ⟨"/", ["a.rs"]⟩ }
    let gone : Notice := { kind := .deleted, source := ⟨"/", ["b.rs"]⟩ }
    let steps : List (Step Rat) := [.put changed, .poll 10, .put gone, .drain (41 / 4)]
    let h := History.run { debouncer := d, channels := ⟨[[]]⟩ } steps
    d.lastChange = none ∧ d.channel < Channels.count ⟨[[]]⟩ ∧ h.signals (21 / 2) = false ∧
      h.signals (43 / 4) = true ∧
      answered [] (h.step (.poll (43 / 4))).looks = [[changed, gone]] := by
  intro d changed gone steps h
  have hmade : d.channel < Channels.count ⟨[[]]⟩ := by decide
  obtain ⟨hsignals, -⟩ := run_bursts d ⟨[[]]⟩ rfl hmade steps
  have htook : ∃ look ∈ sinceSignal h.looks, look.taken ≠ [] :=
    ⟨⟨41 / 4, [gone], false⟩, by decide +kernel, by decide⟩
  have hpassed : lastTaking? (h.step (.poll (43 / 4))).looks = some (41 / 4) ∧
      d.window ≤ 43 / 4 - 41 / 4 := by decide +kernel
  have hlate : h.signals (43 / 4) = true := (hsignals _).mpr ⟨.inr htook, _, hpassed⟩
  exact ⟨rfl, hmade, by decide +kernel, hlate, by decide +kernel⟩

end FlowAtlas.Debouncer
