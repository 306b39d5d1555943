import FlowAtlas.Watch.Channel

/-! A debouncer makes one signal of a burst of changes. It fires once the last change it has seen is
at least the window ago. The times are of any kind that can be subtracted and compared. -/

namespace FlowAtlas

structure Debouncer (τ : Type) where
  channel : Nat
  window : τ
  /-- When a notice was last taken from the channel; none since the last signal if absent. -/
  lastChange : Option τ := none
  deriving Repr

namespace Debouncer
variable {τ : Type}

def drain (d : Debouncer τ) (now : τ) (cs : Channels) : Nat × Debouncer τ × Channels :=
  let taken := (cs.pending d.channel).length
  (taken, if taken = 0 then d else { d with lastChange := some now }, cs.clear d.channel)

def poll [Sub τ] [LE τ] [DecidableLE τ] (d : Debouncer τ) (now : τ) (cs : Channels) :
    Bool × Debouncer τ × Channels :=
  let (_, d, cs) := d.drain now cs
  if (d.lastChange.any fun last => d.window ≤ now - last) then
    (true, { d with lastChange := none }, cs)
  else (false, d, cs)

variable [Sub τ] [LE τ] [DecidableLE τ]

@[simp] theorem channel_poll (d : Debouncer τ) (now : τ) (cs : Channels) :
    (d.poll now cs).2.1.channel = d.channel := by
  unfold poll drain
  dsimp only
  split <;> split <;> rfl

@[simp] theorem channels_poll (d : Debouncer τ) (now : τ) (cs : Channels) :
    (d.poll now cs).2.2 = cs.clear d.channel := by
  unfold poll drain
  dsimp only
  split <;> split <;> rfl

/-- A debouncer looks at its own channel alone. -/
theorem poll_congr (d : Debouncer τ) (now : τ) {cs cs' : Channels}
    (h : cs.pending d.channel = cs'.pending d.channel) :
    (d.poll now cs).1 = (d.poll now cs').1 ∧ (d.poll now cs).2.1 = (d.poll now cs').2.1 := by
  unfold poll drain
  rw [h]
  dsimp only
  split <;> split <;> exact ⟨rfl, rfl⟩

end Debouncer
end FlowAtlas
