import FlowAtlas.Watch.Event

/-! The channels that handlers write and debouncers read, by number. -/

namespace FlowAtlas

structure Channels where
  queues : List (List Notice) := []
  deriving DecidableEq, Repr

namespace Channels

def count (cs : Channels) : Nat :=
  cs.queues.length

def make (cs : Channels) : Channels :=
  ⟨cs.queues ++ [[]]⟩

def pending (cs : Channels) (channel : Nat) : List Notice :=
  cs.queues[channel]?.getD []

def put (cs : Channels) (channel : Nat) (n : Notice) : Channels :=
  ⟨cs.queues.modify channel (· ++ [n])⟩

def clear (cs : Channels) (channel : Nat) : Channels :=
  ⟨cs.queues.modify channel fun _ => []⟩

theorem getD_concat_self {α : Type} (l : List α) (a : α) (i : Nat) :
    (l ++ [a])[i]?.getD a = l[i]?.getD a := by
  by_cases h : i < l.length
  · rw [List.getElem?_append_left h]
  · have hle : l.length ≤ i := Nat.le_of_not_lt h
    rw [List.getElem?_append_right hle, List.getElem?_eq_none hle]
    cases i - l.length <;> rfl

@[simp] theorem count_make (cs : Channels) : cs.make.count = cs.count + 1 := by
  simp [count, make]

@[simp] theorem count_put (cs : Channels) (channel : Nat) (n : Notice) :
    (cs.put channel n).count = cs.count := by
  simp [count, put]

@[simp] theorem count_clear (cs : Channels) (channel : Nat) :
    (cs.clear channel).count = cs.count := by
  simp [count, clear]

theorem pending_of_count_le (cs : Channels) {channel : Nat} (h : cs.count ≤ channel) :
    cs.pending channel = [] := by
  rw [pending, List.getElem?_eq_none h, Option.getD_none]

@[simp] theorem pending_make (cs : Channels) (channel : Nat) :
    cs.make.pending channel = cs.pending channel :=
  getD_concat_self cs.queues [] channel

@[simp] theorem pending_clear (cs : Channels) (channel : Nat) :
    (cs.clear channel).pending channel = [] := by
  cases h : cs.queues[channel]? <;> simp [pending, clear, h]

theorem pending_clear_of_ne (cs : Channels) {channel other : Nat} (h : other ≠ channel) :
    (cs.clear channel).pending other = cs.pending other := by
  have h' : channel ≠ other := fun e => h e.symm
  simp [pending, clear, h']

theorem pending_put (cs : Channels) {channel : Nat} (h : channel < cs.count) (n : Notice) :
    (cs.put channel n).pending channel = cs.pending channel ++ [n] := by
  have h' : channel < cs.queues.length := h
  simp [pending, put, h']

theorem pending_put_of_ne (cs : Channels) {channel other : Nat} (h : other ≠ channel)
    (n : Notice) : (cs.put channel n).pending other = cs.pending other := by
  have h' : channel ≠ other := fun e => h e.symm
  simp [pending, put, h']

/-- What a channel holds after something was put is settled by what it held, and by which there are. -/
theorem pending_put_congr {cs cs' : Channels} {other : Nat} (hcount : cs.count = cs'.count)
    (h : cs.pending other = cs'.pending other) (channel : Nat) (n : Notice) :
    (cs.put channel n).pending other = (cs'.put channel n).pending other := by
  by_cases hother : other = channel
  · subst hother
    by_cases hmade : other < cs.count
    · rw [cs.pending_put hmade, cs'.pending_put (hcount ▸ hmade), h]
    · have hle : cs.count ≤ other := Nat.le_of_not_lt hmade
      rw [pending_of_count_le, pending_of_count_le]
      · rwa [count_put, ← hcount]
      · rwa [count_put]
  · rw [pending_put_of_ne _ hother, pending_put_of_ne _ hother, h]

end Channels
end FlowAtlas
