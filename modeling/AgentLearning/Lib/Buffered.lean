import Mathlib.Data.Int.Notation
import Mathlib.Data.List.Flatten
import Mathlib.Tactic.SplitIfs

/-!
# Buffered sinks

Items are kept in a buffer and written in batches, once there are enough of them or when someone
asks. What was written and what is in the buffer are together what the sink was given, in that order
(`accepted_run`), and the buffer never stays full (`Bounded.run`).
-/

structure BufferedSink (α : Type*) where
  maxBuffer : ℤ
  buffer : List α := []
  batches : List (List α) := []

/-- What a sink can be asked for: to take items, or to write what it has. -/
inductive SinkCall (α : Type*)
  | push (items : List α)
  | flush

def SinkCall.items {α : Type*} : SinkCall α → List α
  | push items => items
  | flush => []

namespace BufferedSink

variable {α : Type*} (sink : BufferedSink α)

/-- An empty buffer is not written. -/
def flush : BufferedSink α :=
  match sink.buffer with
  | [] => sink
  | _ :: _ => { sink with buffer := [], batches := sink.batches ++ [sink.buffer] }

def fill (items : List α) : BufferedSink α := { sink with buffer := sink.buffer ++ items }

def push (items : List α) : BufferedSink α :=
  if sink.maxBuffer ≤ (sink.fill items).buffer.length then (sink.fill items).flush
  else sink.fill items

def step : SinkCall α → BufferedSink α
  | .push items => sink.push items
  | .flush => sink.flush

def run (calls : List (SinkCall α)) : BufferedSink α := calls.foldl step sink

/-- What was given to the sink. -/
def accepted : List α := sink.batches.flatten ++ sink.buffer

theorem flush_of_nil (h : sink.buffer = []) : sink.flush = sink := by
  unfold flush
  rw [h]

theorem flush_of_ne_nil (h : sink.buffer ≠ []) :
    sink.flush = { sink with buffer := [], batches := sink.batches ++ [sink.buffer] } := by
  unfold flush
  split
  · exact absurd ‹_› h
  · rfl

@[simp]
theorem buffer_flush : sink.flush.buffer = [] := by
  by_cases h : sink.buffer = []
  · rw [sink.flush_of_nil h, h]
  · rw [sink.flush_of_ne_nil h]

@[simp]
theorem accepted_flush : sink.flush.accepted = sink.accepted := by
  by_cases h : sink.buffer = []
  · rw [sink.flush_of_nil h]
  · rw [sink.flush_of_ne_nil h]
    simp [accepted]

@[simp]
theorem accepted_push (items : List α) : (sink.push items).accepted = sink.accepted ++ items := by
  have hfill : (sink.fill items).accepted = sink.accepted ++ items := by simp [accepted, fill]
  unfold push
  split_ifs
  · rw [accepted_flush, hfill]
  · exact hfill

/-- No batch is empty, and the buffer is not full. -/
structure Bounded : Prop where
  batches : ∀ batch ∈ sink.batches, batch ≠ []
  buffer : sink.buffer = [] ∨ (sink.buffer.length : ℤ) < sink.maxBuffer

variable {sink}

theorem bounded_flush (h : ∀ batch ∈ sink.batches, batch ≠ []) : sink.flush.Bounded := by
  refine ⟨?_, .inl sink.buffer_flush⟩
  by_cases hnil : sink.buffer = []
  · rw [sink.flush_of_nil hnil]
    exact h
  · rw [sink.flush_of_ne_nil hnil]
    intro batch hbatch
    rcases List.mem_append.mp hbatch with hbatch | hbatch
    · exact h batch hbatch
    · rw [List.mem_singleton.mp hbatch]
      exact hnil

theorem Bounded.push (h : sink.Bounded) (items : List α) : (sink.push items).Bounded := by
  unfold BufferedSink.push
  split_ifs with hfull
  · exact bounded_flush h.batches
  · exact ⟨h.batches, .inr (Int.not_le.mp hfull)⟩

/-! ## Runs -/

theorem accepted_step (sink : BufferedSink α) (call : SinkCall α) :
    (sink.step call).accepted = sink.accepted ++ call.items := by
  rcases call with items | _
  · exact sink.accepted_push items
  · rw [step, accepted_flush, SinkCall.items, List.append_nil]

theorem accepted_run : ∀ (calls : List (SinkCall α)) (sink : BufferedSink α),
    (sink.run calls).accepted = sink.accepted ++ calls.flatMap SinkCall.items
  | [], sink => (List.append_nil _).symm
  | call :: calls, sink => by
    have hrest := accepted_run calls (sink.step call)
    rw [accepted_step, List.append_assoc] at hrest
    exact hrest

theorem Bounded.step (h : sink.Bounded) : ∀ call, (sink.step call).Bounded
  | .push items => h.push items
  | .flush => bounded_flush h.batches

theorem Bounded.run : ∀ (calls : List (SinkCall α)) {sink : BufferedSink α},
    sink.Bounded → (sink.run calls).Bounded
  | [], _, h => h
  | call :: calls, _, h => Bounded.run calls (h.step call)

/-- After a last flush all that was given to the sink is written. -/
theorem written_run (calls : List (SinkCall α)) (sink : BufferedSink α) :
    (sink.run calls).flush.batches.flatten = sink.accepted ++ calls.flatMap SinkCall.items := by
  have hwritten : (sink.run calls).flush.accepted = (sink.run calls).flush.batches.flatten := by
    rw [accepted, buffer_flush, List.append_nil]
  rw [← hwritten, accepted_flush, accepted_run]

end BufferedSink
