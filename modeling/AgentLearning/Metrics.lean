import Mathlib.Algebra.Order.Field.Rat
import Mathlib.Data.List.Sort
import Mathlib.Data.Prod.Lex
import Mathlib.Data.String.Basic
import AgentLearning.Lib.Dict

/-!
# The metrics exporter

`src/observability/exporters/in_memory_metrics.py`: counters, gauges and histograms, each in a
dictionary under the text of its name and labels. Values are rationals.
-/

namespace AgentLearning

/-- `",".join(f"{k}={v}" for k, v in sorted(labels.items()))`. -/
def labelText (labels : Dict String String) : String :=
  String.intercalate ","
    ((labels.entries.insertionSort fun a b => toLex a ≤ toLex b).map fun e => e.1 ++ "=" ++ e.2)

def labelKey (name : String) (labels : Option (Dict String String)) : String :=
  match labels with
  | none => name
  | some labels =>
    if labels.entries.isEmpty then name
    else name ++ "\x7b" ++ labelText labels ++ "\x7d"

structure MetricsSnapshot where
  counters : Dict String ℚ
  gauges : Dict String ℚ
  histograms : Dict String (List ℚ)

structure InMemoryMetricsExporter where
  counters : Dict String ℚ := ∅
  gauges : Dict String ℚ := ∅
  histograms : Dict String (List ℚ) := ∅

namespace InMemoryMetricsExporter

variable (exporter : InMemoryMetricsExporter) (name : String)

def counter (value : ℚ := 1) (labels : Option (Dict String String) := none) :
    InMemoryMetricsExporter :=
  let key := labelKey name labels
  { exporter with
    counters := exporter.counters.set key ((exporter.counters.get? key).getD 0 + value) }

def gauge (value : ℚ) (labels : Option (Dict String String) := none) : InMemoryMetricsExporter :=
  let key := labelKey name labels
  { exporter with gauges := exporter.gauges.set key value }

def histogram (value : ℚ) (labels : Option (Dict String String) := none) :
    InMemoryMetricsExporter :=
  let key := labelKey name labels
  { exporter with
    histograms := exporter.histograms.set key ((exporter.histograms.get? key).getD [] ++ [value]) }

def snapshot : MetricsSnapshot where
  counters := exporter.counters
  gauges := exporter.gauges
  histograms := exporter.histograms

end InMemoryMetricsExporter

/-! ## Calls -/

inductive MetricKind
  | counter
  | gauge
  | histogram
  deriving DecidableEq, Repr

structure MetricCall where
  kind : MetricKind
  name : String
  value : ℚ
  labels : Option (Dict String String) := none

namespace MetricCall

variable (call : MetricCall)

def exec (exporter : InMemoryMetricsExporter) : InMemoryMetricsExporter :=
  match call.kind with
  | .counter => exporter.counter call.name call.value call.labels
  | .gauge => exporter.gauge call.name call.value call.labels
  | .histogram => exporter.histogram call.name call.value call.labels

/-- The exporter after these calls on a new one. -/
def execAll (calls : List MetricCall) : InMemoryMetricsExporter :=
  calls.foldl (fun exporter call => call.exec exporter) {}

end MetricCall

end AgentLearning
