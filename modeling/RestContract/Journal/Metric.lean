-- Metrics of a build: counters with labels and one histogram of durations. A
-- measurement is one increment of a counter, or one sample of the histogram.
namespace RestContract

/-- One measurement. -/
inductive Measurement where
  /-- A method was attached to a resource. -/
  | methodAttached (method integration : String)
  /-- A model was generated. -/
  | modelGenerated
  /-- A preflight was registered. -/
  | preflightRegistered
  /-- A build ended in an error of a kind. -/
  | buildFailed (kind : String)
  /-- A build ended well and its duration was taken. -/
  | buildTimed
  deriving DecidableEq, Repr

namespace Measurement

/-- The name of the metric that a measurement adds to. -/
def metric : Measurement → String
  | methodAttached .. => "portico_methods_attached_total"
  | modelGenerated => "portico_models_total"
  | preflightRegistered => "portico_preflights_total"
  | buildFailed _ => "portico_assembly_failures_total"
  | buildTimed => "portico_assembly_duration_seconds"

/-- The labels of a measurement, in the order of their names. -/
def labels : Measurement → List (String × String)
  | methodAttached method integration => [("integration", integration), ("method", method)]
  | buildFailed kind => [("kind", kind)]
  | _ => []

/-- The metric with its labels as text. -/
def series (m : Measurement) : String :=
  m.metric ++ "\x7b" ++ String.intercalate "," (m.labels.map fun (n, v) => n ++ "=" ++ v) ++ "\x7d"

/-- How many of the measurements fall on each series, in the order of their first. -/
def totals (ms : List Measurement) : List (String × Nat) :=
  (ms.map series).eraseDups.map fun s => (s, (ms.map series).count s)

end Measurement

/-- What is said about a metric where it is collected. -/
structure MetricDescription where
  name : String
  kind : String
  unit : Option String
  text : String

def metricDescriptions : List MetricDescription := [
  ⟨"portico_methods_attached_total", "counter", none, "Methods attached to the resource tree"⟩,
  ⟨"portico_models_total", "counter", none, "Request and response models generated"⟩,
  ⟨"portico_preflights_total", "counter", none, "CORS preflight methods registered"⟩,
  ⟨"portico_assembly_failures_total", "counter", none, "Builds aborted by a fatal error"⟩,
  ⟨"portico_assembly_duration_seconds", "histogram", some "seconds",
    "Time spent assembling an API"⟩]

end RestContract
