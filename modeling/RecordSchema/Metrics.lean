import RecordSchema.Number.Notation
import RecordSchema.Text.Keyed

/-!
# Session metrics

Counts of sessions, entities and outputs by label, the number of documents of the last session, and
a histogram of durations. They are written in the text exposition format: one family after another
in the order of their names, each with a line of help and a line with its type.
-/

namespace RecordSchema

open Text

/-- Counts by label. -/
abbrev Counter := Keyed Nat

namespace Counter

def count (c : Counter) (label : Text) : Nat := (c.lookup label).getD 0

def add (c : Counter) (label : Text) (n : Nat) : Counter := Keyed.set label (c.count label + n) c

/-- The sum over all labels. -/
def total (c : Counter) : Nat := c.foldl (fun n e => n + e.2) 0

end Counter

/-- Observed numbers: how many were at most each bound, their sum and how many there were. -/
structure Histogram where
  /-- Bounds in order, with the number of observations up to each. -/
  buckets : List (Double × Nat)
  sum : Double := ⟨0⟩
  count : Nat := 0
  deriving DecidableEq, Repr

namespace Histogram

def empty (bounds : List Double) : Histogram := { buckets := bounds.map fun b => (b, 0) }

def observe (h : Histogram) (x : Double) : Histogram :=
  { buckets := h.buckets.map fun b => if b.1.lt x then b else (b.1, b.2 + 1)
    sum := h.sum.add x
    count := h.count + 1 }

end Histogram

/-- What sessions are measured by. -/
structure Metrics where
  /-- Finished sessions by outcome. -/
  sessions : Counter := []
  /-- Resolved entities by kind. -/
  entities : Counter := []
  /-- Output files by result. -/
  outputs : Counter := []
  /-- Documents of the last session. -/
  documents : Int := 0
  /-- Durations in seconds. -/
  durations : Histogram :=
    .empty ([1, 5, 10, 25, 50, 100, 250, 500, 1000, 2500].map fun n => Double.ofRatio n 1000)
  deriving DecidableEq, Repr

namespace Metrics

/-- A duration in nanoseconds as seconds: whole seconds and the rest are rounded one by one. -/
def seconds (nanos : Int) : Double :=
  (Double.ofInt (nanos.tdiv 1000000000)).add
    (Double.ofSignedRatio (nanos.tmod 1000000000) 1000000000)

/-- Counts a finished session. -/
def session (m : Metrics) (outcome : Text) (nanos : Int) : Metrics :=
  { m with
    sessions := m.sessions.add outcome 1
    durations := m.durations.observe (seconds nanos) }

/-- Counts entities of a kind. A count is kept as the nearest double. -/
def addEntities (m : Metrics) (kind : Text) (n : Int) : Metrics :=
  if n ≤ 0 then m
  else { m with entities := m.entities.add kind (Double.ofInt n).truncate.natAbs }

def setDocuments (m : Metrics) (n : Int) : Metrics := { m with documents := n }

def writtenLabel : Text := "written"

def unchangedLabel : Text := "unchanged"

/-- Counts an output file. -/
def addOutput (m : Metrics) (written : Bool) : Metrics :=
  { m with outputs := m.outputs.add (if written then writtenLabel else unchangedLabel) 1 }

/-! ## Exposition -/

def number (d : Double) : Text := d.render Double.general

/-- Counts are words of 64 bits. -/
def countText (n : Nat) : Text := number (Double.ofRatio (n % Nat.pow 2 64) 1)

def escape (t : Text) : Text :=
  t.flatMap fun b =>
    if b = 92 then [92, 92] else if b = 34 then [92, 34] else if b = 10 then [92, 110] else [b]

/-- The lines in front of a family. -/
def header (name help type : Text) : Text :=
  "# HELP " ++ name ++ " " ++ help ++ "\n# TYPE " ++ name ++ " " ++ type ++ "\n"

def sample (name : Text) (value : Text) : Text := name ++ " " ++ value ++ "\n"

def labelled (name label labelValue : Text) : Text :=
  name ++ "\x7b" ++ label ++ "=\"" ++ escape labelValue ++ "\"\x7d"

/-- A family of counts, left out when there are none. -/
def counterFamily (name help label : Text) (c : Counter) : Text :=
  if c.isEmpty then []
  else
    let sorted := c.mergeSort fun a b => le a.1 b.1
    header name help "counter" ++
      sorted.flatMap fun e => sample (labelled name label e.1) (countText e.2)

def histogramFamily (name help : Text) (h : Histogram) : Text :=
  let bucket (bound : Text) (n : Nat) : Text :=
    sample (labelled (name ++ "_bucket") "le" bound) (countText n)
  header name help "histogram" ++ (h.buckets.flatMap fun b => bucket (number b.1) b.2) ++
    bucket "+Inf" h.count ++ sample (name ++ "_sum") (number h.sum) ++
    sample (name ++ "_count") (countText h.count)

/-- The metrics in the text exposition format. -/
def expose (m : Metrics) : Text :=
  header "judegen_documents_loaded" "Number of documents loaded by the last session" "gauge" ++
    sample "judegen_documents_loaded" (number (Double.ofInt m.documents)) ++
    counterFamily "judegen_entities_total" "Total number of resolved entities by kind" "kind"
      m.entities ++
    counterFamily "judegen_outputs_total" "Total number of output files by result" "result"
      m.outputs ++
    histogramFamily "judegen_session_duration_seconds" "Compile session duration in seconds"
      m.durations ++
    counterFamily "judegen_sessions_total" "Total number of compile sessions by outcome" "outcome"
      m.sessions

end Metrics

end RecordSchema
