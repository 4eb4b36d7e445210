import DiagnosticReport.Recorder

/-!
# Replays

A run that has been recorded as a list of events is replayed by recording them one after the
other. The first failure of the output ends the replay.
-/

namespace DiagnosticReport

/-- What a replay leaves behind. -/
structure Replay where
  /-- The finding of each event that led to one, in the order of the events. -/
  found : List (Option Entry)
  /-- The recorder at the end, closed. -/
  recorder : Recorder

namespace Replay

/-- Records events one after the other: what each led to, and the recorder afterwards. -/
def recordAll (r : Recorder) : List Event → Except ReportError (List (Option Entry)) × Recorder
  | [] => (.ok [], r)
  | event :: events =>
    let step := r.record event
    match step.result with
    | .error error => (.error error, step.next)
    | .ok finding =>
      let (rest, r) := recordAll step.next events
      (rest.map (finding :: ·), r)

/-- Replays events with a recorder and closes it. -/
def run (r : Recorder) (events : List Event) : Except ReportError Replay :=
  match recordAll r events with
  | (.error error, _) => .error error
  | (.ok found, r) =>
    let closing := r.close
    closing.result.map fun _ => { found, recorder := closing.next }

/-- The final report. -/
def analysis (replay : Replay) : Analysis :=
  replay.recorder.analysis

/-- How many events led to findings. -/
def findings (replay : Replay) : Nat :=
  replay.found.countP Option.isSome

/-- How many events there were. -/
def events (replay : Replay) : Nat :=
  replay.found.length

/-- How many repeats were passed over. -/
def repeats (replay : Replay) : Nat :=
  replay.recorder.repeats

/-- The document that was streamed; there are no bytes without one. -/
def document (replay : Replay) : ByteArray :=
  match replay.recorder.output? with
  | some output => output.accepted
  | none => ByteArray.empty

end Replay

end DiagnosticReport
