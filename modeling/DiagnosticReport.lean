import DiagnosticReport.Main
import DiagnosticReport.Proofs.CommandLine.Agreement
import DiagnosticReport.Proofs.Diagnostic.OneWinner
import DiagnosticReport.Proofs.Diagnostic.Rules
import DiagnosticReport.Proofs.Markup.BlankLines
import DiagnosticReport.Proofs.Markup.Escaping
import DiagnosticReport.Proofs.Recorder.Guards
import DiagnosticReport.Proofs.Recorder.HardFailures
import DiagnosticReport.Proofs.Recorder.ReadBack
import DiagnosticReport.Proofs.Recorder.Recomputed
import DiagnosticReport.Proofs.Recorder.Reordering
import DiagnosticReport.Proofs.Recorder.RepeatedLines
import DiagnosticReport.Proofs.Recorder.Retrying
import DiagnosticReport.Proofs.Recorder.StreamedReport
import DiagnosticReport.Proofs.Recorder.SuppressedRepeats
import DiagnosticReport.Proofs.Recorder.WarnOnce
import DiagnosticReport.Proofs.Report.BlankLines
import DiagnosticReport.Proofs.Report.JsonForm
import DiagnosticReport.Proofs.Report.Nesting
import DiagnosticReport.Proofs.Stream.Closing
import DiagnosticReport.Proofs.Transcript.LineByLine
import DiagnosticReport.Proofs.Transcript.RoundTrip
import DiagnosticReport.Report.Node
