import DiagnosticReport.Proofs.Settings.Identity
import DiagnosticReport.Proofs.Recorder.ReplayedLog
import DiagnosticReport.Proofs.Xml.Reports

/-!
# Documents that are read back

The document of a replay is written for readers of XML, and `Replay.read_as_xml` says what they find
in it. Of all characters, only those of the markup are escaped. So a character that XML does not
allow, in a name, a version or a text, makes a document that readers refuse, and the white space
that XML normalizes comes back as something else: a carriage return of a text as a line break, and
tabs and ends of lines in a name or a version as blanks (`Replay.not_read_unchanged`). Everything
else comes back as it was.
-/

namespace DiagnosticReport

namespace Xml

variable {g : Generator} {texts : List String} {report : String} {doc : Node}

theorem ReadsBack.unchanged_iff (h : ReadsBack g texts report)
    (hdoc : read? (Text.utf8 report) = some doc) :
    (doc.generators = [(some g.name, some g.version)] ↔
      ∀ s ∈ [g.name, g.version], ∀ c ∈ s.toList, c ≠ '\t' ∧ c ≠ '\n' ∧ c ≠ '\r') ∧
    (doc.findingTexts = texts ↔ ∀ text ∈ texts, '\r' ∉ text.toList) := by
  have hallowed : isText report = true := by
    by_contra hother
    rw [h.refused (Bool.eq_false_iff.2 hother)] at hdoc
    cases hdoc
  obtain ⟨doc', hdoc', hgenerators, htexts⟩ := h.read hallowed
  obtain rfl := Option.some.inj (hdoc.symm.trans hdoc')
  constructor
  · simp [hgenerators, attributeText_lineText_eq_iff]
  · rw [htexts]
    simpa [lineText_eq_self_iff] using List.map_inj_left (l := texts) (f := lineText) (g := id)

end Xml

namespace Replay

open Recorder

variable {g : Generator} {r : Recorder} {held : List UInt8} {events : List Event}

theorem forall₂_text {found : Results} {elements : List Markup.Element}
    (hfound : ∀ finding ∈ found, ∃ text, finding = .ofText text)
    (h : List.Forall₂ (fun finding element => finding.element? = some element) found elements) :
    List.Forall₂ (fun text element => (Entry.ofText text).element? = some element)
      (found.map Entry.text) elements := by
  induction h with
  | nil => exact .nil
  | cons he _ ih =>
    obtain ⟨⟨text, rfl⟩, hrest⟩ := List.forall_mem_cons.1 hfound
    rw [List.map_cons, Entry.text_ofText]
    exact .cons he (ih hrest)

theorem found_of_run {metadata : Metadata} {entries : Results} (h : r.Streams metadata held entries)
    {replay : Replay} (hrun : run r events = .ok replay) :
    replay.found = expected r.reported events := by
  rw [run_of_streams h events] at hrun
  obtain rfl := Except.ok.inj hrun
  rfl

/-- **A replay on a reliable output** has written nothing, if there were no findings, and otherwise
a report that is read back. -/
theorem exists_readsBack (hnamed : ¬ (g.name = "" ∧ g.version = ""))
    (h : r.Streams ⟨g⟩ held []) (hlogged : ∀ event ∈ events, event.Logged) :
    ∃ replay out sent, run r events = .ok replay ∧ replay.recorder.output? = some out ∧
      out.bytes = held ++ sent ∧ (sent = [] ↔ replay.found.filterMap id = []) ∧
      (sent ≠ [] → ∃ report, sent = Text.utf8 report ∧
        Xml.ReadsBack g ((replay.found.filterMap id).map Entry.text) report) := by
  obtain ⟨out, elements, written, hout, hforall, hbytes, hnil, hreport⟩ :=
    exists_document h hlogged
  rw [← filterMap_expected] at hforall
  have hnone : (expected r.reported events).filterMap id = [] ↔ elements = [] := by
    rw [← List.length_eq_zero_iff, hforall.length_eq, List.length_eq_zero_iff]
  refine ⟨_, out, written, run_of_streams h events, hout, hbytes, hnil.trans hnone.symm,
    fun hsome => ⟨_, hreport (hnil.not.1 hsome), ?_⟩⟩
  rw [Xml.reportOf_eq hnamed]
  refine Xml.readsBack_report g (forall₂_text ?_ hforall)
  intro finding hfinding
  rw [filterMap_expected] at hfinding
  obtain ⟨event, -, rfl⟩ := exists_event_of_mem_reviewed hfinding
  exact ⟨event.text, rfl⟩

theorem exists_report (hnamed : ¬ (g.name = "" ∧ g.version = "")) (h : r.Streams ⟨g⟩ held [])
    (hlogged : ∀ event ∈ events, event.Logged) {texts : List String} (hsome : texts ≠ [])
    (htexts : ((expected r.reported events).filterMap id).map Entry.text = texts) :
    ∃ replay out report, run r events = .ok replay ∧
      (replay.found.filterMap id).map Entry.text = texts ∧ replay.recorder.output? = some out ∧
      out.bytes = held ++ Text.utf8 report ∧ Text.utf8 report ≠ [] ∧
      Xml.ReadsBack g texts report := by
  obtain ⟨replay, out, sent, hrun, hout, hbytes, hnil, hreport⟩ :=
    exists_readsBack hnamed h hlogged
  rw [← found_of_run h hrun] at htexts
  have hsent : sent ≠ [] := fun hempty => by
    rw [hnil.1 hempty] at htexts
    exact hsome htexts.symm
  obtain ⟨report, rfl, hreads⟩ := hreport hsent
  exact ⟨replay, out, report, hrun, htexts, hout, hbytes, hsent, htexts ▸ hreads⟩

/-- **What a reader of XML finds in the document of a replay.** With usable settings, however the
program was called and whatever the log, a replay on an output that never fails comes to its end.
It has written nothing exactly if there were no findings. Otherwise it has written a report:

* All its characters are allowed in XML exactly if those of the name and the version of the tool
  and of the texts of the findings are; if not, it is refused.
* If it is read, it names one tool, with blanks for tabs and ends of lines in its name and its
  version, and the findings have their texts in order, with line breaks for other ends of lines.
* So the name and the version are unchanged exactly if they have no tab, line break or carriage
  return, and the texts exactly if they have no carriage return. -/
theorem read_as_xml {toml : String} {settings : Settings}
    (hsettings : Settings.ofText toml = .ok settings) (arguments : CommandLine.ReportRequest)
    (content source : String) {out : Output} (hreliable : out.Reliable) :
    let plan := CommandLine.reportPlan arguments settings
    ∃ replay out' sent, run (start plan.metadata plan.recorder (some out))
        (Transcript.events content source) = .ok replay ∧
      replay.recorder.output? = some out' ∧ out'.bytes = out.bytes ++ sent ∧
      (sent = [] ↔ replay.found.filterMap id = []) ∧
      (sent ≠ [] → ∃ report texts, sent = Text.utf8 report ∧
        texts = (replay.found.filterMap id).map Entry.text ∧
        Xml.ReadsBack settings.generator texts report ∧
        ∀ doc, Xml.read? sent = some doc →
          (doc.generators = [(some settings.generator.name, some settings.generator.version)] ↔
            ∀ s ∈ [settings.generator.name, settings.generator.version], ∀ c ∈ s.toList,
              c ≠ '\t' ∧ c ≠ '\n' ∧ c ≠ '\r') ∧
          (doc.findingTexts = texts ↔ ∀ text ∈ texts, '\r' ∉ text.toList)) := by
  intro plan
  have hnamed := (Settings.usable_of_ofText hsettings).named
  have hstart := Streams.start plan.metadata plan.recorder hreliable
  obtain ⟨replay, out', sent, hrun, hout, hbytes, hnil, hreport⟩ :=
    exists_readsBack hnamed hstart fun event (hevent : event ∈ Transcript.events content source) =>
      Transcript.logged_of_mem_events hevent
  refine ⟨replay, out', sent, hrun, hout, hbytes, hnil, fun hsome => ?_⟩
  obtain ⟨report, rfl, hreads⟩ := hreport hsome
  exact ⟨report, _, rfl, rfl, hreads, fun doc hdoc => hreads.unchanged_iff hdoc⟩

/-- A name and a text that look like markup, and a line that ends in two characters. -/
theorem read_as_xml_markup :
    Settings.ofText "[generator]\nname = \"<k>\"\nversion = \"1\"\n" =
      .ok { generator := ⟨"<k>", "1"⟩ } ∧
    Output.flawless.Reliable ∧
    ∃ replay out, run (start ⟨⟨"<k>", "1"⟩⟩ {} (some .flawless))
        (Transcript.events "NOTE: x < \"y\"\r\nNOTE: &amp;" "log") = .ok replay ∧
      replay.recorder.output? = some out ∧
      ∃ doc, Xml.read? out.bytes = some doc ∧ doc.generators = [(some "<k>", some "1")] ∧
        doc.findingTexts = ["x < \"y\"", "&amp;"] := by
  have hdecode : Settings.decode? "[generator]\nname = \"<k>\"\nversion = \"1\"\n" =
      some { generator := ⟨"<k>", "1"⟩ } := by decide +kernel
  have hsettings : Settings.ofText "[generator]\nname = \"<k>\"\nversion = \"1\"\n" =
      .ok { generator := ⟨"<k>", "1"⟩ } := by
    rw [Settings.ofText_of_decode? hdecode]
    decide +kernel
  obtain ⟨replay, out, sent, hrun, hout, hbytes, hnil, hreport⟩ :=
    read_as_xml hsettings ⟨"run.log", none, none, false⟩
      "NOTE: x < \"y\"\r\nNOTE: &amp;" "log" Output.reliable_flawless
  have htexts : (replay.found.filterMap id).map Entry.text = ["x < \"y\"", "&amp;"] := by
    rw [found_of_run (.start _ _ Output.reliable_flawless) hrun]
    decide +kernel
  have hsome : sent ≠ [] := fun hempty => by
    rw [hnil.1 hempty] at htexts
    cases htexts
  obtain ⟨report, texts, rfl, rfl, hreads, hunchanged⟩ := hreport hsome
  rw [htexts] at hreads hunchanged
  obtain ⟨doc, hdoc, -⟩ := hreads.read (hreads.allowed.2 (by decide))
  obtain ⟨hgenerators, hfindings⟩ := hunchanged doc hdoc
  have hwhole : out.bytes = Text.utf8 report := hbytes
  exact ⟨hsettings, Output.reliable_flawless, replay, out, hrun, hout, doc, hwhole ▸ hdoc,
    hgenerators.2 (by simp), hfindings.2 (by simp)⟩

/-- A name with a tab, and texts with a carriage return and with a character that XML does not
allow. -/
theorem not_read_unchanged :
    Settings.ofText "[generator]\nname = \"k\\tl\"\nversion = \"1\"\n" =
      .ok { generator := ⟨"k\tl", "1"⟩ } ∧
    Output.flawless.Reliable ∧
    (∃ replay out, run (start ⟨⟨"k\tl", "1"⟩⟩ {} (some .flawless))
        (Transcript.events "NOTE: a\rb" "log") = .ok replay ∧
      (replay.found.filterMap id).map Entry.text = ["a\rb"] ∧
      replay.recorder.output? = some out ∧
      ∃ doc, Xml.read? out.bytes = some doc ∧ doc.generators = [(some "k l", some "1")] ∧
        doc.findingTexts = ["a\nb"]) ∧
    ∃ replay out, run (start ⟨⟨"k\tl", "1"⟩⟩ {} (some .flawless))
        (Transcript.events "NOTE: a\x00b" "log") = .ok replay ∧
      (replay.found.filterMap id).map Entry.text = ["a\x00b"] ∧
      replay.recorder.output? = some out ∧ out.bytes ≠ [] ∧ Xml.read? out.bytes = none ∧
      ∃ report, out.bytes = Text.utf8 report ∧ Xml.isText report = false := by
  have hdecode : Settings.decode? "[generator]\nname = \"k\\tl\"\nversion = \"1\"\n" =
      some { generator := ⟨"k\tl", "1"⟩ } := by decide +kernel
  have hnamed : ¬ ("k\tl" = "" ∧ "1" = "") := by decide
  have hstart := Streams.start ⟨⟨"k\tl", "1"⟩⟩ {} Output.reliable_flawless
  refine ⟨by rw [Settings.ofText_of_decode? hdecode]; decide +kernel, Output.reliable_flawless,
    ?_, ?_⟩
  · have hfound : ((expected {} (Transcript.events "NOTE: a\rb" "log")).filterMap id).map
        Entry.text = ["a\rb"] := by decide +kernel
    obtain ⟨replay, out, report, hrun, htexts, hout, hbytes, -, hreads⟩ :=
      exists_report hnamed hstart (fun event => Transcript.logged_of_mem_events) (by decide) hfound
    have hwhole : out.bytes = Text.utf8 report := hbytes
    obtain ⟨doc, hdoc, hgenerators, hfindings⟩ := hreads.read (hreads.allowed.2 (by decide))
    exact ⟨replay, out, hrun, htexts, hout, doc, hwhole ▸ hdoc,
      hgenerators.trans (by decide +kernel), hfindings.trans (by decide)⟩
  · have hfound : ((expected {} (Transcript.events "NOTE: a\x00b" "log")).filterMap id).map
        Entry.text = ["a\x00b"] := by decide +kernel
    obtain ⟨replay, out, report, hrun, htexts, hout, hbytes, hsent, hreads⟩ :=
      exists_report hnamed hstart (fun event => Transcript.logged_of_mem_events) (by decide) hfound
    have hwhole : out.bytes = Text.utf8 report := hbytes
    have hchar : Xml.isText report = false :=
      Bool.eq_false_iff.2 fun hallowed => absurd (hreads.allowed.1 hallowed) (by decide)
    exact ⟨replay, out, hrun, htexts, hout, hwhole ▸ hsent, hwhole ▸ hreads.refused hchar, report,
      hwhole, hchar⟩

end Replay

end DiagnosticReport
