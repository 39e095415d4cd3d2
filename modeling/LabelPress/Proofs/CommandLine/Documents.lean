import LabelPress.Proofs.CommandLine.Steps
import LabelPress.Proofs.Json.Sorted
import LabelPress.Proofs.Json.Values
import Mathlib

/-!
# One document for each command

Where results are documents, a command prints one document and nothing else, whatever it comes to. The document tells
what the command has made of what it was given, and the exit code (`answer_document`). Only the format of a label is
printed as it is.

No step prints but the last one. So a command that fails has printed nothing yet, and its failure is the document.
-/

namespace LabelPress.CommandLine

open Files Json Text

/-! ## Documents -/

def statusDocument (mode status file : String) : Value :=
  .object [("mode", .string mode), ("status", .string status), ("file", .string file)]

def markupDocument (s : List Char) (device : String) (dpi : UInt32) : Value :=
  .object [("success", .bool true), ("device", .string device), ("dpi", .uint32 dpi), ("markup", .text s)]

def failureDocument (code message : String) (more : List (String × Value)) : Value :=
  .object ([("success", .bool false), ("error", .string code), ("message", .string message)] ++ more)

/-- The document of a file that lacks its format, as it is read back. -/
def notFormatted (file : String) : Value :=
  .object [("file", .string file), ("mode", .string "check"), ("status", .string "not formatted")]

/-- What a command tells where it does not fail, and what it tells that of. -/
inductive Surroundings.Reports (w : Surroundings) : Command → Value → Prop where
  | tokens {file : String} {s : List Char} : w.Gives file s →
    Reports w (.tokens file) (.object [("tokens", .array ((Markup.tokenize {} s).map fun t =>
      .object [("name", .text t.name), ("params", .text t.params)]))])
  | estimate {file : String} {s : List Char} {e : Estimate.Extent} (a : Estimate.Assumptions) : w.Gives file s →
    e = Estimate.ofMarkup a s → Reports w (.estimate file a) (.object [
      ("estimate", .object [("structural", .uint32 e.structural), ("explicit", .optional .uint32 e.explicit),
        ("dots", .uint32 e.dots)]),
      ("config", .object [("default_font_height", .uint32 a.fontHeight), ("default_line_gap", .uint32 a.lineGap),
        ("default_barcode_height", .uint32 a.barcodeHeight)])])
  | rendered {file : String} {media : MediaChoice} {choice : ConfigChoice} {l : Surroundings.Finished}
    (layout : MarkupLayout) : w.finished file media choice = .ok l →
    Reports w (.render file media choice layout)
      (markupDocument (layout.apply l.markup) l.setup.device.name l.setup.surface.dpi)
  | checked {file : String} {s : List Char} (minified : Bool) : w.Gives file s →
    Reports w (.format file minified .check) (statusDocument "check"
      (if Surroundings.formatted minified s = s then "already formatted" else "not formatted") file)
  | written {file : String} {s : List Char} (minified : Bool) : w.Gives file s →
    Reports w (.format file minified .write) (statusDocument "write"
      (if Surroundings.formatted minified s = s then "already formatted" else "formatted") file)
  | templates {path : String} {a : Label.Archive} : Label.Archive.load w.files path = .ok a →
    Reports w (.listTemplates path) (.object [("archive", .string path), ("templates", .array (a.names.map .string))])
  | expanded {path name : String} {context : Label.Context} {raw : Bool} {media : MediaChoice} {choice : ConfigChoice}
    {s : List Char} {setup : Media.Setup} : w.rendered path name context raw media choice = .ok (s, setup) →
    Reports w (.renderTemplate path name context raw media choice)
      (markupDocument s setup.device.name setup.surface.dpi)
  | added {path name body : String} {a : Label.Archive} {s : List Char} : Label.Archive.load w.files path = .ok a →
    w.Gives body s → Reports w (.addTemplate path name body)
      (statusDocument "add" (if (a.get? name).isSome then "replaced" else "added") name)
  | removed {path name : String} {a : Label.Archive} : Label.Archive.load w.files path = .ok a →
    (a.get? name).isSome → Reports w (.removeTemplate path name) (statusDocument "remove" "removed" name)
  | shown {file : String} {media : MediaChoice} {choice : ConfigChoice} {l : Surroundings.Finished} :
    w.finished file media choice = .ok l → Reports w (.print file .dryRun media choice) (.object
      [("success", .bool true), ("destination", .string "dry-run"), ("bytes", .int (byteLength l.markup)),
        ("output", .text (l.markup ++ ['\n']))])
  | stored {file path : String} {media : MediaChoice} {choice : ConfigChoice} {l : Surroundings.Finished} :
    w.finished file media choice = .ok l → Reports w (.print file (.file path) media choice) (.object
      [("success", .bool true), ("destination", .string path), ("bytes", .int (byteLength l.markup))])
  | printed {file address : String} {settings : Delivery.Settings} {media : MediaChoice} {choice : ConfigChoice}
    {l : Surroundings.Finished} : w.finished file media choice = .ok l →
    Reports w (.print file (.printer address settings) media choice) (.object
      [("success", .bool true), ("destination", .string address), ("bytes", .int (byteLength l.markup))])
  | previewed {file picture : String} {drawer : Drawer} {timeout : Time.Duration} {media : MediaChoice}
    {choice : ConfigChoice} {png : List UInt8} {setup : Media.Setup} {config : Finish.Config} :
    w.drawn file drawer timeout media choice = .ok (png, setup, config) →
    Reports w (.preview file picture drawer timeout media choice) (.object
      [("success", .bool true), ("out", .string picture), ("bytes", .int png.length)])

/-- What is told of a failure. The message is that of the whole failure, or that of the label that could not be
finished. -/
def Failure.Told (wording : Wording) (f : Failure) (v : Value) : Prop :=
  ∃ code message more, v = failureDocument code message more ∧
    (message = f.message wording ∨ ∃ e, f.finish? = some e ∧ message = e.message wording)

variable {w : Surroundings} {c : Command} {r : Report} {f : Failure} {v : Value} {file : String}

theorem told_value (wording : Wording) (f : Failure) : f.Told wording (f.value wording) := by
  unfold Failure.value
  split
  · exact ⟨_, _, _, rfl, .inl rfl⟩
  · next h => exact ⟨_, _, _, rfl, .inr ⟨_, h, rfl⟩⟩
  · next h => exact ⟨_, _, _, rfl, .inr ⟨_, h, rfl⟩⟩
  · exact ⟨_, _, _, rfl, .inl rfl⟩

theorem success_failure (wording : Wording) (f : Failure) :
    (f.value wording).sorted.member? "success" = some (.bool false) := by
  obtain ⟨code, message, more, hv, -⟩ := told_value wording f
  rw [member?_sorted, hv, failureDocument, List.cons_append, Value.member?, NameMap.find?_cons, if_pos rfl]
  rfl

theorem success_report (h : w.Reports c v) : v.sorted.member? "success" ≠ some (.bool false) := by
  rw [member?_sorted]
  cases h <;> simp [statusDocument, markupDocument, Value.member?, NameMap.find?, Value.sorted]

theorem distinct_failure (wording : Wording) (f : Failure) : (f.value wording).Distinct := by
  unfold Failure.value
  split <;> simp [Value.Distinct, MembersDistinct, Value.uint32, Value.int]

theorem distinct_optional (n : Option UInt32) : (Value.optional .uint32 n).Distinct := by
  cases n <;> simp [Value.optional, Value.uint32, Value.int, Value.Distinct]

theorem distinct_report (h : w.Reports c v) : v.Distinct := by
  have htokens : ∀ ts : List Markup.Token, ItemsDistinct (ts.map fun t =>
      .object [("name", .string (String.ofList t.name)), ("params", .string (String.ofList t.params))]) :=
    itemsDistinct_map fun t => by simp [Value.Distinct, MembersDistinct]
  have hnames : ∀ names : List String, ItemsDistinct (names.map .string) :=
    itemsDistinct_map fun name => by simp [Value.Distinct]
  cases h <;>
    simp [statusDocument, markupDocument, Value.Distinct, MembersDistinct, Value.uint32, Value.int, Value.text,
      htokens, hnames]
  exact distinct_optional _

theorem sorted_statusDocument (mode status file : String) : (statusDocument mode status file).sorted =
    .object [("file", .string file), ("mode", .string mode), ("status", .string status)] := by
  have hstatus : ¬ "status" < "file" := by decide
  have hfile : ¬ "mode" < "file" := by decide
  have hmode : "mode" < "status" := by decide
  simp [statusDocument, Value.sorted, sortedMembers, NameMap.insert, NameMap.put, NameMap.empty, hstatus, hfile, hmode]

theorem decode_document (v : Value) : decode anyValue (v.sorted.pretty ++ ['\n']) = .ok v.sorted := by
  have hstops : Stops ['\n'] := stops_cons (by decide) []
  rw [Value.pretty, decode_render_append anyValue v.sorted _ hstops rfl, anyValue_node]

theorem streams_document {a : Answer} (h : a.prints = [.document v]) :
    a.streams = { output := v.sorted.pretty ++ ['\n'] } := by
  unfold Answer.streams
  simp [h, Print.streams, line]

/-! ## Silent steps -/

namespace Step

variable {α ε : Type}

/-- A step that prints nothing and goes on unless it fails. -/
def Silent (x : Step α) : Prop :=
  ∀ p, (x.result p).2.prints = p.prints ∧ ∀ code, (x.result p).1 ≠ .error (.exited code)

theorem silent_pure (a : α) : Silent (pure a) := by
  intro p
  simp

theorem silent_change (r : Store × Except ε Unit) (failure : ε → Failure) : Silent (change r failure) := by
  intro p
  obtain ⟨files, _ | _⟩ := r <;> simp

theorem silent_overwrite (w : Surroundings) (file : String) (s : List Char) : Silent (w.overwrite file s) := by
  intro p
  unfold Surroundings.overwrite
  cases (w.files.write file (utf8 s)).mapError (Failure.unwritable file) <;> simp

end Step

/-! ## Printing once -/

theorem value_written (file : String) (already : Bool) : (Report.status (.written already) file).value? =
    some (statusDocument "write" (if already then "already formatted" else "formatted") file) := by
  cases already <;> rfl

theorem value_added (name : String) (replaced : Bool) : (Report.status (.added replaced) name).value? =
    some (statusDocument "add" (if replaced then "replaced" else "added") name) := by
  cases replaced <;> rfl

theorem stored_of_deliver {native : Option UInt32} {strict : Bool} {s : List Char} {dpi : UInt32}
    (h : (Delivery.Writer.deliver {} native strict (.markup s dpi)).2 = .ok ()) :
    ofUtf8Lossy (Delivery.Writer.deliver {} native strict (.markup s dpi)).1.stored = s ++ ['\n'] := by
  unfold Delivery.Writer.deliver at h ⊢
  split at h
  · cases h
  · exact ofUtf8Lossy_utf8 _

namespace Surroundings

open Step

/-- How a command ends that has found this printed: with one document of its own, or by a failure with nothing more.
With an exit it ends where a file lacks its format, and only there. -/
inductive Ends (w : Surroundings) (c : Command) (before : List Print) : Except Stop Unit → List Print → Prop where
  | done {v : Value} : w.Reports c v →
    (∀ file minified, c = .format file minified .check → v = statusDocument "check" "already formatted" file) →
    Ends w c before (.ok ()) (before ++ [.document v])
  | failed (f : Failure) : Ends w c before (.error (.failed f)) before
  | exited {file : String} {minified : Bool} : c = .format file minified .check →
    w.Reports c (statusDocument "check" "not formatted" file) →
    Ends w c before (.error (.exited 1)) (before ++ [.document (statusDocument "check" "not formatted" file)])

def Once (w : Surroundings) (c : Command) (x : Step Unit) : Prop :=
  ∀ p, w.Ends c p.prints (x.result p).1 (x.result p).2.prints

theorem once_attempt {α : Type} {r : Except Failure α} {k : α → Step Unit} (hk : ∀ a, r = .ok a → w.Once c (k a)) :
    w.Once c (attempt r >>= k) := by
  intro p
  cases r with
  | error f => simpa using Ends.failed f
  | ok a => simpa using hk a rfl p

theorem once_bind {α : Type} {x : Step α} {k : α → Step Unit} (hx : x.Silent) (hk : ∀ a, w.Once c (k a)) :
    w.Once c (x >>= k) := by
  intro p
  obtain ⟨hprints, hexit⟩ := hx p
  rw [Step.result_bind]
  revert hprints hexit
  obtain ⟨_ | a, q⟩ := x.result p
  · next stop =>
    intro hprints hexit
    cases stop with
    | failed f =>
      rw [← hprints]
      exact .failed f
    | exited code => exact absurd rfl (hexit code)
  · intro hprints _
    rw [← hprints]
    exact hk a q

theorem once_report (hv : r.value? = some v) (hc : w.Reports c v)
    (h : ∀ file minified, c ≠ .format file minified .check) : w.Once c (emit (OutputMode.json.report r)) := by
  intro p
  have hprints : OutputMode.json.report r = [.document v] := by
    unfold OutputMode.report
    rw [hv]
  rw [hprints]
  exact .done hc fun file minified heq => absurd heq (h file minified)

theorem once_checked {s : List Char} (hs : w.Gives file s) (minified : Bool) :
    w.Once (.format file minified .check) (do
      emit (OutputMode.json.report (.status (.checked (formatted minified s = s)) file))
      if formatted minified s = s then pure () else exit 1) := by
  intro p
  have hreport := Reports.checked minified hs
  by_cases hsame : formatted minified s = s
  · rw [if_pos hsame] at hreport
    simp only [hsame, decide_true, if_true]
    refine .done hreport ?_
    rintro file minified ⟨⟩
    rfl
  · rw [if_neg hsame] at hreport
    simp only [hsame, decide_false, if_false]
    exact .exited rfl hreport

theorem once_format (w : Surroundings) (file : String) (minified : Bool) {task : FormatTask} (htask : task ≠ .output) :
    w.Once (.format file minified task) (w.format .json file minified task) := by
  unfold format
  refine once_attempt fun _ _ => once_attempt fun s hread => ?_
  have hs := readInput_eq_ok_iff.mp hread
  cases task with
  | output => exact absurd rfl htask
  | check => exact once_checked hs minified
  | write =>
    have hreport := Reports.written minified hs
    refine once_bind ?_ fun _ => once_report (value_written ..) (by simpa using hreport) (by simp)
    split_ifs
    · exact silent_pure ()
    · exact silent_overwrite w file _

theorem once_print (w : Surroundings) (file : String) (destination : Destination) (media : MediaChoice)
    (choice : ConfigChoice) :
    w.Once (.print file destination media choice) (w.print .json file destination media choice) := by
  unfold Surroundings.print
  refine once_attempt fun l hl => ?_
  cases destination with
  | dryRun =>
    refine once_attempt fun _ hdone => ?_
    have houtput := stored_of_deliver (mapError_eq_ok_iff.mp hdone)
    have hvalue := congrArg (fun s => (Report.shown (byteLength l.markup) s).value?) houtput
    exact once_report hvalue (.shown hl) (by simp)
  | file path => exact once_bind (silent_change _ _) fun _ => once_report rfl (.stored hl) (by simp)
  | printer address settings => exact once_attempt fun _ _ => once_report rfl (.printed hl) (by simp)

theorem once_addTemplate (w : Surroundings) (path name body : String) :
    w.Once (.addTemplate path name body) (w.addTemplate .json path name body) := by
  unfold addTemplate saveArchive
  refine once_attempt fun a ha => once_attempt fun s hs => once_bind (silent_change _ _) fun _ => ?_
  exact once_report (value_added ..) (.added (archive_eq_ok_iff.mp ha) (readInput_eq_ok_iff.mp hs)) (by simp)

theorem once_removeTemplate (w : Surroundings) (path name : String) :
    w.Once (.removeTemplate path name) (w.removeTemplate .json path name) := by
  unfold removeTemplate saveArchive
  refine once_attempt fun a ha => once_attempt fun _ hthere => once_bind (silent_change _ _) fun _ => ?_
  have hname : (a.get? name).isSome := by
    by_contra hnone
    simp [hnone] at hthere
  exact once_report rfl (.removed (archive_eq_ok_iff.mp ha) hname) (by simp)

theorem once_run (w : Surroundings) (h : ∀ file minified, c ≠ .format file minified .output) :
    w.Once c (w.run .json c) := by
  cases c with
  | tokens file =>
    exact once_attempt fun _ hs => once_report rfl (.tokens (readInput_eq_ok_iff.mp hs)) (by simp)
  | estimate file a =>
    exact once_attempt fun _ hs => once_report rfl (.estimate a (readInput_eq_ok_iff.mp hs) rfl) (by simp)
  | render file media choice layout =>
    exact once_attempt fun _ hl => once_report rfl (.rendered layout hl) (by simp)
  | format file minified task =>
    refine once_format w file minified ?_
    rintro rfl
    exact h file minified rfl
  | listTemplates path =>
    exact once_attempt fun _ ha => once_report rfl (.templates (archive_eq_ok_iff.mp ha)) (by simp)
  | renderTemplate path name context raw media choice =>
    exact once_attempt fun _ hs => once_report rfl (.expanded hs) (by simp)
  | addTemplate path name body => exact once_addTemplate w path name body
  | removeTemplate path name => exact once_removeTemplate w path name
  | print file destination media choice => exact once_print w file destination media choice
  | preview file picture drawer timeout media choice =>
    refine once_attempt fun _ hpng => ?_
    exact once_bind (silent_change _ _) fun _ => once_report rfl (.previewed hpng) (by simp)

end Surroundings

/-! ## Answers -/

/-- What a command has to tell: its failure, or a report of its own kind. -/
def Surroundings.Tells (w : Surroundings) (c : Command) (v : Value) : Prop :=
  match (w.run .json c).result { files := w.files } with
  | (.error (.failed f), _) => f.Told w.wording v
  | _ => w.Reports c v

/-- A command prints what it has to tell once, and its exit code says the same. -/
theorem perform_cases (w : Surroundings) (h : ∀ file minified, c ≠ .format file minified .output) :
    ∃ v code files, w.perform .json c = ⟨code, [.document v], files⟩ ∧ w.Tells c v ∧ v.Distinct ∧
      (code = 0 ∨ code = 1) ∧ (code = 1 ↔ v.sorted.member? "success" = some (.bool false) ∨
        ∃ file minified, c = .format file minified .check ∧ v.sorted = notFormatted file) := by
  have hends := Surroundings.once_run w h { files := w.files }
  unfold Surroundings.Tells
  cases hresult : (w.run .json c).result { files := w.files } with
  | mk stop p =>
    obtain ⟨left, prints⟩ := p
    rw [hresult] at hends
    simp only at hends
    cases hends with
    | @done v hc hchecked =>
      refine ⟨v, 0, left, Surroundings.conclude_of_done hresult, hc, distinct_report hc, .inl rfl, ?_⟩
      rw [or_iff_right (success_report hc)]
      refine iff_of_false Nat.zero_ne_one ?_
      rintro ⟨file, minified, heq, hsorted⟩
      rw [hchecked file minified heq, sorted_statusDocument, notFormatted] at hsorted
      exact absurd hsorted (by simp)
    | failed f =>
      refine ⟨_, 1, left, Surroundings.conclude_of_failed hresult, told_value _ f, distinct_failure _ f, .inr rfl, ?_⟩
      exact iff_of_true rfl (.inl (success_failure _ f))
    | @exited file minified heq hc =>
      refine ⟨_, 1, left, Surroundings.conclude_of_exited hresult, hc, distinct_report hc, .inr rfl, ?_⟩
      exact iff_of_true rfl (.inr ⟨file, minified, heq, sorted_statusDocument ..⟩)

/-- Where results are documents, a command line that makes sense is answered by printing one document, with what the
command has made of what it was given or with its failure. It is read back as it was, up to the order of members. The
exit code is 1 for a document without success, and for a file that is checked and lacks its format. -/
theorem answer_document (w : Surroundings) {usual : OutputMode} {words : List String} {i : Invocation}
    (hwords : invocation words = .ok i) (hmode : i.mode.getD usual = .json)
    (hformat : ∀ file minified, i.command ≠ .format file minified .output) :
    let a := answer w usual words
    ∃ v u : Value, w.Tells i.command v ∧ a.prints = [.document v] ∧ v.Reordered u ∧
      a.streams = { output := u.pretty ++ ['\n'] } ∧ decode anyValue a.streams.output = .ok u ∧
      (a.exitCode = 0 ∨ a.exitCode = 1) ∧
      (a.exitCode = 1 ↔ u.member? "success" = some (.bool false) ∨
        ∃ file minified, i.command = .format file minified .check ∧ u = notFormatted file) := by
  intro a
  obtain ⟨v, code, files, hperform, htells, hdistinct, hcodes, hone⟩ := perform_cases w hformat
  have ha : a = ⟨code, [.document v], files⟩ := by
    simp only [a, answer, hwords, hmode, hperform]
  have hstreams : a.streams = { output := v.sorted.pretty ++ ['\n'] } := streams_document (by rw [ha])
  refine ⟨v, v.sorted, htells, by rw [ha], reordered_sorted v hdistinct, hstreams, ?_, ?_⟩
  · rw [hstreams]
    exact decode_document v
  · rw [ha]
    exact ⟨hcodes, hone⟩

/-- A file without commands is checked. Its format would be an empty line. -/
theorem answer_document_checked :
    let w : Surroundings := { files := Store.empty.put ⟨["ä"]⟩ (.file (utf8 "XA".toList)) }
    let a := answer w .pretty ["format", "ä", "--check", "--output", "json"]
    a.prints = [.document (statusDocument "check" "not formatted" "ä")] ∧
      decode anyValue a.streams.output = .ok (notFormatted "ä") ∧ a.exitCode = 1 := by
  intro w a
  have hwords : invocation ["format", "ä", "--check", "--output", "json"] =
      .ok ⟨.format "ä" false .check, some .json⟩ :=
    rfl
  have hmode : (some OutputMode.json).getD OutputMode.pretty = .json := rfl
  have hformatted : Surroundings.formatted false "XA".toList = "\n".toList := by cbv
  have hfile : w.readInput "ä" = .ok "XA".toList := by cbv
  have hprints : a.prints = [.document (statusDocument "check" "not formatted" "ä")] := by
    have hperform : a = w.perform .json (.format "ä" false .check) := by
      simp only [a, answer, hwords, hmode]
    rw [hperform, Surroundings.perform_check hfile, hformatted]
    rfl
  obtain ⟨_, u, -, -, -, -, hread, -, hone⟩ := answer_document w hwords hmode (by simp)
  have hu : u = notFormatted "ä" := by
    rw [streams_document hprints, decode_document, sorted_statusDocument] at hread
    exact (Except.ok.inj hread).symm
  rw [hu] at hread
  exact ⟨hprints, hread, hone.mpr (.inr ⟨"ä", false, rfl, hu⟩)⟩

end LabelPress.CommandLine
