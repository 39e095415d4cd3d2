import LabelPress.Proofs.CommandLine.Documents
import LabelPress.Proofs.Label.Stored
import Mathlib

/-!
# Archives across commands

Templates are added and removed by commands that each load the archive and save it again. However they end, the
file holds what the commands that went well have made of it (`edited_holds`).
-/

namespace LabelPress.CommandLine

open Files Json Label Text
open Surroundings (readInput_eq_ok_iff archive_eq_ok_iff)

abbrev Templates := String → Option (List Char)

/-- The file holds an archive of this version with these templates. -/
def Holds (files : Store) (path : String) (version : UInt32) (m : Templates) : Prop :=
  ∃ a, Archive.load files path = .ok a ∧ a.version = version ∧ a.get? = m

/-- Some content cannot take the place of that of the file. -/
def Fixed (files : Store) (path : String) : Prop :=
  ∃ bytes f, (files.replace (path ++ ".tmp") path bytes).2 = .error f

inductive Edit where
  | add (name body : String)
  | remove (name : String)
  deriving DecidableEq

def Edit.command (path : String) : Edit → Command
  | add name body => .addTemplate path name body
  | remove name => .removeTemplate path name

def Edit.name : Edit → String
  | add name _ | remove name => name

def Edit.verb : Edit → String
  | add .. => "add"
  | remove _ => "remove"

/-- What an edit of these templates has done when it went well. -/
def Edit.deed (m : Templates) : Edit → String
  | add name _ => if (m name).isSome then "replaced" else "added"
  | remove _ => "removed"

/-- What an edit makes of templates, if it can. -/
inductive Edit.Makes (w : Surroundings) (m : Templates) : Edit → Templates → Prop where
  | add {name body : String} {s : List Char} : w.Gives body s → Makes w m (.add name body) (Function.update m name s)
  | remove {name : String} : (m name).isSome → Makes w m (.remove name) (Function.update m name none)

/-- A command line that edits the archive at a path, and what it is answered in. -/
structure Call (path : String) where
  surroundings : Surroundings
  usual : OutputMode
  words : List String
  edit : Edit
  mode : Option OutputMode
  asks : invocation words = .ok ⟨edit.command path, mode⟩

variable {path name : String} {files left : Store} {version : UInt32} {m n : Templates} {w : Surroundings} {e : Edit}
  {mode : OutputMode}

namespace Call

def answer (c : Call path) : Answer := CommandLine.answer c.surroundings c.usual c.words

/-- How a call ends that goes well: the file holds what the edit makes, and this is said. -/
structure Done (c : Call path) (version : UInt32) (m n : Templates) : Prop where
  exits : c.answer.exitCode = 0
  makes : c.edit.Makes c.surroundings m n
  holds : Holds c.answer.files path version n
  document : c.mode.getD c.usual = .json → decode anyValue c.answer.streams.output = .ok (.object
    [("file", .string c.edit.name), ("mode", .string c.edit.verb), ("status", .string (c.edit.deed m))])
  line : c.mode.getD c.usual = .pretty →
    c.answer.streams = { errors := (c.edit.deed m ++ ": " ++ c.edit.name ++ "\n").toList }

/-- How a call ends that fails: the file keeps its bytes, and there was a cause. -/
structure Failed (c : Call path) (m : Templates) : Prop where
  exits : c.answer.exitCode = 1
  keeps : c.answer.files.read path = c.surroundings.files.read path
  cause : (∀ n, ¬ c.edit.Makes c.surroundings m n) ∨ Fixed c.surroundings.files path

end Call

/-! ## The archive in a file -/

theorem holds_of_missing (h : files.read path = .error .notFound) :
    Holds files path currentVersion fun _ => none := by
  refine ⟨{}, ?_, rfl, rfl⟩
  rw [Archive.load, Store.readText, h]
  rfl

theorem holds_congr (h : left.read path = files.read path) (hold : Holds files path version m) :
    Holds left path version m := by
  obtain ⟨a, ha, hversion, hm⟩ := hold
  exact ⟨a, (Archive.load_congr h).trans ha, hversion, hm⟩

theorem get?_insert (a : Archive) (name : String) (s : List Char) :
    (a.insert name s).get? = Function.update a.get? name (some s) := by
  funext other
  rw [Archive.get?, Archive.insert, NameMap.get?_insert, Function.update_apply, Archive.get?]

theorem get?_erase (a : Archive) (name : String) : (a.erase name).get? = Function.update a.get? name none := by
  funext other
  rw [Archive.get?, Archive.erase, NameMap.get?_erase, Function.update_apply, Archive.get?]

theorem fixed_of_save {a : Archive} {f : SourceError} (h : a.save files path true = (left, .error f)) :
    Fixed files path := by
  unfold Archive.save Archive.temporaryName at h
  refine ⟨utf8 (a.document true), ?_⟩
  cases hreplace : files.replace (path ++ ".tmp") path (utf8 (a.document true)) with
  | mk left' r =>
    rw [hreplace] at h
    cases r with
    | ok u => cases h
    | error f => exact ⟨f, rfl⟩

/-! ## One edit -/

/-- The report of an edit of these templates. -/
def Edit.report (m : Templates) : Edit → Report
  | add name _ => .status (.added (m name).isSome) name
  | remove name => .status .removed name

theorem conclude_saveArchive_cases (w : Surroundings) (mode : OutputMode) (path : String) (a : Archive) (r : Report) :
    (∃ left, w.conclude mode (w.saveArchive mode path a r) = ⟨0, mode.report r, left⟩ ∧
        Archive.load left path = .ok a) ∨
      (w.conclude mode (w.saveArchive mode path a r)).exitCode = 1 ∧
        (w.conclude mode (w.saveArchive mode path a r)).files.read path = w.files.read path ∧ Fixed w.files path := by
  rcases a.save_cases w.files path true with ⟨left, hsave, hload⟩ | ⟨left, f, hsave, hread⟩
  · refine .inl ⟨left, ?_, hload⟩
    simp [Surroundings.saveArchive, Surroundings.conclude, hsave]
  · have hfailed : w.conclude mode (w.saveArchive mode path a r) =
        ⟨1, [mode.failure w.wording (.archive f)], left⟩ := by
      simp [Surroundings.saveArchive, Surroundings.conclude, hsave]
    rw [hfailed]
    exact .inr ⟨rfl, hread, fixed_of_save hsave⟩

/-- An edit is made, or the archive stays as it is. -/
theorem perform_edit_cases (h : Holds w.files path version m) (mode : OutputMode) (e : Edit) :
    (∃ n left, w.perform mode (e.command path) = ⟨0, mode.report (e.report m), left⟩ ∧ e.Makes w m n ∧
        Holds left path version n) ∨
      (w.perform mode (e.command path)).exitCode = 1 ∧
        (w.perform mode (e.command path)).files.read path = w.files.read path ∧
        ((∀ n, ¬ e.Makes w m n) ∨ Fixed w.files path) := by
  obtain ⟨a, hload, rfl, rfl⟩ := h
  have harchive := archive_eq_ok_iff.mpr hload
  cases e with
  | add name body =>
    simp only [Surroundings.perform, Edit.command, Surroundings.run, Surroundings.addTemplate, harchive,
      Surroundings.conclude_attempt_ok]
    cases hbody : w.readInput body with
    | error f =>
      rw [Surroundings.conclude_attempt_error]
      refine .inr ⟨rfl, rfl, .inl ?_⟩
      rintro n ⟨hs⟩
      rw [readInput_eq_ok_iff.mpr hs] at hbody
      cases hbody
    | ok s =>
      simp only [Surroundings.conclude_attempt_ok]
      rcases conclude_saveArchive_cases w mode path (a.insert name s) (.status (.added (a.get? name).isSome) name) with
        ⟨left, hleft, hheld⟩ | ⟨hexit, hread, hfixed⟩
      · exact .inl ⟨_, left, hleft, .add (readInput_eq_ok_iff.mp hbody), _, hheld, rfl, get?_insert a name s⟩
      · exact .inr ⟨hexit, hread, .inr hfixed⟩
  | remove name =>
    simp only [Surroundings.perform, Edit.command, Surroundings.run, Surroundings.removeTemplate, harchive,
      Surroundings.conclude_attempt_ok]
    by_cases hname : (a.get? name).isSome
    · simp only [if_pos hname, Surroundings.conclude_attempt_ok]
      rcases conclude_saveArchive_cases w mode path (a.erase name) (.status .removed name) with
        ⟨left, hleft, hheld⟩ | ⟨hexit, hread, hfixed⟩
      · exact .inl ⟨_, left, hleft, .remove hname, _, hheld, rfl, get?_erase a name⟩
      · exact .inr ⟨hexit, hread, .inr hfixed⟩
    · rw [if_neg hname, Surroundings.conclude_attempt_error]
      refine .inr ⟨rfl, rfl, .inl ?_⟩
      intro n hn
      cases hn with
      | remove hthere => exact hname hthere

/-! ## What is said of it -/

theorem document_edit {a : Answer} (h : a.prints = OutputMode.json.report (e.report m)) :
    decode anyValue a.streams.output = .ok (.object
      [("file", .string e.name), ("mode", .string e.verb), ("status", .string (e.deed m))]) := by
  have hvalue : (e.report m).value? = some (statusDocument e.verb (e.deed m) e.name) := by
    cases e with
    | add name body => exact value_added name _
    | remove name => rfl
  have hprints : a.prints = [.document (statusDocument e.verb (e.deed m) e.name)] := by
    rw [h]
    unfold OutputMode.report
    rw [hvalue]
  rw [streams_document hprints, decode_document, sorted_statusDocument]

theorem line_edit {a : Answer} (h : a.prints = OutputMode.pretty.report (e.report m)) :
    a.streams = { errors := (e.deed m ++ ": " ++ e.name ++ "\n").toList } := by
  unfold Answer.streams
  rw [h]
  cases e with
  | add name body =>
    cases hname : (m name).isSome <;>
      simp [Edit.report, Edit.deed, Edit.name, hname, OutputMode.report, Report.lines, Status.text, Print.streams, line]
  | remove name =>
    simp [Edit.report, Edit.deed, Edit.name, OutputMode.report, Report.lines, Status.text, Print.streams, line]

namespace Call

theorem answer_eq (c : Call path) :
    c.answer = c.surroundings.perform (c.mode.getD c.usual) (c.edit.command path) := by
  simp only [answer, CommandLine.answer, c.asks]

theorem answer_cases (c : Call path) (h : Holds c.surroundings.files path version m) :
    (∃ n, c.Done version m n) ∨ c.Failed m := by
  have heq := c.answer_eq
  rcases perform_edit_cases h (c.mode.getD c.usual) c.edit with
    ⟨n, left, hperform, hmakes, hleft⟩ | ⟨hexit, hread, hcause⟩
  · rw [hperform] at heq
    refine .inl ⟨n, by rw [heq], hmakes, by rw [heq]; exact hleft, fun hmode => ?_, fun hmode => ?_⟩
    · rw [hmode] at heq
      exact document_edit (by rw [heq])
    · rw [hmode] at heq
      exact line_edit (by rw [heq])
  · rw [← heq] at hexit hread
    exact .inr ⟨hexit, hread, hcause⟩

end Call

/-! ## Edits in a row -/

/-- Calls in a row. Each finds the archive file that the one before has left. Elsewhere files may change. -/
inductive Calls (path : String) : Store → List (Call path) → Store → Prop where
  | nil (files : Store) : Calls path files [] files
  | cons (c : Call path) {files left : Store} {cs : List (Call path)} :
    c.surroundings.files.read path = files.read path → Calls path c.answer.files cs left →
      Calls path files (c :: cs) left

/-- What those of the calls that exit with 0 make of templates, one after the other. -/
inductive Edited {path : String} : Templates → List (Call path) → Templates → Prop where
  | nil (m : Templates) : Edited m [] m
  | done {c : Call path} {cs : List (Call path)} {l m n : Templates} : c.answer.exitCode = 0 →
    c.edit.Makes c.surroundings l m → Edited m cs n → Edited l (c :: cs) n
  | failed {c : Call path} {cs : List (Call path)} {m n : Templates} : c.answer.exitCode ≠ 0 →
    Edited m cs n → Edited m (c :: cs) n

theorem Edit.Makes.unique {l : Templates} (hm : e.Makes w l m) (hn : e.Makes w l n) : m = n := by
  cases hm with
  | add hs =>
    cases hn with
    | add ht =>
      rw [← readInput_eq_ok_iff] at hs ht
      rw [Except.ok.inj (hs.symm.trans ht)]
  | remove =>
    cases hn with
    | remove => rfl

theorem Edited.unique {cs : List (Call path)} {l : Templates} (hm : Edited l cs m) (hn : Edited l cs n) : m = n := by
  induction hm with
  | nil l =>
    cases hn
    rfl
  | done hexit hmakes _ ih =>
    cases hn with
    | done _ hmakes' hrest =>
      obtain rfl := hmakes.unique hmakes'
      exact ih hrest
    | failed hfailed => exact absurd hexit hfailed
  | failed hexit _ ih =>
    cases hn with
    | done hdone => exact absurd hdone hexit
    | failed _ hrest => exact ih hrest

theorem Calls.holds {cs : List (Call path)} (hcs : Calls path files cs left) (h : Holds files path version m) :
    ∃ n, Edited m cs n ∧ Holds left path version n := by
  -- Along the calls, for all templates: a call that went well hands on its own.
  induction hcs generalizing m with
  | nil files => exact ⟨m, .nil m, h⟩
  | cons c hread hrest ih =>
    rcases c.answer_cases (holds_congr hread h) with ⟨l, hdone⟩ | hfailed
    · obtain ⟨n, hn, hleft⟩ := ih hdone.holds
      exact ⟨n, .done hdone.exits hdone.makes hn, hleft⟩
    · obtain ⟨n, hn, hleft⟩ := ih (holds_congr (hfailed.keeps.trans hread) h)
      exact ⟨n, .failed (by simp [hfailed.exits]) hn, hleft⟩

/-! ## Lists of names -/

/-- Each of the names of these templates once, in rising order of their bytes. -/
structure Lists (m : Templates) (names : List String) : Prop where
  mem_iff : ∀ name, name ∈ names ↔ (m name).isSome
  nodup : names.Nodup
  rising : names.Pairwise fun a b => utf8 a.toList < utf8 b.toList

theorem lists_names (a : Archive) : Lists a.get? a.names where
  mem_iff := fun _ => NameMap.mem_names_iff
  nodup := a.templates.nodup_names
  rising := a.templates.pairwise_names.imp fun h => utf8_lt h

/-- The document of a list of names. -/
def listing (path : String) (names : List String) : Value :=
  .object [("archive", .string path), ("templates", .array (names.map .string))]

theorem sortedItems_strings (names : List String) : sortedItems (names.map .string) = names.map .string := by
  induction names with
  | nil => rfl
  | cons name names ih => rw [List.map_cons, sortedItems, ih, Value.sorted]

theorem sorted_listing (path : String) (names : List String) : (listing path names).sorted = listing path names := by
  have hfirst : "archive" < "templates" := by decide
  simp [listing, Value.sorted, sortedMembers, NameMap.insert, NameMap.put, NameMap.empty, hfirst, sortedItems_strings]

theorem exists_listing (h : Holds w.files path version m) :
    ∃ names, Lists m names ∧ (w.perform .json (.listTemplates path)).exitCode = 0 ∧
      (w.perform .json (.listTemplates path)).files = w.files ∧
      decode anyValue (w.perform .json (.listTemplates path)).streams.output = .ok (listing path names) := by
  obtain ⟨a, hload, -, rfl⟩ := h
  have harchive := archive_eq_ok_iff.mpr hload
  have hperform : w.perform .json (.listTemplates path) = ⟨0, [.document (listing path a.names)], w.files⟩ := by
    simp only [Surroundings.perform, Surroundings.run, Surroundings.listTemplates, harchive,
      Surroundings.conclude_attempt_ok]
    rfl
  rw [hperform]
  refine ⟨a.names, lists_names a, rfl, rfl, ?_⟩
  rw [streams_document rfl, decode_document, sorted_listing]

/-! ## The archive -/

/-- However calls in a row have ended, the file holds what those that went well make of its first archive. The
next call goes well and says what it has done, or it fails for a cause and leaves the file as it is, byte for byte. A
list has the names of these templates. -/
theorem edited_holds (path : String) (files left : Store) (version : UInt32) (m : Templates)
    (cs : List (Call path)) (h : Holds files path version m) (hcs : Calls path files cs left) :
    (∃! n, Edited m cs n) ∧ ∀ n, Edited m cs n → Holds left path version n ∧
      (∀ c : Call path, c.surroundings.files.read path = left.read path → (∃ l, c.Done version n l) ∨ c.Failed n) ∧
      ∀ (w : Surroundings) (usual : OutputMode) (words : List String) (mode : Option OutputMode),
        invocation words = .ok ⟨.listTemplates path, mode⟩ → mode.getD usual = .json →
        w.files.read path = left.read path → let a := answer w usual words
          ∃ names, Lists n names ∧ a.exitCode = 0 ∧ a.files = w.files ∧
            decode anyValue a.streams.output = .ok (listing path names) := by
  obtain ⟨n, hedited, hleft⟩ := hcs.holds h
  refine ⟨⟨n, hedited, fun l hl => hl.unique hedited⟩, fun l hl => ?_⟩
  obtain rfl := hedited.unique hl
  refine ⟨hleft, fun c hread => c.answer_cases (holds_congr hread hleft), ?_⟩
  intro w usual words mode hasks hmode hread a
  have ha : a = w.perform .json (.listTemplates path) := by
    simp only [a, answer, hasks, hmode]
  rw [ha]
  exact exists_listing (holds_congr hread hleft)

/-- A template is taken from a file, or from an input that has another text for it. -/
def addition (body : String) (files : Store)
    (asks : invocation ["template", "add", "--archive", "labels.json", "--name", "logo", "--from", body] =
      .ok ⟨(Edit.add "logo" body).command "labels.json", none⟩) : Call "labels.json" where
  surroundings := { files, input := utf8 "^FD6^FS".toList }
  usual := .json
  words := ["template", "add", "--archive", "labels.json", "--name", "logo", "--from", body]
  edit := .add "logo" body
  mode := none
  asks := asks

theorem read_addition {body : String} (files : Store) (asks) (path : String) :
    (addition body files asks).surroundings.files.read path = files.read path := rfl

def removal (name : String) (files : Store)
    (asks : invocation ["template", "remove", "--archive", "labels.json", "--name", name] =
      .ok ⟨(Edit.remove name).command "labels.json", none⟩) : Call "labels.json" where
  surroundings := { files }
  usual := .json
  words := ["template", "remove", "--archive", "labels.json", "--name", name]
  edit := .remove name
  mode := none
  asks := asks

theorem read_removal {name : String} (files : Store) (asks) (path : String) :
    (removal name files asks).surroundings.files.read path = files.read path := rfl

/-- A template is added from a file where no archive is, another one is not there to be removed, and the first is
replaced and removed at last. -/
theorem edited_holds_logo :
    let start := Store.empty.put ⟨["logo.zpl"]⟩ (.file (utf8 "^FD5^FS".toList))
    let first := addition "logo.zpl" start (by cbv)
    let second := removal "stamp" first.answer.files (by cbv)
    let third := addition "-" second.answer.files (by cbv)
    let last := removal "logo" third.answer.files (by cbv)
    let m : Templates := Function.update (fun _ => none) "logo" (some "^FD6^FS".toList)
    let list := answer last.surroundings .json ["template", "list", "--archive", "labels.json"]
    second.answer.exitCode = 1 ∧ second.answer.files.read "labels.json" = first.answer.files.read "labels.json" ∧
      decode anyValue third.answer.streams.output = .ok
        (.object [("file", .string "logo"), ("mode", .string "add"), ("status", .string "replaced")]) ∧
      Holds third.answer.files "labels.json" 1 m ∧
      (∃ names, Lists m names ∧ decode anyValue list.streams.output = .ok (listing "labels.json" names)) ∧
      decode anyValue last.answer.streams.output = .ok
        (.object [("file", .string "logo"), ("mode", .string "remove"), ("status", .string "removed")]) := by
  intro start first second third last m list
  have hfirst : first.answer.exitCode = 0 := by decide +kernel
  have hthird : third.answer.exitCode = 0 := by decide +kernel
  have hlast : last.answer.exitCode = 0 := by decide +kernel
  let l : Templates := Function.update (fun _ => none) "logo" (some "^FD5^FS".toList)
  have hadd : first.edit.Makes first.surroundings (fun _ => none) l := .add rfl
  have hreplace : third.edit.Makes third.surroundings l m := by
    have hupdate : Function.update l "logo" (some "^FD6^FS".toList) = m := Function.update_idem ..
    rw [← hupdate]
    exact .add rfl
  have hstart : Holds start "labels.json" 1 fun _ => none := holds_of_missing rfl
  have hone : Calls "labels.json" start [first] first.answer.files := .cons first (read_addition ..) (.nil _)
  have htwo : Calls "labels.json" start [first, second] second.answer.files :=
    .cons first (read_addition ..) (.cons second (read_removal ..) (.nil _))
  have hthree : Calls "labels.json" start [first, second, third] third.answer.files :=
    .cons first (read_addition ..) (.cons second (read_removal ..) (.cons third (read_addition ..) (.nil _)))
  have hsecond : second.Failed l := by
    obtain ⟨-, hall⟩ := edited_holds "labels.json" start _ 1 _ _ hstart hone
    rcases (hall l (.done hfirst hadd (.nil l))).2.1 second (read_removal ..) with ⟨_, hdone⟩ | hfailed
    · cases hdone.makes with
      | remove hthere => exact absurd hthere (by decide)
    · exact hfailed
  have hkept : second.answer.exitCode ≠ 0 := by simp [hsecond.exits]
  have hreplaced : ∃ n, third.Done 1 l n := by
    obtain ⟨-, hall⟩ := edited_holds "labels.json" start _ 1 _ _ hstart htwo
    rcases (hall l (.done hfirst hadd (.failed hkept (.nil l)))).2.1 third (read_addition ..) with hdone | hfailed
    · exact hdone
    · exact absurd (hthird.symm.trans hfailed.exits) Nat.zero_ne_one
  obtain ⟨-, hall⟩ := edited_holds "labels.json" start _ 1 _ _ hstart hthree
  obtain ⟨hholds, hnext, hlist⟩ := hall m (.done hfirst hadd (.failed hkept (.done hthird hreplace (.nil m))))
  obtain ⟨_, hreplaced⟩ := hreplaced
  refine ⟨hsecond.exits, hsecond.keeps, hreplaced.document rfl, hholds, ?_, ?_⟩
  · obtain ⟨names, hnames, -, -, hread⟩ := hlist last.surroundings .json
      ["template", "list", "--archive", "labels.json"] none (by cbv) rfl (read_removal ..)
    exact ⟨names, hnames, hread⟩
  · rcases hnext last (read_removal ..) with ⟨_, hdone⟩ | hfailed
    · exact hdone.document rfl
    · exact absurd (hlast.symm.trans hfailed.exits) Nat.zero_ne_one

end LabelPress.CommandLine
