import LabelPress.Label.Archive
import LabelPress.Proofs.Files.Replace
import LabelPress.Proofs.Json.Records
import LabelPress.Proofs.NameMap

/-!
# Stored archives

An archive is read back from its document as it was, in either layout (`ofText_document`). So is one that was
saved to a file, and a file that could not be replaced keeps its bytes (`save_cases`).
-/

namespace LabelPress.Label.Archive

open Json

theorem templatesDecoder_object (m : NameMap (List Char)) :
    templatesDecoder (Value.object (m.toList.map fun e => (e.1, .text e.2))).node = .ok m := by
  rw [templatesDecoder, members_object text_text, Except.map, NameMap.ofList_toList]

theorem decoder_toJson (a : Archive) : record.decoder a.toJson.node = .ok a := by
  have hversion := Record.Written.optional (uint32_uint32 a.version) (fun _ => false) "version" currentVersion
  have htemplates := Record.Written.optional (templatesDecoder_object a.templates) (fun _ => false) "templates" .empty
  exact ((hversion.map Archive.mk).seq htemplates).decode_whole (by simp) .pass .malformed

theorem ofText_document (a : Archive) (pretty : Bool) : ofText (a.document pretty) = .ok a := by
  have hdecode : ∀ depth, decode record.decoder (a.toJson.render depth) = .ok a := fun depth => by
    rw [decode_render, decoder_toJson]
  have htext : ∃ depth, a.document pretty = a.toJson.render depth := by
    cases pretty with
    | false => exact ⟨none, rfl⟩
    | true => exact ⟨some 0, rfl⟩
  obtain ⟨depth, hdepth⟩ := htext
  rw [ofText, hdepth, hdecode]
  rfl

/-! ## Files -/

open Files Text

variable {files left : Store} {path : String} {a : Archive}

theorem isEnding_tmp : IsEnding ".tmp" where
  no_slash := by decide
  long := by decide

theorem load_congr (h : left.read path = files.read path) : load left path = load files path := by
  simp only [load, Store.readText, h]

theorem save_eq_ok_iff {pretty : Bool} : a.save files path pretty = (left, .ok ()) ↔
    files.replace (temporaryName path) path (utf8 (a.document pretty)) = (left, .ok ()) := by
  rw [save]
  cases files.replace (temporaryName path) path (utf8 (a.document pretty)) with
  | mk left' r => cases r <;> simp

theorem readText_of_save {pretty : Bool} (h : a.save files path pretty = (left, .ok ())) :
    left.readText path = .ok (a.document pretty) := by
  have hread := Store.read_of_replace_ok isEnding_tmp (save_eq_ok_iff.mp h)
  simp only [Store.readText, hread, bind, Except.bind, ofUtf8?_utf8]
  rfl

theorem load_of_readText {pretty : Bool} (h : files.readText path = .ok (a.document pretty)) :
    load files path = .ok a := by
  rw [load, h]
  exact ofText_document a pretty

theorem save_cases (a : Archive) (files : Store) (path : String) (pretty : Bool) :
    (∃ left, a.save files path pretty = (left, .ok ()) ∧ load left path = .ok a) ∨
      ∃ left e, a.save files path pretty = (left, .error e) ∧ left.read path = files.read path := by
  cases h : files.replace (temporaryName path) path (utf8 (a.document pretty)) with
  | mk left r =>
    cases r with
    | ok u =>
      have hsave := save_eq_ok_iff.mpr h
      exact .inl ⟨left, hsave, load_of_readText (readText_of_save hsave)⟩
    | error f => exact .inr ⟨left, .access f, by rw [save, h], Store.read_of_replace_error isEnding_tmp h⟩

/-! ## Back from a file -/

/-- Nothing of an archive is lost, whatever its names and bodies are made of. -/
theorem load_saved (a : Archive) (pretty : Bool) :
    ofText (a.document pretty) = .ok a ∧
      ∀ files left path, a.save files path pretty = (left, .ok ()) →
        left.readText path = .ok (a.document pretty) ∧ load left path = .ok a := by
  refine ⟨ofText_document a pretty, fun files left path h => ?_⟩
  have htext := readText_of_save h
  exact ⟨htext, load_of_readText htext⟩

/-- Names and bodies that have to be escaped, or that are empty, and the highest version. -/
def oddities : Archive where
  version := 4294967295
  templates := .ofList
    [("", ['"', '\\', '/', '\x00', '\x1f', '\x7f', 'ß']), ("a\"b\\\n", []), ("\x00", ['\r', '\n', '\t'])]

theorem load_saved_oddities : ∀ pretty, (oddities.save .empty "odd.json" pretty).2 = .ok () ∧
    load (oddities.save .empty "odd.json" pretty).1 "odd.json" = .ok oddities := by
  have hsaved : ∀ pretty, (oddities.save .empty "odd.json" pretty).2 = .ok () := by decide +kernel
  intro pretty
  exact ⟨hsaved pretty, ((load_saved oddities pretty).2 .empty _ "odd.json" (Prod.ext rfl (hsaved pretty))).2⟩

end LabelPress.Label.Archive
