import LabelPress.Proofs.CommandLine.Steps
import LabelPress.Proofs.Files.Places
import LabelPress.Proofs.Markup.Settled
import Mathlib

/-!
# Formatting again

A label that is written in its format is formatted to itself, unless its first layout has put letters behind a mnemonic
or has left the end of a line in field data (`formatted_formatted_iff`).
-/

namespace LabelPress.CommandLine

open Step Files Markup Text

namespace Surroundings

variable {w : Surroundings} {mode : OutputMode} {file : String} {x : List Char} {minified : Bool}

/-- The surroundings when a command has left these files. -/
def after (w : Surroundings) (left : Store) : Surroundings := { w with files := left }

theorem readInput_of_readText (hfile : file ≠ standardInput) (h : w.files.readText file = .ok x) :
    w.readInput file = .ok x := by
  unfold readInput
  rw [if_neg hfile, h]
  rfl

theorem perform_write (hfile : file ≠ standardInput) (hread : w.readInput file = .ok x) :
    w.perform mode (.format file minified .write) =
      if formatted minified x = x then ⟨0, mode.report (.status (.written true) file), w.files⟩
      else
        match w.files.write file (utf8 (formatted minified x)) with
        | .ok left => ⟨0, mode.report (.status (.written false) file), left⟩
        | .error e => ⟨1, [mode.failure w.wording (.unwritable file e)], w.files⟩ := by
  simp only [perform, run, format, hread, hfile, and_false, if_false, conclude_attempt_ok]
  by_cases hsame : formatted minified x = x
  · simp [conclude, hsame]
  · rw [if_neg hsame, if_neg hsame, overwrite]
    cases w.files.write file (utf8 (formatted minified x)) with
    | ok left => simp [conclude, hsame, Except.mapError]
    | error e => simp [conclude, Except.mapError]

theorem ne_standardInput_of_write (h : (w.perform mode (.format file minified .write)).exitCode = 0) :
    file ≠ standardInput := by
  rintro rfl
  simp [perform, run, format] at h

theorem readInput_after (hread : w.readInput file = .ok x)
    (h : (w.perform mode (.format file minified .write)).exitCode = 0) :
    (w.after (w.perform mode (.format file minified .write)).files).readInput file = .ok (formatted minified x) := by
  have hfile := ne_standardInput_of_write h
  rw [perform_write hfile hread] at h ⊢
  split_ifs at h ⊢ with hsame
  · rw [hsame]
    exact hread
  · cases hwrite : w.files.write file (utf8 (formatted minified x)) with
    | ok left => exact readInput_of_readText hfile (Store.readText_of_write hwrite)
    | error e =>
      rw [hwrite] at h
      cases h

theorem report_written_ne (mode : OutputMode) (file : String) :
    mode.report (.status (.written false) file) ≠ mode.report (.status (.written true) file) := by
  cases mode <;> simp [OutputMode.report, Report.value?, Report.lines, Status.mode, Status.text, line]

theorem perform_write_eq_iff (hfile : file ≠ standardInput) (hread : w.readInput file = .ok x) :
    w.perform mode (.format file minified .write) = ⟨0, mode.report (.status (.written true) file), w.files⟩ ↔
      formatted minified x = x := by
  rw [perform_write hfile hread]
  split_ifs with hsame
  · simp [hsame]
  · split <;> simp [hsame, report_written_ne]

/-- A label with its format keeps it when it is formatted again. -/
theorem formatted_formatted_iff (x : List Char)
    (hapart : ∀ t ∈ tokenize {} (lineFeeds x), t.name = ['F'] → t.params.head? ≠ some 'D') :
    (formatted false (formatted false x) = formatted false x ↔ Steady (lineFeeds x)) ∧
      ∀ (w : Surroundings) (mode later : OutputMode) (file : String),
        let first := w.perform mode (.format file false .write)
        let checked := (w.after first.files).perform later (.format file false .check)
        let second := (w.after first.files).perform later (.format file false .write)
        w.readInput file = .ok x → first.exitCode = 0 →
          checked.files = first.files ∧ (checked.exitCode = 0 ↔ Steady (lineFeeds x)) ∧
            (second = ⟨0, later.report (.status (.written true) file), first.files⟩ ↔ Steady (lineFeeds x)) := by
  have hjoins := not_joins_of_tokens hapart
  have htext : formatted false (formatted false x) = formatted false x ↔ Steady (lineFeeds x) := by
    rw [← pretty_pretty_iff hjoins]
    exact List.append_left_inj ['\n']
  refine ⟨htext, ?_⟩
  intro w mode later file first checked second hread hfirst
  have hagain := readInput_after hread hfirst
  have hfile := ne_standardInput_of_write hfirst
  have hchecked : checked = _ := perform_check hagain
  refine ⟨?_, ?_, ?_⟩
  · rw [hchecked]
    rfl
  · rw [← htext, hchecked]
    simp
  · rw [← htext]
    exact perform_write_eq_iff hfile hagain

/-- The first layout makes `FXA` of `FX` and `A`, and the second one takes the blank behind it. -/
theorem formatted_formatted_iff_comment :
    let x := "^FX A b".toList
    let w : Surroundings := { files := Store.empty.put ⟨["l"]⟩ (.file (utf8 x)) }
    let first := w.perform .json (.format "l" false .write)
    (∀ t ∈ tokenize {} (lineFeeds x), t.name = ['F'] → t.params.head? ≠ some 'D') ∧ ¬ Steady (lineFeeds x) ∧
      w.readInput "l" = .ok x ∧ first.exitCode = 0 ∧
        ((w.after first.files).perform .pretty (.format "l" false .check)).exitCode ≠ 0 := by
  intro x w first
  have hnames : (tokenize {} (lineFeeds "^FX A b".toList)).map Token.name = [['F', 'X']] := by cbv
  have hapart : ∀ t ∈ tokenize {} (lineFeeds x), t.name = ['F'] → t.params.head? ≠ some 'D' := by
    intro t ht hname
    have hmem := List.mem_map_of_mem (f := Token.name) ht
    rw [hnames, hname] at hmem
    exact absurd hmem (by decide)
  have hfirst : formatted false "^FX A b".toList = "^FXA b\n".toList := by cbv
  have hsecond : formatted false "^FXA b\n".toList = "^FXAb\n".toList := by cbv
  have hread : Surroundings.readInput { files := Store.empty.put ⟨["l"]⟩ (.file (utf8 "^FX A b".toList)) } "l" =
      .ok "^FX A b".toList := by cbv
  have hwrites : ((Store.empty.put ⟨["l"]⟩ (.file (utf8 "^FX A b".toList))).write "l"
      (utf8 "^FXA b\n".toList)).toBool = true := by cbv
  obtain ⟨hiff, hrun⟩ := formatted_formatted_iff x hapart
  have hloose : ¬ Steady (lineFeeds x) := by
    rw [← hiff, hfirst, hsecond]
    decide
  have hexit : first.exitCode = 0 := by
    change (w.perform .json (.format "l" false .write)).exitCode = 0
    rw [perform_write (by decide) hread, hfirst, if_neg (by decide)]
    cases hwrite : (Store.empty.put ⟨["l"]⟩ (.file (utf8 "^FX A b".toList))).write "l" (utf8 "^FXA b\n".toList) with
    | ok left => rfl
    | error e =>
      rw [hwrite] at hwrites
      cases hwrites
  obtain ⟨-, hchecked, -⟩ := hrun w .json .pretty "l" hread hexit
  exact ⟨hapart, hloose, hread, hexit, fun h => hloose (hchecked.mp h)⟩

/-- Of two carriage returns before a line feed the first layout takes one, and the second layout the other. -/
theorem not_formatted_formatted : ¬ ∀ x, formatted false (formatted false x) = formatted false x := by
  intro h
  have hagain := h "^FDa\r\r\nb^FS".toList
  have hfirst : formatted false "^FDa\r\r\nb^FS".toList = "^FDa\r\nb^FS\n".toList := by cbv
  have hsecond : formatted false "^FDa\r\nb^FS\n".toList = "^FDa\nb^FS\n".toList := by cbv
  rw [hfirst, hsecond] at hagain
  exact absurd hagain (by decide)

end Surroundings

end LabelPress.CommandLine
