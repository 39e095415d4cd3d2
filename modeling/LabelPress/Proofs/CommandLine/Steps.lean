import LabelPress.CommandLine.Run
import LabelPress.Proofs.Outcomes
import LabelPress.Proofs.Text.Utf8

/-!
# What steps come to

One equation for each step, and one for each way in which a command ends. What a command reads is the text of a file
or of the standard input (`readInput_eq_ok_iff`).
-/

namespace LabelPress.CommandLine

open Files Text

namespace Step

variable {α β ε : Type}

@[simp] theorem result_pure (a : α) (p : Progress) : (pure a : Step α).result p = (.ok a, p) := rfl

@[simp] theorem result_bind (x : Step α) (k : α → Step β) (p : Progress) :
    (x >>= k).result p =
      match x.result p with
      | (.ok a, q) => (k a).result q
      | (.error e, q) => (.error e, q) := by
  unfold result
  rw [ExceptT.run_bind, StateT.run_bind]
  obtain ⟨r, q⟩ := StateT.run (ExceptT.run x) p
  cases r <;> rfl

@[simp] theorem result_modify (f : Progress → Progress) (p : Progress) :
    (modify f : Step PUnit).result p = (.ok (), f p) := rfl

@[simp] theorem result_attempt_ok (a : α) (p : Progress) : (attempt (.ok a)).result p = (.ok a, p) := rfl

@[simp] theorem result_attempt_error (f : Failure) (p : Progress) :
    (attempt (.error f : Except Failure α)).result p = (.error (.failed f), p) := rfl

@[simp] theorem result_change_ok (files : Store) (u : Unit) (failure : ε → Failure) (p : Progress) :
    (change (files, .ok u) failure).result p = (.ok (), { p with files }) := rfl

@[simp] theorem result_change_error (files : Store) (e : ε) (failure : ε → Failure) (p : Progress) :
    (change (files, .error e) failure).result p = (.error (.failed (failure e)), { p with files }) := rfl

@[simp] theorem result_emit (ps : List Print) (p : Progress) :
    (emit ps).result p = (.ok (), { p with prints := p.prints ++ ps }) := rfl

@[simp] theorem result_exit (code : Nat) (p : Progress) : (exit code).result p = (.error (.exited code), p) := rfl

end Step

namespace Surroundings

open Step

variable {w : Surroundings} {mode : OutputMode} {x : Step Unit} {p : Progress} {name : String} {s : List Char}

/-! ## Reading -/

/-- A text is had under a name: it stands in that file, or at the standard input if the name is a dash. -/
def Gives (w : Surroundings) (name : String) (s : List Char) : Prop :=
  if name = "-" then w.input = utf8 s else w.files.read name = .ok (utf8 s)

theorem readInput_eq_ok_iff : w.readInput name = .ok s ↔ w.Gives name s := by
  unfold readInput Gives standardInput Store.readText
  rw [mapError_eq_ok_iff]
  split_ifs
  · rw [← ofUtf8?_eq_some_iff]
    cases ofUtf8? w.input <;> simp
  · cases hread : w.files.read name with
    | error e => simp [bind, Except.bind]
    | ok bytes =>
      rw [Except.ok.injEq, ← ofUtf8?_eq_some_iff]
      cases htext : ofUtf8? bytes <;>
        simp [htext, bind, Except.bind, pure, Except.pure, throw, throwThe, MonadExceptOf.throw]

theorem archive_eq_ok_iff {a : Label.Archive} : w.archive name = .ok a ↔ Label.Archive.load w.files name = .ok a :=
  mapError_eq_ok_iff

/-! ## Ends -/

theorem conclude_of_done (h : x.result { files := w.files } = (.ok (), p)) :
    w.conclude mode x = ⟨0, p.prints, p.files⟩ := by
  unfold conclude
  rw [h]

theorem conclude_of_exited {code : Nat} (h : x.result { files := w.files } = (.error (.exited code), p)) :
    w.conclude mode x = ⟨code, p.prints, p.files⟩ := by
  unfold conclude
  rw [h]

theorem conclude_of_failed {f : Failure} (h : x.result { files := w.files } = (.error (.failed f), p)) :
    w.conclude mode x = ⟨1, p.prints ++ [mode.failure w.wording f], p.files⟩ := by
  unfold conclude
  rw [h]

@[simp] theorem conclude_attempt_ok {α : Type} (a : α) (k : α → Step Unit) :
    w.conclude mode (attempt (.ok a) >>= k) = w.conclude mode (k a) := by
  simp [conclude]

@[simp] theorem conclude_attempt_error {α : Type} (f : Failure) (k : α → Step Unit) :
    w.conclude mode (attempt (.error f) >>= k) = ⟨1, [mode.failure w.wording f], w.files⟩ := by
  simp [conclude]

theorem perform_check {file : String} {s : List Char} {minified : Bool} (hread : w.readInput file = .ok s) :
    w.perform mode (.format file minified .check) =
      ⟨if formatted minified s = s then 0 else 1,
        mode.report (.status (.checked (formatted minified s = s)) file), w.files⟩ := by
  simp only [perform, run, format, hread, reduceCtorEq, false_and, if_false, conclude_attempt_ok]
  by_cases hsame : formatted minified s = s
  · simp [conclude, hsame]
  · simp [conclude, hsame]

end Surroundings

end LabelPress.CommandLine
