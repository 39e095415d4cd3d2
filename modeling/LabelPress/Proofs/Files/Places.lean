import LabelPress.Files.Store
import LabelPress.Proofs.NameMap
import LabelPress.Proofs.Outcomes

/-!
# Places that keep what they have

What is put at one place or cleared away from it is seen at no other. So a path leads where it led as long as
no directory on its way is touched (`KeepsDirectories.locate`).
-/

namespace LabelPress.Files

open Text

namespace Store

variable {s t : Store} {l here there : Location} {e : Entry} {p q : Path} {name step : String} {bytes : List UInt8}

/-! ## What stands at a place -/

/-- A place that may have a file. -/
structure Takes (s : Store) (l : Location) : Prop where
  not_given : ¬ l.isGiven
  fits : ¬ l.steps.any (longestStep < ·.utf8ByteSize)
  not_directory : s.entries.get? l.key ≠ some .directory

theorem entryAt_put_of_ne (h : here.key ≠ l.key) (s : Store) (e : Entry) :
    (s.put l e).entryAt here = s.entryAt here := by
  rw [entryAt, entryAt, put, NameMap.get?_insert, if_neg h]

theorem entryAt_clear_of_ne (h : here.key ≠ l.key) (s : Store) : (s.clear l).entryAt here = s.entryAt here := by
  rw [entryAt, entryAt, clear, NameMap.get?_erase, if_neg h]

theorem Takes.entryAt_put (h : s.Takes l) (e : Entry) : (s.put l e).entryAt l = .ok e := by
  rw [entryAt, if_neg h.not_given, if_neg h.fits, put, NameMap.get?_insert, if_pos rfl]

theorem takes_of_entryAt (h : s.entryAt l = .error .notFound ∨ ∃ bytes, s.entryAt l = .ok (.file bytes)) :
    s.Takes l := by
  rw [entryAt] at h
  split_ifs at h with hgiven hlong
  · simp at h
  · simp at h
  · refine ⟨hgiven, hlong, fun hdirectory => ?_⟩
    rw [hdirectory] at h
    simp at h

theorem Takes.put_file (h : s.Takes l) (bytes : List UInt8) : (s.put l (.file bytes)).Takes l :=
  takes_of_entryAt (.inr ⟨bytes, h.entryAt_put _⟩)

theorem Takes.entryAt_clear (h : s.Takes l) : (s.clear l).entryAt l = .error .notFound := by
  rw [entryAt, if_neg h.not_given, if_neg h.fits, clear, NameMap.get?_erase, if_pos rfl]

theorem Takes.clear (h : s.Takes l) : (s.clear l).Takes l := takes_of_entryAt (.inl h.entryAt_clear)

theorem Takes.key_ne (h : s.Takes l) (hhere : s.entryAt here = .ok .directory) (hgiven : ¬ here.isGiven) :
    here.key ≠ l.key := by
  intro hkey
  rw [entryAt, if_neg hgiven] at hhere
  split_ifs at hhere
  have hdirectory := h.not_directory
  rw [← hkey] at hdirectory
  cases hget : s.entries.get? here.key with
  | none => simp [hget] at hhere
  | some e =>
    rw [hget] at hhere hdirectory
    simp only [Except.ok.injEq] at hhere
    exact hdirectory (congrArg some hhere)

/-! ## Where paths lead -/

/-- Every directory of the one store is one of the other. -/
def KeepsDirectories (s t : Store) : Prop :=
  ∀ here, s.entryAt here = .ok .directory → t.entryAt here = .ok .directory

theorem entryAt_given (h : here.isGiven) (s : Store) : s.entryAt here = .ok .directory := by
  rw [entryAt, if_pos h]

theorem Takes.keeps (h : s.Takes l) (hsame : ∀ here, here.key ≠ l.key → t.entryAt here = s.entryAt here) :
    s.KeepsDirectories t := by
  intro here hhere
  by_cases hgiven : here.isGiven
  · exact entryAt_given hgiven _
  · rwa [hsame here (h.key_ne hhere hgiven)]

theorem Takes.keeps_put (h : s.Takes l) (e : Entry) : s.KeepsDirectories (s.put l e) :=
  h.keeps fun _ hne => entryAt_put_of_ne hne s e

theorem Takes.keeps_clear (h : s.Takes l) : s.KeepsDirectories (s.clear l) :=
  h.keeps fun _ hne => entryAt_clear_of_ne hne s

theorem KeepsDirectories.trans {u : Store} (h : s.KeepsDirectories t) (h' : t.KeepsDirectories u) :
    s.KeepsDirectories u := fun here hhere => h' here (h here hhere)

theorem enter_eq_ok_iff : s.enter here step = .ok there ↔
    there = here.step step ∧ s.entryAt (here.step step) = .ok .directory := by
  rw [enter]
  cases h : s.entryAt (here.step step) with
  | error e => simp
  | ok e =>
    cases e with
    | file bytes => simp
    | directory => simp [eq_comm]

theorem KeepsDirectories.walk (h : s.KeepsDirectories t) {way : List String}
    (hway : way.foldlM s.enter here = .ok there) : way.foldlM t.enter here = .ok there := by
  induction way generalizing here with
  | nil => exact hway
  | cons step way ih =>
    rw [List.foldlM_cons] at hway ⊢
    obtain ⟨next, hnext, hrest⟩ := bind_eq_ok hway
    obtain ⟨rfl, hdirectory⟩ := enter_eq_ok_iff.mp hnext
    rw [enter_eq_ok_iff.mpr ⟨rfl, h _ hdirectory⟩]
    exact ih hrest

theorem locate_eq_ok_iff : s.locate p = .ok l ↔
    ∃ here, p.way.foldlM s.enter p.start = .ok here ∧ l = here.step p.last := by
  rw [locate]
  cases p.way.foldlM s.enter p.start with
  | error e => simp [bind, Except.bind]
  | ok here => simp [bind, Except.bind, pure, Except.pure, eq_comm]

theorem KeepsDirectories.locate (h : s.KeepsDirectories t) (hp : s.locate p = .ok l) : t.locate p = .ok l := by
  obtain ⟨here, hway, rfl⟩ := locate_eq_ok_iff.mp hp
  exact locate_eq_ok_iff.mpr ⟨here, h.walk hway, rfl⟩

/-! ## Reading -/

theorem lookup_of_file (hp : Path.ofName name = .ok p) (hl : s.locate p = .ok l)
    (he : s.entryAt l = .ok (.file bytes)) (hask : p.asksDirectory = false) : s.lookup name = .ok (.file bytes) := by
  simp [lookup, hp, hl, he, hask, bind, Except.bind, pure, Except.pure]

theorem lookup_congr (hp : Path.ofName name = .ok p) (hs : s.locate p = .ok l) (ht : t.locate p = .ok l)
    (he : t.entryAt l = s.entryAt l) : t.lookup name = s.lookup name := by
  simp [lookup, hp, hs, ht, he, bind, Except.bind]

theorem read_of_lookup (h : s.lookup name = .ok (.file bytes)) : s.read name = .ok bytes := by
  simp [read, h, bind, Except.bind, pure, Except.pure]

theorem read_congr (h : t.lookup name = s.lookup name) : t.read name = s.read name := by
  rw [read, read, h]

/-! ## Writing -/

/-- Where a file can be written under a name. -/
structure Accepts (s : Store) (name : String) (p : Path) (l : Location) : Prop where
  path : Path.ofName name = .ok p
  leads : s.locate p = .ok l
  asks_file : p.asksDirectory = false
  takes : s.Takes l

theorem Accepts.put_file (h : s.Accepts name p l) (bytes : List UInt8) : (s.put l (.file bytes)).Accepts name p l where
  path := h.path
  leads := (h.takes.keeps_put _).locate h.leads
  asks_file := h.asks_file
  takes := h.takes.put_file bytes

theorem Accepts.lookup_put (h : s.Accepts name p l) (bytes : List UInt8) :
    (s.put l (.file bytes)).lookup name = .ok (.file bytes) :=
  lookup_of_file h.path (h.put_file bytes).leads (h.takes.entryAt_put _) h.asks_file

theorem write_eq_ok (h : s.write name bytes = .ok t) : ∃ p l, s.Accepts name p l ∧ t = s.put l (.file bytes) := by
  obtain ⟨p, hp, h⟩ := bind_eq_ok h
  obtain ⟨l, hl, h⟩ := bind_eq_ok h
  cases hask : p.asksDirectory with
  | true =>
    rw [hask, if_pos rfl] at h
    obtain ⟨_, hthrow, -⟩ := bind_eq_ok h
    exact absurd hthrow throw_ne_ok
  | false =>
    simp only [hask, Bool.false_eq_true, if_false] at h
    cases he : s.entryAt l with
    | ok e =>
      rw [he] at h
      cases e with
      | file old => exact ⟨p, l, ⟨hp, hl, hask, takes_of_entryAt (.inr ⟨old, he⟩)⟩, (Except.ok.inj h).symm⟩
      | directory => exact absurd h throw_ne_ok
    | error e =>
      by_cases hnone : e = .notFound
      · rw [he, hnone] at h
        exact ⟨p, l, ⟨hp, hl, hask, takes_of_entryAt (.inl (hnone ▸ he))⟩, (Except.ok.inj h).symm⟩
      · rw [he] at h
        cases e <;> first | exact absurd rfl hnone | exact absurd h throw_ne_ok

theorem read_of_write (h : s.write name bytes = .ok t) : t.read name = .ok bytes := by
  obtain ⟨p, l, haccepts, rfl⟩ := write_eq_ok h
  exact read_of_lookup (haccepts.lookup_put bytes)

theorem readText_of_write {text : List Char} (h : s.write name (utf8 text) = .ok t) : t.readText name = .ok text := by
  simp [readText, read_of_write h, ofUtf8?_utf8, bind, Except.bind, pure, Except.pure]

theorem rename_eq_ok {old new : String} (h : s.rename old new = .ok t) : ∃ p q source target bytes,
    Path.ofName old = .ok p ∧ s.locate p = .ok source ∧ s.entryAt source = .ok (.file bytes) ∧
      s.Accepts new q target ∧
      t = if source = target then s.put target (.file bytes) else (s.put target (.file bytes)).clear source := by
  obtain ⟨p, hp, h⟩ := bind_eq_ok h
  obtain ⟨q, hq, h⟩ := bind_eq_ok h
  obtain ⟨source, hsource, h⟩ := bind_eq_ok h
  obtain ⟨target, htarget, h⟩ := bind_eq_ok h
  by_cases hdots : p.endsInDots || q.endsInDots
  · rw [if_pos hdots] at h
    obtain ⟨_, hthrow, -⟩ := bind_eq_ok h
    exact absurd hthrow throw_ne_ok
  rw [if_neg hdots] at h
  obtain ⟨e, he, h⟩ := bind_eq_ok h
  cases e with
  | directory => exact absurd h throw_ne_ok
  | file bytes =>
    by_cases hask : p.asksDirectory || q.asksDirectory
    · simp only [if_pos hask] at h
      obtain ⟨_, hthrow, -⟩ := bind_eq_ok h
      exact absurd hthrow throw_ne_ok
    simp only [if_neg hask] at h
    obtain ⟨moved, hmoved, h⟩ := bind_eq_ok h
    obtain ⟨q', target', haccepts, rfl⟩ := write_eq_ok hmoved
    obtain rfl := Except.ok.inj (hq.symm.trans haccepts.path)
    obtain rfl := Except.ok.inj (htarget.symm.trans haccepts.leads)
    exact ⟨p, q, source, target, bytes, hp, hsource, he, haccepts, (Except.ok.inj h).symm⟩

end Store

end LabelPress.Files
