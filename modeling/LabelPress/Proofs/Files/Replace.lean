import LabelPress.Proofs.Files.Places
import LabelPress.Proofs.Text.Fields

/-!
# Replacing files

A temporary name is a name with an ending. It leads to another place than the name itself (`exists_locate`), so
that a file is replaced as a whole (`read_of_replace_ok`) or stays as it was (`read_of_replace_error`).
-/

namespace LabelPress.Files

open Text

variable {here : Location} {last ending name : String}

/-- What makes a temporary name of a name. -/
structure IsEnding (ending : String) : Prop where
  no_slash : '/' ∉ ending.toList
  long : 2 < ending.length

/-! ## Keys -/

namespace Location

def below (l : Location) (step : String) : Location := ⟨l.steps ++ [step]⟩

theorem length_key_below (l : Location) (step : String) :
    (l.below step).key.length = (if l.steps = [] then 0 else l.key.length + 1) + step.length := by
  by_cases h : l.steps = []
  · simp [key, below, h]
  · have hslash : "/".length = 1 := rfl
    rw [if_neg h, key, below, String.intercalate_append_of_ne_nil h (List.cons_ne_nil _ _), key,
      String.intercalate_singleton, String.length_append, String.length_append, hslash]

theorem length_key_add_le (l : Location) (step : String) :
    l.key.length + step.length ≤ (l.below step).key.length := by
  rw [length_key_below]
  split_ifs with h
  · simp [key, h]
  · omega

theorem length_key_below_append (l : Location) (last ending : String) :
    (l.below (last ++ ending)).key.length = (l.below last).key.length + ending.length := by
  rw [length_key_below, length_key_below, String.length_append, Nat.add_assoc]

theorem length_key_dropLast_le (l : Location) : (mk l.steps.dropLast).key.length ≤ l.key.length := by
  obtain ⟨steps⟩ := l
  rcases List.eq_nil_or_concat' steps with rfl | ⟨init, step, rfl⟩
  · exact Nat.le_refl _
  · have hle := length_key_add_le ⟨init⟩ step
    rw [List.dropLast_concat]
    exact Nat.le_trans (Nat.le_add_right _ _) hle

theorem length_key_step_le (l : Location) (step : String) : (l.step step).key.length ≤ (l.below step).key.length := by
  have hle := length_key_add_le l step
  rw [Location.step]
  split_ifs with hdot hdots
  · omega
  · rw [above]
    split_ifs
    · exact Nat.zero_le _
    · exact Nat.le_of_eq (by rw [hdots, below])
    · exact Nat.le_trans (length_key_dropLast_le l) (by omega)
  · exact Nat.le_refl _

theorem step_of_long (h : 2 < last.length) (l : Location) : l.step last = l.below last := by
  have hdot : last ≠ "." := by
    rintro rfl
    exact absurd h (by decide)
  have hdots : last ≠ ".." := by
    rintro rfl
    exact absurd h (by decide)
  rw [Location.step, if_neg hdot, if_neg hdots, below]

theorem length_key_step_lt (h : IsEnding ending) (l : Location) (last : String) :
    (l.step last).key.length < (l.step (last ++ ending)).key.length := by
  have hlong := h.long
  have hle := length_key_step_le l last
  have happend : 2 < (last ++ ending).length := by
    rw [String.length_append]
    omega
  rw [step_of_long happend, length_key_below_append]
  omega

theorem length_key_lt (h : IsEnding ending) (l : Location) : l.key.length < (l.step ending).key.length := by
  have hlong := h.long
  have hle := length_key_add_le l ending
  rw [step_of_long hlong]
  omega

end Location

/-! ## Temporary names -/

def stepsOf (name : String) : List String := ((fields '/' name.toList).filter (· ≠ [])).map String.ofList

theorem ofName_eq_ok {p : Path} (h : Path.ofName name = .ok p) : name.toList ≠ [] ∧
    p.start = (if name.toList.head? = some '/' then .root else .start) ∧
      p.way = (stepsOf name).dropLast ∧ p.last = (stepsOf name).getLast?.getD "." := by
  unfold Path.ofName at h
  simp only at h
  by_cases hnul : name.toList.contains '\x00'
  · rw [if_pos hnul] at h
    simp at h
  by_cases hnil : name.toList = []
  · rw [if_neg hnul, if_pos hnil] at h
    simp at h
  by_cases hlong : longestName < name.utf8ByteSize
  · rw [if_neg hnul, if_neg hnil, if_pos hlong] at h
    simp at h
  rw [if_neg hnul, if_neg hnil, if_neg hlong] at h
  obtain rfl := Except.ok.inj h
  exact ⟨hnil, rfl, rfl, rfl⟩

theorem stepsOf_append (h : '/' ∉ ending.toList) (hne : ending ≠ "") (name : String) :
    (∃ way last, stepsOf name = way ++ [last] ∧ stepsOf (name ++ ending) = way ++ [last ++ ending]) ∨
      stepsOf (name ++ ending) = stepsOf name ++ [ending] := by
  obtain ⟨fs, f, hname, happend⟩ := exists_fields_append h name.toList
  rw [stepsOf, stepsOf, String.toList_append, hname, happend]
  by_cases hf : f = []
  · subst hf
    have hlist : ending.toList ≠ [] := by simpa using hne
    right
    simp [List.filter_append, hlist]
  · left
    refine ⟨(fs.filter (· ≠ [])).map String.ofList, String.ofList f, ?_, ?_⟩
    · simp [List.filter_append, hf]
    · simp [List.filter_append, hf, String.ofList_append]

variable {s left : Store} {bytes : List UInt8} {p t : Path} {l : Location}

theorem exists_locate (h : IsEnding ending) (hp : Path.ofName name = .ok p) (ht : Path.ofName (name ++ ending) = .ok t)
    (hl : s.locate t = .ok l) : ∃ place, s.locate p = .ok place ∧ place.key.length < l.key.length := by
  obtain ⟨hnil, hpstart, hpway, hplast⟩ := ofName_eq_ok hp
  obtain ⟨-, htstart, htway, htlast⟩ := ofName_eq_ok ht
  have hstart : t.start = p.start := by
    rw [hpstart, htstart, String.toList_append, List.head?_append_of_ne_nil _ hnil]
  have hne : ending ≠ "" := by
    rintro rfl
    exact absurd h.long (by decide)
  obtain ⟨here, hwalk, rfl⟩ := Store.locate_eq_ok_iff.mp hl
  rw [htway, hstart] at hwalk
  rcases stepsOf_append h.no_slash hne name with ⟨way, last, hsteps, hsteps'⟩ | hsteps
  · rw [hsteps', List.dropLast_concat] at hwalk
    rw [hsteps, List.dropLast_concat] at hpway
    rw [hsteps, List.getLast?_concat, Option.getD_some] at hplast
    rw [hsteps', List.getLast?_concat, Option.getD_some] at htlast
    refine ⟨here.step last, Store.locate_eq_ok_iff.mpr ⟨here, hpway ▸ hwalk, by rw [hplast]⟩, ?_⟩
    rw [htlast]
    exact Location.length_key_step_lt h here last
  · -- The name ends in a slash, and leads to where the temporary one has its last step.
    rw [hsteps, List.dropLast_concat] at hwalk
    rw [hsteps, List.getLast?_concat, Option.getD_some] at htlast
    refine ⟨here, Store.locate_eq_ok_iff.mpr ?_, htlast ▸ Location.length_key_lt h here⟩
    rcases List.eq_nil_or_concat' (stepsOf name) with hnone | ⟨way, last, hsome⟩
    · rw [hnone] at hwalk hpway hplast
      obtain rfl := Except.ok.inj hwalk
      exact ⟨p.start, by rw [hpway]; rfl, by rw [hplast]; rfl⟩
    · rw [hsome, List.dropLast_concat] at hpway
      rw [hsome, List.getLast?_concat, Option.getD_some] at hplast
      rw [hsome, List.foldlM_append] at hwalk
      obtain ⟨before, hbefore, hlast⟩ := bind_eq_ok hwalk
      obtain ⟨_, henter, hpure⟩ := bind_eq_ok hlast
      obtain ⟨rfl, -⟩ := Store.enter_eq_ok_iff.mp henter
      exact ⟨before, hpway ▸ hbefore, by rw [hplast]; exact (Except.ok.inj hpure).symm⟩

/-! ## Replacing -/

namespace Store

theorem lookup_put_temporary (h : IsEnding ending) (ht : s.Accepts (name ++ ending) t l) (e : Entry) :
    (s.put l e).lookup name = s.lookup name := by
  cases hp : Path.ofName name with
  | error e => simp [lookup, hp, bind, Except.bind]
  | ok p =>
    obtain ⟨place, hplace, hkey⟩ := exists_locate h hp ht.path ht.leads
    exact lookup_congr hp hplace ((ht.takes.keeps_put e).locate hplace)
      (entryAt_put_of_ne (fun heq => Nat.ne_of_lt hkey (congrArg String.length heq)) s e)

/-- A file is written under the temporary name, or nothing happens. What was written is moved, or it stays. -/
theorem replace_cases {temporary : String} {r : Except Failure Unit} (h : s.replace temporary name bytes = (left, r)) :
    ((∃ f, r = .error f) ∧ (left = s ∨ s.write temporary bytes = .ok left)) ∨
      r = .ok () ∧ ∃ written, s.write temporary bytes = .ok written ∧ written.rename temporary name = .ok left := by
  rw [replace] at h
  cases hwrite : s.write temporary bytes with
  | error e =>
    rw [hwrite] at h
    obtain ⟨rfl, rfl⟩ := Prod.mk.inj h
    exact .inl ⟨⟨_, rfl⟩, .inl rfl⟩
  | ok written =>
    rw [hwrite] at h
    cases hrename : written.rename temporary name with
    | error e =>
      simp only [hrename] at h
      obtain ⟨rfl, rfl⟩ := Prod.mk.inj h
      exact .inl ⟨⟨_, rfl⟩, .inr rfl⟩
    | ok moved =>
      simp only [hrename] at h
      obtain ⟨rfl, rfl⟩ := Prod.mk.inj h
      exact .inr ⟨rfl, written, rfl, hrename⟩

theorem read_of_replace_error (h : IsEnding ending) {f : Failure}
    (herror : s.replace (name ++ ending) name bytes = (left, .error f)) : left.read name = s.read name := by
  rcases replace_cases herror with ⟨-, rfl | hwrite⟩ | ⟨hok, -⟩
  · rfl
  · obtain ⟨t, l, ht, rfl⟩ := write_eq_ok hwrite
    exact read_congr (lookup_put_temporary h ht _)
  · cases hok

theorem rename_temporary (h : IsEnding ending) (ht : s.Accepts (name ++ ending) t l)
    (hrename : (s.put l (.file bytes)).rename (name ++ ending) name = .ok left) :
    ∃ q place, (s.put l (.file bytes)).Accepts name q place ∧ place.key ≠ l.key ∧
      ((s.put l (.file bytes)).put place (.file bytes)).Takes l ∧
      left = ((s.put l (.file bytes)).put place (.file bytes)).clear l := by
  obtain ⟨t', q, source, target, content, ht', hsource, hcontent, haccepts, rfl⟩ := rename_eq_ok hrename
  obtain rfl := Except.ok.inj (ht.path.symm.trans ht')
  obtain rfl := Except.ok.inj ((ht.put_file bytes).leads.symm.trans hsource)
  rw [ht.takes.entryAt_put] at hcontent
  obtain rfl : bytes = content := by simpa using hcontent
  obtain ⟨place, hplace, hkey⟩ := exists_locate h haccepts.path ht.path ht.leads
  obtain rfl := Except.ok.inj (((ht.takes.keeps_put (.file bytes)).locate hplace).symm.trans haccepts.leads)
  have hne : place.key ≠ l.key := fun heq => Nat.ne_of_lt hkey (congrArg String.length heq)
  have hsame : l ≠ place := fun heq => hne (by rw [heq])
  have hmoved : ((s.put l (.file bytes)).put place (.file bytes)).Takes l := by
    apply takes_of_entryAt
    rw [entryAt_put_of_ne hne.symm, ht.takes.entryAt_put]
    exact .inr ⟨bytes, rfl⟩
  exact ⟨q, place, haccepts, hne, hmoved, if_neg hsame⟩

theorem lookup_of_rename (h : IsEnding ending) (ht : s.Accepts (name ++ ending) t l)
    (hrename : (s.put l (.file bytes)).rename (name ++ ending) name = .ok left) :
    left.lookup name = .ok (.file bytes) := by
  obtain ⟨q, place, haccepts, hne, hmoved, rfl⟩ := rename_temporary h ht hrename
  -- The temporary file is cleared away, which no directory on the way to the new one feels.
  refine lookup_of_file haccepts.path (hmoved.keeps_clear.locate (haccepts.put_file bytes).leads) ?_ haccepts.asks_file
  rw [entryAt_clear_of_ne hne, haccepts.takes.entryAt_put]

theorem read_of_replace_ok (h : IsEnding ending)
    (hok : s.replace (name ++ ending) name bytes = (left, .ok ())) : left.read name = .ok bytes := by
  rcases replace_cases hok with ⟨⟨f, hf⟩, -⟩ | ⟨-, written, hwrite, hrename⟩
  · cases hf
  · obtain ⟨t, l, ht, rfl⟩ := write_eq_ok hwrite
    exact read_of_lookup (lookup_of_rename h ht hrename)

end Store

end LabelPress.Files
