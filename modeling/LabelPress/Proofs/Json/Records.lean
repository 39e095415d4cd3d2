import LabelPress.Json.Record
import LabelPress.Proofs.Json.Documents
import Mathlib.Data.List.Forall2
import Mathlib.Data.List.Nodup

/-!
# Records of which a part is left

A record that was written as an object is read back, also when some of its members are gone (`Record.Written.decode`).
What is gone has its usual value, and it takes nothing else with it.
-/

namespace LabelPress.Json

variable {α β : Type}

/-! ## Members that are gone -/

def Value.without (gone : String → Bool) : Value → Value
  | .object ms => .object (ms.filter fun m => !gone m.1)
  | v => v

/-- The value without the members at these paths, its own members and those of its members. -/
def Value.thinned (gone : List String → Bool) : Value → Value
  | .object ms =>
    (Value.object (ms.map fun m => (m.1, m.2.without fun name => gone [m.1, name]))).without fun name => gone [name]
  | v => v

@[simp] theorem Value.without_nothing (v : Value) : v.without (fun _ => false) = v := by
  cases v <;> simp [Value.without]

@[simp] theorem Value.thinned_nothing (v : Value) : v.thinned (fun _ => false) = v := by
  cases v <;> simp [Value.thinned]

/-! ## Looking up names -/

theorem lookup_eq_of_mem {es : List (String × β)} {e : String × β} (hnames : (es.map (·.1)).Nodup) (he : e ∈ es) :
    es.lookup e.1 = some e.2 := by
  induction es with
  | nil => cases he
  | cons d es ih =>
    rw [List.map_cons, List.nodup_cons] at hnames
    rcases List.mem_cons.mp he with rfl | he
    · exact List.lookup_cons_self
    · have hne : e.1 ≠ d.1 := fun h => hnames.1 (h ▸ List.mem_map_of_mem he)
      rw [List.lookup_cons, beq_eq_false_iff_ne.mpr hne]
      exact ih hnames.2 he

theorem lookup_eq_none_of_forall {es : List (String × β)} {name : String} (h : ∀ e ∈ es, e.1 ≠ name) :
    es.lookup name = none :=
  List.lookup_eq_none_iff.mpr fun e he => bne_iff_ne.mpr (h e he).symm

theorem lookup_filter_of_mem {es : List (String × β)} {e : String × β} (hnames : (es.map (·.1)).Nodup)
    (he : e ∈ es) (gone : String → Bool) :
    (es.filter fun e => !gone e.1).lookup e.1 = if gone e.1 then none else some e.2 := by
  split_ifs with hgone
  · apply lookup_eq_none_of_forall
    intro d hd hname
    rw [List.mem_filter, hname, hgone] at hd
    exact Bool.false_ne_true hd.2
  · apply lookup_eq_of_mem
    · exact hnames.sublist (List.filter_sublist.map _)
    · exact List.mem_filter.mpr ⟨he, by simp [hgone]⟩

namespace Record

variable {gone : String → Bool} {name : String} {d : Decoder α} {v : Value} {a : α} {r : Record α}
  {fields : List (String × Decoder Unit)} {met : List (String × Node)} {ms ns : List (String × Value)}

/-! ## Gathering members -/

theorem gather_field {check : Decoder Unit} {v : Node} (hfield : fields.lookup name = some check)
    (hmet : met.lookup name = none) (hv : check v = .ok ()) (unknown : Unknown) (ending : Option Fault)
    (ms : List (Scan String × Node)) :
    gather fields unknown ending met ((.good name, v) :: ms) = gather fields unknown ending ((name, v) :: met) ms := by
  rw [gather]
  simp only [Scan.good, bind, Except.bind, hfield, hmet, hv, Option.isSome_none, Bool.false_eq_true, if_false]

theorem exists_gather (hfields : ∀ m ∈ ms, ∃ check, fields.lookup m.1 = some check ∧ check m.2.node = .ok ())
    (hnames : (ms.map (·.1)).Nodup) (hmet : ∀ m ∈ ms, met.lookup m.1 = none) (unknown : Unknown) :
    ∃ all, gather fields unknown none met (memberNodes ms) = .ok all ∧
      ∀ name, all.lookup name = ((ms.lookup name).map Value.node).or (met.lookup name) := by
  induction ms generalizing met with
  | nil => exact ⟨met, rfl, fun _ => rfl⟩
  | cons m ms ih =>
    -- The first member is met, and what is met so far goes before the rest.
    obtain ⟨key, v⟩ := m
    rw [List.forall_mem_cons] at hfields hmet
    rw [List.map_cons, List.nodup_cons] at hnames
    obtain ⟨⟨check, hcheck, hv⟩, hfields⟩ := hfields
    have hnew : ∀ m ∈ ms, m.1 ≠ key := fun m hm h => hnames.1 (List.mem_map.mpr ⟨m, hm, h⟩)
    have hmet' : ∀ m ∈ ms, ((key, v.node) :: met).lookup m.1 = none := by
      intro m hm
      rw [List.lookup_cons, beq_eq_false_iff_ne.mpr (hnew m hm)]
      exact hmet.2 m hm
    obtain ⟨all, hall, hlookup⟩ := ih hfields hnames.2 hmet'
    refine ⟨all, ?_, fun name => ?_⟩
    · rw [memberNodes, gather_field hcheck hmet.1 hv, hall]
    · rw [hlookup, List.lookup_cons, List.lookup_cons]
      by_cases hname : name = key
      · simp [hname, lookup_eq_none_of_forall hnew]
      · simp only [beq_eq_false_iff_ne.mpr hname]

/-! ## Records as they are written -/

/-- A member is what a field reads. -/
def Fits (field : String × Decoder Unit) (m : String × Value) : Prop :=
  field.1 = m.1 ∧ field.2 m.2.node = .ok ()

/-- The members are the fields of the record in their order, and those that are not gone make `a`. -/
structure Written (gone : String → Bool) (r : Record α) (ms : List (String × Value)) (a : α) : Prop where
  fields : List.Forall₂ Fits r.fields ms
  build : ∀ look : Lookup, (∀ m ∈ ms, look m.1 = if gone m.1 then none else some m.2.node) → r.build look = .ok a

theorem Written.optional (hv : d v.node = .ok a) (gone : String → Bool) (name : String) (usual : α) :
    Written gone (.optional name d usual) [(name, v)] (if gone name then usual else a) where
  fields := .cons ⟨rfl, by simp only [hv, Except.map]⟩ .nil
  build look hlook := by
    have hname := hlook _ List.mem_cons_self
    cases hgone : gone name <;> simp [Record.optional, hname, hgone, hv]

theorem Written.required (hv : d v.node = .ok a) (gone : String → Bool) (name : String) (hgone : gone name = false) :
    Written gone (.required name d) [(name, v)] a where
  fields := .cons ⟨rfl, by simp only [hv, Except.map]⟩ .nil
  build look hlook := by
    have hname := hlook _ List.mem_cons_self
    simp [Record.required, hname, hgone, hv]

theorem Written.map (h : Written gone r ms a) (f : α → β) : Written gone (f <$> r) ms (f a) where
  fields := h.fields
  build look hlook := by
    change (r.build look).map f = .ok (f a)
    rw [h.build look hlook, Except.map]

theorem Written.seq {s : Record (α → β)} {f : α → β} (hs : Written gone s ms f) (hr : Written gone r ns a) :
    Written gone (s <*> r) (ms ++ ns) (f a) where
  fields := List.rel_append hs.fields hr.fields
  build look hlook := by
    rw [List.forall_mem_append] at hlook
    change (do let g ← s.build look; return g (← r.build look)) = _
    rw [hs.build look hlook.1, hr.build look hlook.2]
    rfl

theorem exists_check (h : List.Forall₂ Fits fields ms) (hnames : (ms.map (·.1)).Nodup) :
    ∀ m ∈ ms, ∃ check, fields.lookup m.1 = some check ∧ check m.2.node = .ok () := by
  induction h with
  | nil => simp
  | @cons f m fields ms hhead _ ih =>
    rw [List.map_cons, List.nodup_cons] at hnames
    rw [List.forall_mem_cons]
    refine ⟨⟨f.2, ?_, hhead.2⟩, fun n hn => ?_⟩
    · rw [← hhead.1]
      exact List.lookup_cons_self
    · have hne : n.1 ≠ f.1 := fun h => hnames.1 (List.mem_map.mpr ⟨n, hn, h.trans hhead.1⟩)
      rw [List.lookup_cons, beq_eq_false_iff_ne.mpr hne]
      exact ih hnames.2 n hn

/-- What is gone has its usual value, and the rest is what was written. -/
theorem Written.decode (h : Written gone r ms a) (hnames : (ms.map (·.1)).Nodup) (unknown : Unknown)
    (leftOver : Fault) :
    r.decoderWith unknown leftOver ((Value.object ms).without gone).node = .ok a := by
  have hfields : ∀ m ∈ ms.filter fun m => !gone m.1, ∃ check,
      r.fields.lookup m.1 = some check ∧ check m.2.node = .ok () :=
    fun m hm => exists_check h.fields hnames m (List.mem_of_mem_filter hm)
  have hleft : ((ms.filter fun m => !gone m.1).map (·.1)).Nodup := hnames.sublist (List.filter_sublist.map _)
  obtain ⟨all, hall, hlookup⟩ := exists_gather hfields hleft (fun _ _ => List.lookup_nil) unknown
  have hbuild : r.build (fun name => all.lookup name) = .ok a := by
    apply h.build
    intro m hm
    rw [hlookup, lookup_filter_of_mem hnames hm, List.lookup_nil, Option.or_none]
    split_ifs <;> rfl
  rw [Value.without, Value.node, decoderWith]
  simp only [hall]
  exact hbuild

theorem Written.decode_whole (h : Written (fun _ => false) r ms a) (hnames : (ms.map (·.1)).Nodup) (unknown : Unknown)
    (leftOver : Fault) :
    r.decoderWith unknown leftOver (Value.object ms).node = .ok a := by
  have hdecode := h.decode hnames unknown leftOver
  rwa [Value.without_nothing] at hdecode

/-! ## Texts -/

/-- Whatever is left of a written text is read as what was written, with the usual value for what is gone. -/
def Overlays (r : Record α) (write : α → Value) (reset : (List String → Bool) → α → α) : Prop :=
  ∀ a depth, (∀ gone, Json.decode r.decoder (((write a).thinned gone).render depth) = .ok (reset gone a)) ∧
    Json.decode r.decoder ((write a).render depth) = .ok a

theorem overlays_of_decoder {write : α → Value} {reset : (List String → Bool) → α → α}
    (h : ∀ gone a, r.decoder ((write a).thinned gone).node = .ok (reset gone a))
    (hnothing : ∀ a, reset (fun _ => false) a = a) : r.Overlays write reset := by
  intro a depth
  refine ⟨fun gone => ?_, ?_⟩
  · rw [decode_render, h]
  · have hwhole := h (fun _ => false) a
    rw [Value.thinned_nothing, hnothing] at hwhole
    rw [decode_render, hwhole]

end Record

end LabelPress.Json
