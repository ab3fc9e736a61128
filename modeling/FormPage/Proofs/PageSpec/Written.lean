import FormPage.Proofs.Json.Reading
import FormPage.Proofs.PageSpec.Fits

/-!
Descriptions as JSON values. The keys of every object ascend and all numbers are integers, so that
the text of such a value is read back; a description takes as many levels as it fits; and one whose
maps are in the order of their keys is read back from its value as it was.
-/

namespace FormPage

open Decode
open Json (ofWord optional omitted Ascending Faithful)

/-! ### Members -/

namespace Json

variable {k : String} {x : Option Json} {j : Json}

theorem forall_optional {P : Json → Prop} (h : ∀ v ∈ x, P v) : ∀ m ∈ optional k x, P m.2 := by
  intro m hm
  cases x with
  | none => cases hm
  | some v =>
    obtain rfl := List.mem_singleton.mp hm
    exact h v rfl

theorem keys_optional (k : String) (x : Option Json) :
    ((optional k x).map Prod.fst).Sublist [k] := by
  cases x with
  | none => exact List.nil_sublist _
  | some v => exact List.Sublist.refl _

/-- A string or a 32-bit number. -/
def Scalar (j : Json) : Prop := (∃ s, j = .str s) ∨ ∃ w, j = ofWord w

/-- An object of strings and 32-bit numbers whose keys ascend. -/
def Flat (j : Json) : Prop := ∃ ms, j = .obj ms ∧ Ascending ms ∧ ∀ m ∈ ms, Scalar m.2

theorem scalar_str (s : String) : Scalar (.str s) := .inl ⟨s, rfl⟩

theorem scalar_ofWord (w : Int32) : Scalar (ofWord w) := .inr ⟨w, rfl⟩

theorem scalar_of_mem_map {α : Type} {write : α → Json} (h : ∀ a, Scalar (write a))
    (o : Option α) : ∀ v ∈ o.map write, Scalar v := by
  intro v hv
  obtain ⟨a, -, rfl⟩ := Option.map_eq_some_iff.mp hv
  exact h a

theorem Scalar.faithful (h : j.Scalar) : j.Faithful := by
  rcases h with ⟨s, rfl⟩ | ⟨w, rfl⟩
  · exact .str s
  · have hlow := w.le_toInt
    have hhigh := w.toInt_lt
    exact .int ⟨by omega, by omega⟩

theorem Scalar.levels_eq (h : j.Scalar) : j.levels = 0 := by
  rcases h with ⟨s, rfl⟩ | ⟨w, rfl⟩ <;> simp [levels, ofWord]

/-- Members under some of the given keys, in their order. -/
theorem flat_obj (keys : List String) {ms : List (String × Json)}
    (hkeys : keys.Pairwise (· < ·)) (hsub : (ms.map Prod.fst).Sublist keys)
    (hms : ∀ m ∈ ms, Scalar m.2) : Flat (.obj ms) := ⟨ms, rfl, hkeys.sublist hsub, hms⟩

theorem Flat.faithful (h : j.Flat) : j.Faithful := by
  obtain ⟨ms, rfl, hkeys, hms⟩ := h
  exact .obj hkeys fun m hm => (hms m hm).faithful

theorem Flat.levels_le (h : j.Flat) : j.levels ≤ 1 := by
  obtain ⟨ms, rfl, -, hms⟩ := h
  exact levels_obj_le.mpr fun m hm => Nat.le_of_eq (hms m hm).levels_eq

end Json

open Json (Flat Scalar flat_obj scalar_str scalar_ofWord scalar_of_mem_map forall_optional
  keys_optional)

theorem Nudge.flat_encode (n : Nudge) : n.encode.Flat := by
  refine flat_obj ["left", "top"] (by decide) (.refl _) ?_
  simp [scalar_ofWord]

theorem BoxGeometry.flat_encode (b : BoxGeometry) : b.encode.Flat := by
  refine flat_obj ["height", "left", "top", "width"] (by decide) (.refl _) ?_
  simp [scalar_ofWord]

theorem Style.flat_encode (s : Style) : s.encode.Flat := by
  refine flat_obj ["display", "left", "position", "top"] (by decide) ?_ ?_
  · simp only [List.map_cons, List.map_append]
    exact ((keys_optional "left" _).append ((keys_optional "top" _).cons_cons "position")).cons_cons
      "display"
  · simp only [List.forall_mem_cons, List.forall_mem_append]
    exact ⟨⟨scalar_str _, forall_optional (scalar_of_mem_map scalar_ofWord _)⟩, scalar_str _,
      forall_optional (scalar_of_mem_map scalar_ofWord _)⟩

theorem Action.flat_encode (a : Action) : a.encode.Flat := by
  cases a with
  | addField field =>
    have hkeys := (keys_optional "field" (field.map Json.str)).cons_cons "action"
    refine flat_obj ["action", "field"] (by decide) hkeys ?_
    exact List.forall_mem_cons.mpr
      ⟨scalar_str _, forall_optional (scalar_of_mem_map scalar_str _)⟩
  | setRequest value =>
    refine flat_obj ["action", "value"] (by decide) (.refl _) ?_
    simp [scalar_str]
  | showHelp text =>
    refine flat_obj ["action", "text"] (by decide) (.refl _) ?_
    simp [scalar_str]
  | hideHelp =>
    refine flat_obj ["action"] (by decide) (.refl _) ?_
    simp [scalar_str]

theorem flat_encodeAttributes (m : OrderedMap String String) : (encodeAttributes m).Flat := by
  obtain ⟨ms, heq, hkeys, hmem⟩ := Json.ofMembers_eq (m.entries.map fun e => (e.1, .str e.2))
  refine ⟨ms, heq, hkeys, ?_⟩
  intro e he
  obtain ⟨e, -, rfl⟩ := List.mem_map.mp (hmem e he)
  exact scalar_str e.2

/-- Handlers are an object of actions. -/
theorem exists_encodeHandlers (m : OrderedMap Event Action) :
    ∃ ms, encodeHandlers m = .obj ms ∧ Ascending ms ∧ ∀ e ∈ ms, e.2.Flat := by
  obtain ⟨ms, heq, hkeys, hmem⟩ := Json.ofMembers_eq (m.entries.map fun e => (e.1.name, e.2.encode))
  refine ⟨ms, heq, hkeys, ?_⟩
  intro e he
  obtain ⟨e, -, rfl⟩ := List.mem_map.mp (hmem e he)
  exact e.2.flat_encode

theorem faithful_encodeHandlers (m : OrderedMap Event Action) : (encodeHandlers m).Faithful := by
  obtain ⟨ms, heq, hkeys, hms⟩ := exists_encodeHandlers m
  exact heq ▸ .obj hkeys fun e he => (hms e he).faithful

theorem levels_encodeHandlers (m : OrderedMap Event Action) : (encodeHandlers m).levels ≤ 2 := by
  obtain ⟨ms, heq, -, hms⟩ := exists_encodeHandlers m
  exact heq ▸ Json.levels_obj_le.mpr fun e he => (hms e he).levels_le

/-- The members of choices. -/
theorem PageOptions.exists_encode (o : PageOptions) {P : Json → Prop} (hstr : ∀ t, P (.str t))
    (hnudge : P o.nudge.encode) :
    ∃ ms, o.encode = .obj ms ∧ Ascending ms ∧ ∀ m ∈ ms, P m.2 := by
  have hkeys : ["balloon_class", "balloon_id", "default_field_name", "nudge",
      "request_field"].Pairwise (· < ·) := by decide
  refine ⟨_, rfl, hkeys, ?_⟩
  simp [hstr, hnudge]

theorem PageOptions.faithful_encode (o : PageOptions) : o.encode.Faithful := by
  obtain ⟨ms, heq, hkeys, hms⟩ := o.exists_encode .str o.nudge.flat_encode.faithful
  exact heq ▸ .obj hkeys hms

theorem PageOptions.levels_encode (o : PageOptions) : o.encode.levels ≤ 2 := by
  obtain ⟨ms, heq, -, hms⟩ := o.exists_encode (P := fun v => v.levels ≤ 1)
    (fun t => by simp [Json.levels]) o.nudge.flat_encode.levels_le
  exact heq ▸ Json.levels_obj_le.mpr hms

/-! ### Maps in the order of their keys -/

/-- Entries that are written in the order of their keys are read one after the other. -/
theorem OrderedMap.reads_members {κ ν : Type} [DecidableEq κ] {name : κ → String}
    {m : OrderedMap κ ν} (h : m.Ascending name) {f : ν → Json}
    {g : OrderedMap κ ν → String × Json → Decoded (OrderedMap κ ν)}
    (hstep : ∀ m (e : κ × ν), g m (name e.1, f e.2) = .ok (m.insert e.1 e.2)) :
    ∃ ms, Json.ofMembers (m.entries.map fun e => (name e.1, f e.2)) = .obj ms ∧
      Reads g ms ∅ m := by
  have hkeys : Json.Ascending (m.entries.map fun e => (name e.1, f e.2)) := by
    rw [Json.Ascending, List.map_map]
    exact h
  refine ⟨_, Json.ofMembers_of_ascending hkeys, ?_⟩
  exact (foldlM_insert hstep m.entries ∅).trans (congrArg Except.ok m.ofList_entries)

theorem Decode.attributes_encode_of_ascending {m : OrderedMap String String}
    (h : m.Ascending id) : attributes (encodeAttributes m) = .ok m := by
  obtain ⟨ms, hms, hread⟩ := OrderedMap.reads_members h (f := Json.str)
    (g := fun m e => (string e.2).map (m.insert e.1)) fun _ _ => rfl
  rw [encodeAttributes]
  exact (congrArg attributes hms).trans hread

theorem Decode.handlers_encode_of_ascending {m : OrderedMap Event Action}
    (h : m.Ascending Event.name) : handlers (encodeHandlers m) = .ok m := by
  obtain ⟨ms, hms, hread⟩ := OrderedMap.reads_members h (f := Action.encode) handler_encode
  rw [encodeHandlers]
  exact (congrArg handlers hms).trans hread

/-! ### Nodes -/

namespace NodeSpec

theorem forall_omitted {P : Json → Prop} {b : Bool} {v : Json} (h : b = false → P v) :
    ∀ w ∈ omitted b v, P w := by
  intro w hw
  cases b with
  | true => cases hw
  | false => exact Option.some.inj hw ▸ h rfl

/-- The members of a node, of which those that are left out need not be looked at. -/
theorem exists_encode (s : NodeSpec) {P : Json → Prop} (hstr : ∀ t, P (.str t))
    (hattributes : s.attributes.isEmpty = false → P (encodeAttributes s.attributes))
    (hchildren : s.children.isEmpty = false → P (.arr (encodeAll s.children)))
    (hgeometry : ∀ b, s.geometry = some b → P b.encode)
    (hon : s.on.isEmpty = false → P (encodeHandlers s.on))
    (hstyle : s.style.isDefault = false → P s.style.encode) :
    ∃ ms, s.encode = .obj ms ∧ Ascending ms ∧ ∀ m ∈ ms, P m.2 := by
  have hkeys : ["attributes", "children", "geometry", "on", "style", "tag", "text"].Pairwise
      (· < ·) := by decide
  refine ⟨_, encode_eq s, hkeys.sublist ?_, ?_⟩
  · simp only [List.map_append, List.map_cons]
    exact ((((keys_optional "attributes" _).append (keys_optional "children" _)).append
      (keys_optional "geometry" _)).append (keys_optional "on" _)).append
      (keys_optional "style" _) |>.append ((keys_optional "text" _).cons_cons "tag")
  · simp only [List.forall_mem_append, List.forall_mem_cons]
    refine ⟨⟨⟨⟨⟨forall_optional (forall_omitted hattributes),
      forall_optional (forall_omitted hchildren)⟩, forall_optional ?_⟩,
      forall_optional (forall_omitted hon)⟩, forall_optional (forall_omitted hstyle)⟩,
      hstr _, forall_optional ?_⟩
    · intro v hv
      obtain ⟨b, hb, rfl⟩ := Option.map_eq_some_iff.mp hv
      exact hgeometry b hb
    · intro v hv
      obtain ⟨text, -, rfl⟩ := Option.map_eq_some_iff.mp hv
      exact hstr text

theorem mem_encodeAll {ss : List NodeSpec} {j : Json} (h : j ∈ encodeAll ss) :
    ∃ s ∈ ss, j = s.encode := by
  induction ss with
  | nil => cases h
  | cons s rest ih =>
    rw [encodeAll] at h
    rcases List.mem_cons.mp h with h | h
    · exact ⟨s, List.mem_cons_self, h⟩
    · obtain ⟨t, ht, h⟩ := ih h
      exact ⟨t, List.mem_cons_of_mem s ht, h⟩

theorem faithful_of_children (s : NodeSpec) (h : ∀ c ∈ s.children, c.encode.Faithful) :
    s.encode.Faithful := by
  have hchildren : (Json.arr (encodeAll s.children)).Faithful := by
    refine .arr ?_
    intro j hj
    obtain ⟨c, hc, rfl⟩ := mem_encodeAll hj
    exact h c hc
  obtain ⟨ms, heq, hkeys, hms⟩ := s.exists_encode .str
    (fun _ => (flat_encodeAttributes s.attributes).faithful) (fun _ => hchildren)
    (fun b _ => b.flat_encode.faithful) (fun _ => faithful_encodeHandlers s.on)
    (fun _ => s.style.flat_encode.faithful)
  exact heq ▸ .obj hkeys hms

mutual

theorem faithful_encode : ∀ s : NodeSpec, s.encode.Faithful
  | ⟨_, _, _, _, _, _, children⟩ => faithful_of_children _ (faithful_encodeAll children)

theorem faithful_encodeAll : ∀ ss : List NodeSpec, ∀ c ∈ ss, c.encode.Faithful
  | [] => by simp
  | s :: rest => List.forall_mem_cons.mpr ⟨faithful_encode s, faithful_encodeAll rest⟩

end

/-- A description takes as many levels as it fits. -/
theorem Fits.levels_encode {k : Nat} {s : NodeSpec} (h : Fits 0 k s) : s.encode.levels ≤ k := by
  induction h with
  | @mk k s top below _ ih =>
    have hchildren : s.children.isEmpty = false →
        (Json.arr (encodeAll s.children)).levels ≤ k := by
      intro hne
      have hk := below (by rintro hnil; rw [hnil] at hne; cases hne)
      obtain ⟨k, rfl⟩ : ∃ i, k = i + 1 := ⟨k - 1, by omega⟩
      refine Json.levels_arr_le.mpr ?_
      intro j hj
      obtain ⟨c, hc, rfl⟩ := mem_encodeAll hj
      exact ih c hc
    obtain ⟨ms, heq, -, hms⟩ := s.exists_encode (P := fun v => v.levels ≤ k)
      (fun t => by simp [Json.levels])
      (fun hne => Nat.le_trans (flat_encodeAttributes s.attributes).levels_le
        (top.attributes_le hne).1)
      hchildren
      (fun b hb => Nat.le_trans b.flat_encode.levels_le
        (top.geometry_le (by rw [hb]; exact Option.some_ne_none b)))
      (fun hne => Nat.le_trans (levels_encodeHandlers s.on) (top.on_le hne))
      (fun hne => Nat.le_trans s.style.flat_encode.levels_le (top.style_le hne))
    exact heq ▸ Json.levels_obj_le.mpr hms

/-! ### Reading back exactly -/

theorem decodeAll_encodeAll_of_forall {ss : List NodeSpec}
    (h : ∀ c ∈ ss, decode c.encode = .ok c) : decodeAll (encodeAll ss) = .ok ss := by
  induction ss with
  | nil => rfl
  | cons s rest ih =>
    obtain ⟨hs, hrest⟩ := List.forall_mem_cons.mp h
    rw [encodeAll, decodeAll, hs, ih hrest]
    rfl

/-- A description whose maps are in the order of their keys is read back as it was. -/
theorem Fits.decode_encode_eq {spare k : Nat} {s : NodeSpec} (h : Fits spare k s) :
    decode s.encode = .ok s := by
  induction h with
  | @mk k s top _ _ ih =>
    have hchildren := decodeAll_encodeAll_of_forall ih
    obtain ⟨children, hread, hsame⟩ := decodeAll_encodeAll s.children
    obtain rfl : s.children = children := Except.ok.inj (hchildren.symm.trans hread)
    cases s
    exact decode_encode_of_parts _ (attributes_encode_of_ascending top.attributes) (.refl _)
      (handlers_encode_of_ascending top.on) (.refl _) hchildren hsame

end NodeSpec

/-! ### Pages -/

namespace PageSpec

open NodeSpec (FitsAll encodeAll mem_encodeAll)

variable {p : PageSpec} {k : Nat}

/-- The members of a page. -/
theorem exists_encode (p : PageSpec) {P : Json → Prop} (hstr : ∀ t, P (.str t))
    (hbody : P (.arr (encodeAll p.body))) (hoptions : P p.options.encode) :
    ∃ ms, p.encode = .obj ms ∧ Ascending ms ∧ ∀ m ∈ ms, P m.2 := by
  have hkeys : ["body", "options", "title"].Pairwise (· < ·) := by decide
  refine ⟨_, rfl, hkeys.sublist ?_, ?_⟩
  · exact ((keys_optional "title" _).cons_cons "options").cons_cons "body"
  · refine List.forall_mem_cons.mpr ⟨hbody, List.forall_mem_cons.mpr ⟨hoptions, ?_⟩⟩
    exact forall_optional fun v hv => by
      obtain ⟨title, -, rfl⟩ := Option.map_eq_some_iff.mp hv
      exact hstr title

theorem faithful_encode (p : PageSpec) : p.encode.Faithful := by
  have hbody : (Json.arr (encodeAll p.body)).Faithful := by
    refine .arr ?_
    intro j hj
    obtain ⟨c, -, rfl⟩ := mem_encodeAll hj
    exact c.faithful_encode
  obtain ⟨ms, heq, hkeys, hms⟩ := p.exists_encode .str hbody p.options.faithful_encode
  exact heq ▸ .obj hkeys hms

/-- A page takes one level more than its nodes, and at least three. -/
theorem levels_encode (h : FitsAll 0 k p.body) (hk : 2 ≤ k) : p.encode.levels ≤ k + 1 := by
  obtain ⟨k, rfl⟩ : ∃ i, k = i + 1 := ⟨k - 1, by omega⟩
  have hbody : (Json.arr (encodeAll p.body)).levels ≤ k + 1 := by
    refine Json.levels_arr_le.mpr ?_
    intro j hj
    obtain ⟨c, hc, rfl⟩ := mem_encodeAll hj
    exact (h.2 c hc).levels_encode
  obtain ⟨ms, heq, -, hms⟩ := p.exists_encode (P := fun v => v.levels ≤ k + 1)
    (fun t => by simp [Json.levels]) hbody (Nat.le_trans p.options.levels_encode hk)
  exact heq ▸ Json.levels_obj_le.mpr hms

/-- A page whose maps are in the order of their keys is read back as it was. -/
theorem decode_encode_eq {spare : Nat} (h : FitsAll spare k p.body) : decode p.encode = .ok p := by
  have hbody : NodeSpec.decodeChildren (.arr (encodeAll p.body)) = .ok p.body := by
    rw [NodeSpec.decodeChildren,
      NodeSpec.decodeAll_encodeAll_of_forall fun c hc => (h.2 c hc).decode_encode_eq]
  have htitle : Reads PageSpec.record.member (Json.optional "title" (p.title.map .str))
      ⟨none, p.options, p.body⟩ p :=
    .optional (f := fun x => (⟨x, p.options, p.body⟩ : PageSpec))
      (fun title => Record.member_of_field (optional_eq_some (string_str title) (by simp))
        (fun _ => rfl) (by decide) rfl) rfl
  refine Record.decode_of_reads ?_ rfl
  exact .cons (Record.member_of_field hbody (fun _ => rfl) (by decide) rfl) <|
    .cons (Record.member_of_field (PageOptions.decode_encode p.options) (fun _ => rfl)
      (by decide) rfl) htitle

end PageSpec

end FormPage
