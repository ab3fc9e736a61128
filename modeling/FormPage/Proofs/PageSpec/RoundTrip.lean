import FormPage.PageSpec.Decode
import FormPage.PageSpec.Encode
import FormPage.Proofs.Json.Members
import FormPage.Proofs.OrderedMap
import Mathlib.Data.List.Forall2

/-!
Reading back what was written. Every value of the page format is read back from its JSON value; what
is left out there is what reading starts from. Only the order of attributes and handlers may change,
since the members of an object stand in the order of their keys (`decode_encode_same`).
-/

namespace FormPage

open Decode
open Json (ofWord omitted)

/-! ### Descriptions up to the order of attributes and handlers -/

/-- Two descriptions differ at most in the order of attributes and handlers. -/
inductive NodeSpec.Same : NodeSpec → NodeSpec → Prop
  | mk {s t : NodeSpec} (tag : s.tag = t.tag) (attributes : s.attributes.Same t.attributes)
      (text : s.text = t.text) (style : s.style = t.style) (geometry : s.geometry = t.geometry)
      (on : s.on.Same t.on) (children : List.Forall₂ NodeSpec.Same s.children t.children) :
    NodeSpec.Same s t

/-- Two page documents differ at most in the order of attributes and handlers. -/
structure PageSpec.Same (p q : PageSpec) : Prop where
  title : p.title = q.title
  options : p.options = q.options
  body : List.Forall₂ NodeSpec.Same p.body q.body

/-! ### Reading members one after the other -/

section Reads

variable {σ : Type} {step : σ → String × Json → Decoded σ} {st st' st'' : σ}
  {k : String} {m : String × Json} {ms ms' : List (String × Json)}

/-- Reading members leads from one state to another. -/
def Decode.Reads (step : σ → String × Json → Decoded σ) (ms : List (String × Json))
    (st st' : σ) : Prop :=
  ms.foldlM step st = .ok st'

theorem Decode.Reads.nil : Reads step [] st st := rfl

theorem Decode.Reads.cons (hm : step st m = .ok st') (h : Reads step ms st' st'') :
    Reads step (m :: ms) st st'' := by
  rw [Reads, List.foldlM_cons, hm]
  exact h

theorem Decode.Reads.append (h : Reads step ms st st') (h' : Reads step ms' st' st'') :
    Reads step (ms ++ ms') st st'' := by
  rw [Reads, List.foldlM_append, h]
  exact h'

/-- A member that is there only if it has a value. -/
theorem Decode.Reads.optional {β : Type} {x : Option β} {write : β → Json} {f : Option β → σ}
    (hsome : ∀ y, step st (k, write y) = .ok (f (some y))) (hnone : f none = st) :
    Reads step (Json.optional k (x.map write)) st (f x) := by
  cases x with
  | none => rw [hnone]; exact .nil
  | some y => exact .cons (hsome y) .nil

/-- A member that is there only if its value is not the default one. -/
theorem Decode.Reads.omitted {b : Bool} {v : Json} (hkept : step st (k, v) = .ok st')
    (hdefault : b = true → st' = st) : Reads step (Json.optional k (omitted b v)) st st' := by
  cases b with
  | false => exact .cons hkept .nil
  | true => rw [hdefault rfl]; exact .nil

end Reads

/-! ### Records -/

section Records

variable {σ α β : Type} {r : Record σ α} {st st' : σ} {k : String} {v : Json}
  {ms : List (String × Json)}

/-- Reading a member whose field is read. -/
theorem Decode.Record.member_of_field {x : β} {read : Json → Decoded β} {f : β → σ}
    (hread : read v = .ok x) (hset : ∀ v, r.set st k v = (read v).map f) (hk : k ∈ r.fields)
    (hst : f x = st') : r.member st (k, v) = .ok st' := by
  rw [member, if_pos hk, hset, hread, ← hst]
  rfl

theorem Decode.Record.decode_of_reads {a : α} (h : Reads r.member ms r.start st)
    (hfinish : r.finish st = .ok a) : r.decode (.obj ms) = .ok a := by
  have hfold : ms.foldlM r.member r.start = .ok st := h
  simp only [Record.decode, Record.ofMembers, hfold, bind, Except.bind, hfinish]
  rfl

end Records

/-! ### Names, numbers and strings -/

theorem Decode.word_ofWord (x : Int32) : word (ofWord x) = .ok x := by
  rw [ofWord, word, Text.word32?_toInt]

/-- A value that is not null is read where it may be absent as it is read where it may not. -/
theorem Decode.optional_eq_some {β : Type} {read : Json → Decoded β} {v : Json} {x : β}
    (hread : read v = .ok x) (hv : v ≠ .null) : optional read v = .ok (some x) := by
  rw [optional.eq_2 read v hv, hread]
  rfl

theorem Decode.string_str (s : String) : string (.str s) = .ok s := rfl

theorem Tag.decode_name (t : Tag) : Tag.decode (.str t.name) = .ok t := by cases t <;> rfl

theorem Display.decode_name (x : Display) : Display.decode (.str x.name) = .ok x := by
  cases x <;> rfl

theorem Position.decode_name (x : Position) : Position.decode (.str x.name) = .ok x := by
  cases x <;> rfl

theorem Event.named_name (e : Event) : named Event.all Event.name e.name = .ok e := by
  cases e <;> rfl

theorem Event.name_injective {e e' : Event} (h : e.name = e'.name) : e = e' := by
  have hsame := Event.named_name e
  rw [h, Event.named_name] at hsame
  exact (Except.ok.inj hsame).symm

/-! ### Shifts, boxes, styles, choices and actions -/

theorem Nudge.decode_encode (n : Nudge) : Nudge.decode n.encode = .ok n :=
  Record.decode_of_reads
    (.cons (Record.member_of_field (word_ofWord n.left) (fun _ => rfl) (by decide) rfl) <|
      .cons (Record.member_of_field (word_ofWord n.top) (fun _ => rfl) (by decide) rfl) .nil) rfl

theorem BoxGeometry.decode_encode (b : BoxGeometry) : BoxGeometry.decode b.encode = .ok b :=
  Record.decode_of_reads
    (.cons (Record.member_of_field (word_ofWord b.height) (fun _ => rfl) (by decide) rfl) <|
      .cons (Record.member_of_field (word_ofWord b.left) (fun _ => rfl) (by decide) rfl) <|
      .cons (Record.member_of_field (word_ofWord b.top) (fun _ => rfl) (by decide) rfl) <|
      .cons (Record.member_of_field (word_ofWord b.width) (fun _ => rfl) (by decide) rfl) .nil) rfl

theorem Style.decode_encode (s : Style) : Style.decode s.encode = .ok s := by
  have hdisplay := Display.decode_name s.display
  have hposition := Position.decode_name s.position
  have hleft : Reads Style.record.member (Json.optional "left" (s.left.map ofWord))
      ⟨s.display, .static, none, none⟩ ⟨s.display, .static, s.left, none⟩ :=
    .optional (f := fun x => (⟨s.display, .static, x, none⟩ : Style))
      (fun x => Record.member_of_field (optional_eq_some (word_ofWord x) nofun) (fun _ => rfl)
        (by decide) rfl) rfl
  have htop : Reads Style.record.member (Json.optional "top" (s.top.map ofWord))
      ⟨s.display, s.position, s.left, none⟩ s :=
    .optional (f := fun x => (⟨s.display, s.position, s.left, x⟩ : Style))
      (fun x => Record.member_of_field (optional_eq_some (word_ofWord x) nofun) (fun _ => rfl)
        (by decide) rfl) rfl
  exact Record.decode_of_reads
    (.append (.cons (Record.member_of_field hdisplay (fun _ => rfl) (by decide) rfl) hleft)
      (.cons (Record.member_of_field hposition (fun _ => rfl) (by decide) rfl) htop)) rfl

theorem PageOptions.decode_encode (o : PageOptions) : PageOptions.decode o.encode = .ok o := by
  have hnudge := Nudge.decode_encode o.nudge
  exact Record.decode_of_reads
    (.cons (Record.member_of_field (string_str o.balloonClass) (fun _ => rfl) (by decide) rfl) <|
      .cons (Record.member_of_field (string_str o.balloonId) (fun _ => rfl) (by decide) rfl) <|
      .cons (Record.member_of_field (string_str o.defaultField) (fun _ => rfl) (by decide) rfl) <|
      .cons (Record.member_of_field hnudge (fun _ => rfl) (by decide) rfl) <|
      .cons (Record.member_of_field (string_str o.requestField) (fun _ => rfl) (by decide) rfl)
        .nil) rfl

theorem Action.decode_encode (a : Action) : Action.decode a.encode = .ok a := by
  cases a with
  | addField field => cases field <;> rfl
  | setRequest value => rfl
  | showHelp text => rfl
  | hideHelp => rfl

/-! ### Attributes and handlers -/

/-- A map that was written as an object is read back from it. -/
theorem OrderedMap.exists_same_of_members {κ ν : Type} [DecidableEq κ] (m : OrderedMap κ ν)
    {f : κ × ν → String × Json} {g : OrderedMap κ ν → String × Json → Decoded (OrderedMap κ ν)}
    (hkey : ∀ e e', (f e).1 = (f e').1 → e.1 = e'.1)
    (hstep : ∀ m e, g m (f e) = .ok (m.insert e.1 e.2)) :
    ∃ ms m', Json.ofMembers (m.entries.map f) = .obj ms ∧ Reads g ms ∅ m' ∧ m'.Same m := by
  have hkeys : (m.entries.map fun e => (f e).1).Nodup :=
    List.pairwise_map.mpr
      ((List.pairwise_map.mp m.nodup).imp fun hne heq => hne (hkey _ _ heq))
  obtain ⟨es, hms, hperm⟩ := Json.ofMembers_map f hkeys
  exact ⟨_, _, hms, foldlM_insert hstep es ∅, ofList_same hperm⟩

theorem Decode.attributes_encode (m : OrderedMap String String) :
    ∃ m', attributes (encodeAttributes m) = .ok m' ∧ m'.Same m := by
  obtain ⟨ms, m', hms, hread, hsame⟩ := m.exists_same_of_members
    (f := fun e => (e.1, .str e.2)) (g := fun m e => (string e.2).map (m.insert e.1))
    (fun _ _ h => h) (fun _ _ => rfl)
  rw [encodeAttributes, hms]
  exact ⟨m', hread, hsame⟩

/-- Reads one handler. -/
def Decode.handler (m : OrderedMap Event Action) (e : String × Json) :
    Decoded (OrderedMap Event Action) := do
  let event ← named Event.all Event.name e.1
  let action ← Action.decode e.2
  return m.insert event action

theorem Decode.handler_encode (m : OrderedMap Event Action) (e : Event × Action) :
    handler m (e.1.name, e.2.encode) = .ok (m.insert e.1 e.2) := by
  rw [handler, Event.named_name, Action.decode_encode]
  rfl

theorem Decode.handlers_encode (m : OrderedMap Event Action) :
    ∃ m', handlers (encodeHandlers m) = .ok m' ∧ m'.Same m := by
  obtain ⟨ms, m', hms, hread, hsame⟩ := m.exists_same_of_members
    (f := fun e => (e.1.name, e.2.encode)) (fun _ _ h => Event.name_injective h) handler_encode
  rw [encodeHandlers, hms]
  exact ⟨m', hread, hsame⟩

/-! ### Nodes and pages -/

namespace NodeSpec

/-- Reads one member of a node. -/
def decodeMember (d : Draft) (m : String × Json) : Decoded Draft :=
  if m.1 = "children" then (decodeChildren m.2).map d.withChildren else d.set m.1 m.2

theorem decodeMembers_cons (m : String × Json) (ms : List (String × Json)) (d : Draft) :
    decodeMembers (m :: ms) d = decodeMember d m >>= decodeMembers ms := by
  rw [decodeMembers, decodeMember]
  split <;> rfl

theorem decodeMembers_eq_foldlM : ∀ (ms : List (String × Json)) (d : Draft),
    decodeMembers ms d = ms.foldlM decodeMember d
  | [], _ => by rw [decodeMembers]; rfl
  | m :: ms, d => by
    rw [decodeMembers_cons, List.foldlM_cons]
    exact bind_congr (decodeMembers_eq_foldlM ms)

/-- Reading a member other than the children whose field is read. -/
theorem decodeMember_of_field {β : Type} {d d' : Draft} {k : String} {v : Json} {x : β}
    {read : Json → Decoded β} {f : β → Draft} (hread : read v = .ok x)
    (hset : ∀ v, d.set k v = (read v).map f) (hk : k ≠ "children") (hd : f x = d') :
    decodeMember d (k, v) = .ok d' := by
  rw [decodeMember, if_neg hk, hset, hread, ← hd]
  rfl

theorem decodeMember_children {d : Draft} {items : List Json} {below : List NodeSpec}
    (h : decodeAll items = .ok below) :
    decodeMember d ("children", .arr items) = .ok (d.withChildren below) := by
  rw [decodeMember, if_pos rfl, decodeChildren, h]
  rfl

theorem encode_eq (s : NodeSpec) : s.encode =
    .obj (Json.optional "attributes" (omitted s.attributes.isEmpty (encodeAttributes s.attributes))
      ++ Json.optional "children" (omitted s.children.isEmpty (.arr (encodeAll s.children)))
      ++ Json.optional "geometry" (s.geometry.map BoxGeometry.encode)
      ++ Json.optional "on" (omitted s.on.isEmpty (encodeHandlers s.on))
      ++ Json.optional "style" (omitted s.style.isDefault s.style.encode)
      ++ ("tag", .str s.tag.name) :: Json.optional "text" (s.text.map .str)) := by
  cases s
  rw [encode]

/-- A node is read back once its maps and its children are. -/
theorem decode_encode_of_parts (s : NodeSpec) {attributes : OrderedMap String String}
    {on : OrderedMap Event Action} {children : List NodeSpec}
    (hattributes : Decode.attributes (encodeAttributes s.attributes) = .ok attributes)
    (hattributesSame : attributes.Same s.attributes)
    (hon : Decode.handlers (encodeHandlers s.on) = .ok on) (honSame : on.Same s.on)
    (hchildren : decodeAll (encodeAll s.children) = .ok children)
    (hchildrenSame : List.Forall₂ NodeSpec.Same children s.children) :
    decode s.encode = .ok { s with attributes, on, children } := by
  -- one step for each key, in the order of the keys: a member that was left out is one whose value
  -- the draft has from the start
  have readsAttributes : Reads decodeMember
      (Json.optional "attributes" (omitted s.attributes.isEmpty (encodeAttributes s.attributes)))
      {} ⟨none, .span, attributes, none, {}, none, ∅, []⟩ := by
    refine .omitted (decodeMember_of_field hattributes (fun _ => rfl) (by decide) rfl) fun h => ?_
    rw [hattributesSame.eq_empty h]
    rfl
  have readsChildren : Reads decodeMember
      (Json.optional "children" (omitted s.children.isEmpty (.arr (encodeAll s.children))))
      ⟨none, .span, attributes, none, {}, none, ∅, []⟩
      ⟨none, .span, attributes, none, {}, none, ∅, children⟩ := by
    refine .omitted (decodeMember_children hchildren) fun h => ?_
    rw [List.isEmpty_iff.mp h] at hchildrenSame
    cases hchildrenSame
    rfl
  have readsGeometry : Reads decodeMember
      (Json.optional "geometry" (s.geometry.map BoxGeometry.encode))
      ⟨none, .span, attributes, none, {}, none, ∅, children⟩
      ⟨none, .span, attributes, none, {}, s.geometry, ∅, children⟩ :=
    .optional (f := fun x => ⟨none, .span, attributes, none, {}, x, ∅, children⟩)
      (fun b => decodeMember_of_field (optional_eq_some (BoxGeometry.decode_encode b) nofun)
        (fun _ => rfl) (by decide) rfl) rfl
  have readsOn : Reads decodeMember
      (Json.optional "on" (omitted s.on.isEmpty (encodeHandlers s.on)))
      ⟨none, .span, attributes, none, {}, s.geometry, ∅, children⟩
      ⟨none, .span, attributes, none, {}, s.geometry, on, children⟩ := by
    refine .omitted (decodeMember_of_field hon (fun _ => rfl) (by decide) rfl) fun h => ?_
    rw [honSame.eq_empty h]
  have readsStyle : Reads decodeMember
      (Json.optional "style" (omitted s.style.isDefault s.style.encode))
      ⟨none, .span, attributes, none, {}, s.geometry, on, children⟩
      ⟨none, .span, attributes, none, s.style, s.geometry, on, children⟩ := by
    have hstyle := Style.decode_encode s.style
    refine .omitted (decodeMember_of_field hstyle (fun _ => rfl) (by decide) rfl) fun h => ?_
    rw [of_decide_eq_true h]
  have readsTag : Reads decodeMember
      (("tag", .str s.tag.name) :: Json.optional "text" (s.text.map .str))
      ⟨none, .span, attributes, none, s.style, s.geometry, on, children⟩
      ⟨some s.tag, .span, attributes, s.text, s.style, s.geometry, on, children⟩ :=
    .cons (decodeMember_of_field (Tag.decode_name s.tag) (fun _ => rfl) (by decide) rfl) <|
      .optional
        (f := fun x => ⟨some s.tag, .span, attributes, x, s.style, s.geometry, on, children⟩)
        (fun text => decodeMember_of_field (optional_eq_some (string_str text) nofun)
          (fun _ => rfl) (by decide) rfl) rfl
  have hread := ((((readsAttributes.append readsChildren).append readsGeometry).append
    readsOn).append readsStyle).append readsTag
  rw [encode_eq, decode, decodeMembers_eq_foldlM, hread]
  rfl

mutual

/-- A description is read back from its value, up to the order of attributes and handlers. -/
theorem decode_encode : ∀ s : NodeSpec, ∃ t, decode s.encode = .ok t ∧ t.Same s
  | { tag, attributes, text, style, geometry, on, children } => by
    obtain ⟨attributes', hattributes, hattributesSame⟩ := Decode.attributes_encode attributes
    obtain ⟨on', hon, honSame⟩ := Decode.handlers_encode on
    obtain ⟨children', hchildren, hchildrenSame⟩ := decodeAll_encodeAll children
    refine ⟨_, decode_encode_of_parts _ hattributes hattributesSame hon honSame hchildren
      hchildrenSame, ?_⟩
    exact .mk rfl hattributesSame rfl rfl rfl honSame hchildrenSame

theorem decodeAll_encodeAll : ∀ ss : List NodeSpec,
    ∃ ts, decodeAll (encodeAll ss) = .ok ts ∧ List.Forall₂ NodeSpec.Same ts ss
  | [] => ⟨[], rfl, .nil⟩
  | s :: rest => by
    obtain ⟨t, ht, hsame⟩ := decode_encode s
    obtain ⟨ts, hts, hrest⟩ := decodeAll_encodeAll rest
    refine ⟨t :: ts, ?_, .cons hsame hrest⟩
    rw [encodeAll, decodeAll, ht, hts]
    rfl

end

end NodeSpec

/-- A page document is read back from its value, up to the order of attributes and handlers. -/
theorem PageSpec.decode_encode_same (p : PageSpec) :
    ∃ q, PageSpec.decode p.encode = .ok q ∧ q.Same p := by
  obtain ⟨body, hbody, hsame⟩ := NodeSpec.decodeAll_encodeAll p.body
  have hchildren : NodeSpec.decodeChildren (.arr (NodeSpec.encodeAll p.body)) = .ok body := by
    rw [NodeSpec.decodeChildren, hbody]
  have htitle : Reads PageSpec.record.member (Json.optional "title" (p.title.map .str))
      ⟨none, p.options, body⟩ ⟨p.title, p.options, body⟩ :=
    .optional (f := fun x => (⟨x, p.options, body⟩ : PageSpec))
      (fun title => Record.member_of_field (optional_eq_some (string_str title) nofun)
        (fun _ => rfl) (by decide) rfl) rfl
  refine ⟨⟨p.title, p.options, body⟩, Record.decode_of_reads ?_ rfl, rfl, rfl, hsame⟩
  exact .cons (Record.member_of_field hchildren (fun _ => rfl) (by decide) rfl) <|
    .cons (Record.member_of_field (PageOptions.decode_encode p.options) (fun _ => rfl)
      (by decide) rfl) htitle

end FormPage
