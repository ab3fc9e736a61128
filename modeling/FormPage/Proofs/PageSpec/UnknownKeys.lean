import FormPage.PageSpec.Load
import FormPage.Proofs.PageSpec.Keys
import FormPage.Proofs.PageSpec.Written

/-!
Unknown keys in page documents. A page or a node with a key that the format does not define is not
read; in all other records such a key makes no difference (`ofJson_unknownKeys`).
-/

namespace FormPage

open Decode PageFormat

/-! ### Reading tidied members -/

namespace Decode

variable {α σ : Type} {step : σ → String × Json → Decoded σ} {s : Slot}

theorem foldlM_map_tidiedMember {ms : List (String × Json)}
    (h : ∀ m ∈ ms, ∀ st, step st (tidiedMember s m) = step st m) (st : σ) :
    (ms.map (tidiedMember s)).foldlM step st = ms.foldlM step st := by
  induction ms generalizing st with
  | nil => rfl
  | cons m ms ih =>
    obtain ⟨hm, hms⟩ := List.forall_mem_cons.mp h
    rw [List.map_cons, List.foldlM_cons, List.foldlM_cons, hm st]
    exact bind_congr (ih hms)

/-- Members that reading passes over may be left out. -/
theorem foldlM_filter {keep : String → Bool} {ms : List (String × Json)}
    (h : ∀ m ∈ ms, keep m.1 = false → ∀ st, step st m = .ok st) (st : σ) :
    (ms.filter fun m => keep m.1).foldlM step st = ms.foldlM step st := by
  induction ms generalizing st with
  | nil => rfl
  | cons m ms ih =>
    obtain ⟨hm, hms⟩ := List.forall_mem_cons.mp h
    rw [List.filter_cons, List.foldlM_cons]
    split
    · exact bind_congr (ih hms)
    · rename_i hno
      rw [hm (Bool.eq_false_iff.mpr hno) st]
      exact ih hms st

theorem foldlM_tidiedMembers {keep : String → Bool} {ms : List (String × Json)}
    (hkeep : ∀ m ∈ ms, ∀ st, step st (tidiedMember s m) = step st m)
    (hdrop : ∀ m ∈ ms, keep m.1 = false → ∀ st, step st m = .ok st) (st : σ) :
    (tidiedMembers s keep ms).foldlM step st = ms.foldlM step st := by
  rw [tidiedMembers_eq, foldlM_map_tidiedMember, foldlM_filter hdrop]
  intro m hm
  exact hkeep m (List.mem_filter.mp hm).1

theorem foldlM_tidiedItems {p : Part} {vs : List Json}
    (h : ∀ v ∈ vs, ∀ k st, step st (tidiedMember (.one p) (k, v)) = step st (k, v)) (st : σ) :
    ((p.fields.map Prod.fst).zip (tidiedItems (.one p) 0 vs)).foldlM step st =
      ((p.fields.map Prod.fst).zip vs).foldlM step st := by
  have hitem : ∀ i k, (p.fields.map Prod.fst)[i]? = some k →
      (Slot.one p).item (0 + i) = (Slot.one p).member k := by
    intro i k hk
    rw [List.getElem?_map] at hk
    obtain ⟨e, he, rfl⟩ := Option.map_eq_some_iff.mp hk
    rw [Nat.zero_add, Slot.item_one he]
  rw [zip_tidiedItems hitem, foldlM_map_tidiedMember]
  intro m hm
  exact h m.2 (List.of_mem_zip hm).2 m.1

/-- A record is read from a tidied value as from the value. -/
theorem Record.decode_tidied {r : Record σ α} {p : Part}
    (hfields : r.fields = p.fields.map Prod.fst) (hstrict : r.strict = p.strict)
    (hset : ∀ st k v, r.set st k (tidied ((Slot.one p).member k) v) = r.set st k v) (j : Json) :
    r.decode (tidied (.one p) j) = r.decode j := by
  cases j with
  | null | bool | int | float | str => rfl
  | arr items =>
    have hfold : (r.fields.zip (tidiedItems (.one p) 0 items)).foldlM
        (fun st m => r.set st m.1 m.2) r.start =
        (r.fields.zip items).foldlM (fun st m => r.set st m.1 m.2) r.start := by
      rw [hfields]
      exact foldlM_tidiedItems (fun v _ k st => hset st k v) r.start
    rw [tidied, Record.decode, Record.decode, ofItems, ofItems, hfold, length_tidiedItems]
  | obj ms =>
    rw [tidied, Record.decode, Record.decode, ofMembers, ofMembers, foldlM_tidiedMembers]
    · intro m _ st
      simp only [member, tidiedMember, hset]
    · intro m _ hno st
      simp only [Slot.keeps, Part.keys, Bool.or_eq_false_iff, decide_eq_false_iff_not,
        List.mem_append, not_or] at hno
      rw [member, if_neg (hfields ▸ hno.2.1), hstrict, if_neg (by simp [hno.1])]

/-- A record whose fields are plain is read from a tidied value as from the value. -/
theorem Record.decode_tidied_of_plain {r : Record σ α} {p : Part}
    (hfields : r.fields = p.fields.map Prod.fst) (hstrict : r.strict = p.strict)
    (hplain : ∀ e ∈ p.fields, e.2 = .plain) (j : Json) :
    r.decode (tidied (.one p) j) = r.decode j := by
  refine Record.decode_tidied hfields hstrict ?_ j
  intro st k v
  rw [Slot.member_of_plain hplain, tidied_plain]

theorem read_tidied {read : Json → α} (h : s = .plain) (v : Json) :
    read (tidied s v) = read v := by
  rw [h, tidied_plain]

theorem optional_tidied {read : Json → Decoded α} {v : Json} (h : read (tidied s v) = read v) :
    Decode.optional read (tidied s v) = Decode.optional read v := by
  cases v with
  | null | bool | int | float | str => rfl
  | arr | obj =>
    rw [tidied] at h ⊢
    exact congrArg (Except.map some) h

end Decode

/-! ### Records in which an undefined key is no fault -/

theorem Nudge.decode_tidied (j : Json) : Nudge.decode (tidied (.one .nudge) j) = Nudge.decode j :=
  Record.decode_tidied_of_plain rfl rfl (by decide) j

theorem BoxGeometry.decode_tidied (j : Json) :
    BoxGeometry.decode (tidied (.one .geometry) j) = BoxGeometry.decode j :=
  Record.decode_tidied_of_plain rfl rfl (by decide) j

theorem Style.decode_tidied (j : Json) : Style.decode (tidied (.one .style) j) = Style.decode j :=
  Record.decode_tidied_of_plain rfl rfl (by decide) j

theorem PageOptions.decode_tidied (j : Json) :
    PageOptions.decode (tidied (.one .options) j) = PageOptions.decode j := by
  refine Record.decode_tidied rfl rfl ?_ j
  intro st k v
  simp only [PageOptions.record]
  split
  case h_4 => exact congrArg _ (Nudge.decode_tidied v)
  case h_6 => rfl
  all_goals exact congrArg _ (read_tidied rfl v)

namespace Action

/-- What an action is given has the names that the format defines. -/
theorem given_eq_fields {ms : List (String × Json)} {m : String × Json} {kind : Kind}
    (hm : (ms.find? fun m => m.1 = "action") = some m) (h : Kind.decode m.2 = .ok kind) :
    Part.given ms = kind.record.fields := by
  obtain ⟨k, v⟩ := m
  rw [Part.given, hm]
  cases v with
  | str name =>
    have hname : kind.name = name := name_of_named h
    subst hname
    cases kind <;> rfl
  | null | bool | int | float | arr | obj => cases h

/-- What is no field of an action is passed over. -/
theorem member_of_not_field {kind : Kind} {m : String × Json} (h : m.1 ∉ kind.record.fields)
    (st : Option String) : kind.record.member st m = .ok st := by
  have hlenient : kind.record.strict = false := by cases kind <;> rfl
  rw [Record.member, if_neg h, hlenient]
  rfl

theorem decode_tidied (j : Json) : decode (tidied (.one .action) j) = decode j := by
  have hplain : ∀ e ∈ Part.action.fields, e.2 = Slot.plain := by decide
  cases j with
  | null | bool | int | float | str => rfl
  | arr items =>
    rw [tidied_arr_eq_self fun v _ i => by rw [Slot.item_of_plain hplain, tidied_plain]]
  | obj ms =>
    have haction : (Slot.one .action).keeps ms "action" = true := by
      simp [Slot.keeps, Part.keys, Part.fields]
    rw [tidied, decode, decode, find?_tidiedMembers haction]
    cases hm : ms.find? fun m => m.1 = "action" with
    | none => rfl
    | some m =>
      simp only [Option.map_some, tidiedMember_plain (Slot.member_of_plain hplain m.1)]
      cases hkind : Kind.decode m.2 with
      | error cause => rfl
      | ok kind =>
        -- what is left out is neither the name of the action nor given to it
        have hgiven := given_eq_fields hm hkind
        show kind.record.ofMembers _ = kind.record.ofMembers ms
        rw [Record.ofMembers, Record.ofMembers, foldlM_tidiedMembers]
        · intro m _ st
          rw [tidiedMember_plain (Slot.member_of_plain hplain m.1)]
        · intro m _ hno st
          simp only [Slot.keeps, Part.keys, if_true, hgiven, Bool.or_eq_false_iff,
            decide_eq_false_iff_not, List.mem_append, not_or] at hno
          exact member_of_not_field hno.2.2 st

end Action

theorem Decode.handlers_tidied (j : Json) : handlers (tidied (.map .action) j) = handlers j := by
  cases j with
  | null | bool | int | float | str => rfl
  | arr items =>
    have hsame : tidied (.map .action) (.arr items) = .arr items :=
      tidied_arr_eq_self fun v _ _ => tidied_plain v
    rw [hsame]
  | obj ms =>
    have hstep : ∀ m ∈ ms, ∀ acc, handler acc (tidiedMember (.map .action) m) = handler acc m := by
      intro m _ acc
      rw [handler, handler, tidiedMember]
      exact bind_congr fun event => congrArg (· >>= _) (Action.decode_tidied m.2)
    have hfold : (tidiedMembers (.map .action) ((Slot.map .action).keeps ms) ms).foldlM handler ∅ =
        ms.foldlM handler ∅ :=
      foldlM_tidiedMembers hstep (fun _ _ hno => by cases hno) ∅
    exact hfold

/-! ### Nodes and pages -/

namespace NodeSpec

theorem Draft.set_tidied (d : Draft) (k : String) (v : Json) :
    d.set k (tidied ((Slot.one .node).member k) v) = d.set k v := by
  unfold Draft.set
  split
  case h_4 => exact congrArg _ (Style.decode_tidied v)
  case h_5 => exact congrArg _ (optional_tidied (BoxGeometry.decode_tidied v))
  case h_6 => exact congrArg _ (handlers_tidied v)
  case h_7 => rfl
  all_goals exact congrArg _ (read_tidied rfl v)

/-- A node, or an array of nodes, is read from a tidied value as from the value. -/
structure Tidies (j : Json) : Prop where
  node : decode (tidied (.one .node) j) = decode j
  nodes : decodeChildren (tidied (.list .node) j) = decodeChildren j

theorem decodeMember_tidied {m : String × Json} (h : Tidies m.2) (d : Draft) :
    decodeMember d (tidiedMember (.one .node) m) = decodeMember d m := by
  rw [decodeMember, decodeMember]
  by_cases hm : m.1 = "children"
  · rw [if_pos hm, if_pos (show (tidiedMember (.one .node) m).1 = "children" from hm), tidiedMember,
      hm]
    exact congrArg _ h.nodes
  · rw [if_neg hm, if_neg (show ¬(tidiedMember (.one .node) m).1 = "children" from hm)]
    exact d.set_tidied m.1 m.2

theorem decodeAll_tidied {items : List Json} (h : ∀ x ∈ items, Tidies x) :
    decodeAll (items.map (tidied (.one .node))) = decodeAll items := by
  induction items with
  | nil => rfl
  | cons x items ih =>
    obtain ⟨hx, hitems⟩ := List.forall_mem_cons.mp h
    rw [List.map_cons, decodeAll, decodeAll, hx.node, ih hitems]

theorem tidies (j : Json) : Tidies j := by
  induction j using Json.of_parts with
  | null | bool | int | float | str => exact ⟨rfl, rfl⟩
  | arr items ih =>
    constructor
    · have hfold : ((Part.node.fields.map Prod.fst).zip
          (tidiedItems (.one .node) 0 items)).foldlM decodeMember {} =
          ((Part.node.fields.map Prod.fst).zip items).foldlM decodeMember {} :=
        foldlM_tidiedItems (fun v hv k d => decodeMember_tidied (ih v hv) d) {}
      rw [tidied, decode, decode, decodeItems_eq_foldlM, decodeItems_eq_foldlM,
        length_tidiedItems]
      exact congrArg (· >>= _) hfold
    · rw [tidied, decodeChildren, decodeChildren, tidiedItems_eq_map (t := .one .node) fun _ => rfl,
        decodeAll_tidied ih]
  | obj ms ih =>
    constructor
    · rw [tidied, decode, decode, decodeMembers_eq_foldlM, decodeMembers_eq_foldlM,
        foldlM_tidiedMembers (fun m hm d => decodeMember_tidied (ih m hm) d)]
      intro m _ hno
      cases hno
    · have hsame : tidied (.list .node) (.obj ms) = .obj ms :=
        tidied_obj_eq_self (fun _ => rfl) fun m _ => tidied_plain m.2
      rw [hsame]

end NodeSpec

theorem PageSpec.decode_tidied (j : Json) :
    PageSpec.decode (tidied (.one .page) j) = PageSpec.decode j := by
  refine Record.decode_tidied rfl rfl ?_ j
  intro p k v
  simp only [PageSpec.record]
  split
  case h_2 => exact congrArg _ (PageOptions.decode_tidied v)
  case h_3 => exact congrArg _ (NodeSpec.tidies v).nodes
  case h_4 => rfl
  all_goals exact congrArg _ (read_tidied rfl v)

/-! ### Where undefined keys are faults -/

namespace Decode

variable {α σ : Type} {step : σ → String × Json → Decoded σ} {p : Part}

/-- When all members were read, each of them was. -/
theorem exists_of_mem_of_foldlM {ms : List (String × Json)} {st st' : σ} {m : String × Json}
    (h : ms.foldlM step st = .ok st') (hm : m ∈ ms) : ∃ st₁ st₂, step st₁ m = .ok st₂ := by
  induction ms generalizing st with
  | nil => cases hm
  | cons m₀ ms ih =>
    rw [List.foldlM_cons] at h
    obtain ⟨st₁, hread, h⟩ := exists_of_bind_ok h
    rcases List.mem_cons.mp hm with rfl | hm
    · exact ⟨st, st₁, hread⟩
    · exact ih h hm

/-- An object has no faults if its members are fields of the record and have no faults. -/
theorem faultless_of_members {ms : List (String × Json)} {st st' : σ}
    (hstep : ∀ m ∈ ms, ∀ {st st'}, step st m = .ok st' →
      m.1 ∈ p.fields.map Prod.fst ∧ Faultless ((Slot.one p).member m.1) m.2)
    (h : ms.foldlM step st = .ok st') : Faultless (.one p) (.obj ms) := by
  have hread : ∀ m ∈ ms, m.1 ∈ p.fields.map Prod.fst ∧
      Faultless ((Slot.one p).member m.1) m.2 := by
    intro m hm
    obtain ⟨st₁, st₂, hread⟩ := exists_of_mem_of_foldlM h hm
    exact hstep m hm hread
  refine faultless_obj ?_ fun m hm => (hread m hm).2
  intro q hq _ m hm
  cases hq
  exact Part.mem_keys_of_mem (hread m hm).1

theorem faultless_of_items {items : List Json} {st st' : σ}
    (hstep : ∀ v ∈ items, ∀ {k st st'}, step st (k, v) = .ok st' →
      Faultless ((Slot.one p).member k) v)
    (h : ((p.fields.map Prod.fst).zip items).foldlM step st = .ok st') :
    Faultless (.one p) (.arr items) := by
  refine faultless_arr fun i v hv => ?_
  cases he : p.fields[i]? with
  | none =>
    -- the record has no field at this place
    rw [Slot.item, he]
    exact faultless_of_lenient rfl
  | some e =>
    have hzip : ((p.fields.map Prod.fst).zip items)[i]? = some (e.1, v) := by
      rw [List.getElem?_zip_eq_some, List.getElem?_map, he]
      exact ⟨rfl, hv⟩
    obtain ⟨st₁, st₂, hread⟩ := exists_of_mem_of_foldlM h (List.mem_of_getElem? hzip)
    rw [Slot.item_one he]
    exact hstep v (List.mem_of_getElem? hv) hread

end Decode

namespace NodeSpec

/-- A value that is read as a node, or as an array of nodes, has no faults. -/
structure Sound (j : Json) : Prop where
  node : ∀ {s}, decode j = .ok s → Faultless (.one .node) j
  nodes : ∀ {ss}, decodeChildren j = .ok ss → Faultless (.list .node) j

theorem faultless_of_set {d d' : Draft} {k : String} {v : Json} (h : d.set k v = .ok d') :
    k ∈ Part.node.fields.map Prod.fst ∧ Faultless ((Slot.one .node).member k) v := by
  unfold Draft.set at h
  split at h
  case h_7 => cases h
  all_goals exact ⟨by decide, faultless_of_lenient rfl⟩

theorem faultless_of_decodeMember {d d' : Draft} {m : String × Json} (hm : Sound m.2)
    (h : decodeMember d m = .ok d') :
    m.1 ∈ Part.node.fields.map Prod.fst ∧ Faultless ((Slot.one .node).member m.1) m.2 := by
  rw [decodeMember] at h
  split at h
  · rename_i hk
    obtain ⟨children, hchildren, -⟩ := exists_of_map_ok h
    rw [hk]
    exact ⟨by decide, hm.nodes hchildren⟩
  · exact faultless_of_set h

theorem faultless_of_decodeAll {items : List Json} {ss : List NodeSpec}
    (h : ∀ x ∈ items, Sound x) (hread : decodeAll items = .ok ss) :
    ∀ x ∈ items, Faultless (.one .node) x := by
  induction items generalizing ss with
  | nil => simp
  | cons x items ih =>
    obtain ⟨hx, hitems⟩ := List.forall_mem_cons.mp h
    rw [decodeAll] at hread
    obtain ⟨s, hs, hread⟩ := exists_of_bind_ok hread
    obtain ⟨rest, hrest, -⟩ := exists_of_bind_ok hread
    exact List.forall_mem_cons.mpr ⟨hx.node hs, ih hitems hrest⟩

theorem sound (j : Json) : Sound j := by
  induction j using Json.of_parts with
  | null | bool | int | float | str =>
    constructor <;> (intro _ hread; cases hread)
  | arr items ih =>
    constructor
    · intro s hread
      rw [decode] at hread
      obtain ⟨d, hfold, -⟩ := exists_of_bind_ok hread
      rw [decodeItems_eq_foldlM] at hfold
      exact faultless_of_items (p := .node)
        (fun v hv _ _ _ hread => (faultless_of_decodeMember (ih v hv) hread).2) hfold
    · intro ss hread
      rw [decodeChildren] at hread
      exact faultless_arr fun i v hv =>
        faultless_of_decodeAll ih hread v (List.mem_of_getElem? hv)
  | obj ms ih =>
    constructor
    · intro s hread
      rw [decode] at hread
      obtain ⟨d, hfold, -⟩ := exists_of_bind_ok hread
      rw [decodeMembers_eq_foldlM] at hfold
      exact faultless_of_members (fun m hm _ _ => faultless_of_decodeMember (ih m hm)) hfold
    · intro ss hread
      cases hread

end NodeSpec

namespace PageSpec

theorem faultless_of_set {p p' : PageSpec} {k : String} {v : Json}
    (h : record.set p k v = .ok p') : Faultless ((Slot.one .page).member k) v := by
  simp only [record] at h
  split at h
  case h_3 =>
    obtain ⟨body, hread, -⟩ := exists_of_map_ok h
    exact (NodeSpec.sound v).nodes hread
  case h_4 htitle hoptions hbody =>
    have hplain : (Slot.one .page).member k = .plain :=
      Slot.member_of_not_mem (by simpa [Part.fields] using ⟨htitle, hoptions, hbody⟩)
    rw [hplain]
    exact faultless_of_lenient rfl
  all_goals exact faultless_of_lenient rfl

theorem faultless_of_decode {j : Json} {spec : PageSpec} (h : decode j = .ok spec) :
    Faultless (.one .page) j := by
  rw [decode] at h
  cases j with
  | null | bool | int | float | str => cases h
  | arr items =>
    obtain ⟨spec', hread, -⟩ := exists_of_bind_ok h
    obtain ⟨p, hfold, -⟩ := exists_of_bind_ok hread
    exact faultless_of_items (p := .page) (fun v _ _ _ _ => faultless_of_set) hfold
  | obj ms =>
    obtain ⟨p, hfold, -⟩ := exists_of_bind_ok h
    refine faultless_of_members ?_ hfold
    intro m _ p p' hread
    rw [Record.member] at hread
    split at hread
    · rename_i hk
      exact ⟨hk, faultless_of_set hread⟩
    · cases hread

end PageSpec

namespace Page

/-- A page document is refused if a page or a node in it has a key that the format does not define.
All other undefined keys make no difference: the document without them is read alike. A description
with its maps in the order of their keys that is written with further such keys is built. -/
theorem ofJson_unknownKeys (j : Json) :
    (∀ p ms, Contains (.one .page) j p ms → p.strict = true →
      (∃ m ∈ ms, m.1 ∉ p.keys ms) → ∃ cause, ofJson j = .error (.invalid cause)) ∧
    ofJson (tidied (.one .page) j) = ofJson j ∧
    (∀ p ms, Contains (.one .page) (tidied (.one .page) j) p ms → p.strict = false →
      ∀ m ∈ ms, m.1 ∈ p.keys ms) ∧
    ∀ (spec : PageSpec) (k : Nat), NodeSpec.FitsAll 0 k spec.body →
      tidied (.one .page) j = spec.encode → ofJson j = spec.build := by
  have hsame : ofJson (tidied (.one .page) j) = ofJson j := by
    rw [ofJson, ofJson, PageSpec.decode_tidied]
  refine ⟨?_, hsame, fun p ms => mem_keys_of_contains_tidied, ?_⟩
  · rintro p ms hin hp ⟨m, hm, hno⟩
    cases hread : PageSpec.decode j with
    | error cause => exact ⟨cause, by rw [ofJson, hread]; rfl⟩
    | ok spec =>
      -- nothing is read from a page document with such a key
      exact absurd (PageSpec.faultless_of_decode hread p ms hin hp m hm) hno
  · intro spec k hfits hspec
    rw [← hsame, hspec, ofJson, PageSpec.decode_encode_eq hfits]
    rfl

/-- A misspelt key of a node below another node is refused, one of a shift is passed over. -/
theorem ofJson_misspelt :
    (∃ cause, ofJson (.obj [("body", .arr [.obj [("tag", .str "DIV"), ("children", .arr
        [.obj [("tag", .str "DIV"), ("onn", .obj [])]])]])]) = .error (.invalid cause)) ∧
    ofJson (.obj [("options", .obj [("nudge", .obj
        [("left", .int 4), ("right", .int 1), ("top", .int 2)])])]) =
      ofJson (.obj [("options", .obj [("nudge", .obj [("left", .int 4), ("top", .int 2)])])]) := by
  constructor
  · refine (ofJson_unknownKeys _).1 .node [("tag", .str "DIV"), ("onn", .obj [])] ?_ rfl ?_
    · exact .member (List.mem_singleton.mpr rfl) <| .item (i := 0) rfl <|
        .member (List.mem_cons_of_mem _ (List.mem_singleton.mpr rfl)) <| .item (i := 0) rfl .here
    · exact ⟨("onn", .obj []), by simp, by decide⟩
  · exact (ofJson_unknownKeys (.obj [("options", .obj [("nudge", .obj
      [("left", .int 4), ("right", .int 1), ("top", .int 2)])])])).2.1.symm

/-- A page with a misspelt choice. -/
def misspeltChoice : Json :=
  .obj [("body", .arr []), ("options", .obj [("request_feild", .str "Save")])]

/-- The page is built, although the format does not define the key. -/
theorem ofJson_misspeltChoice : Contains (.one .page) misspeltChoice .options
      [("request_feild", .str "Save")] ∧
    "request_feild" ∉ Part.options.keys [("request_feild", .str "Save")] ∧
    ∃ p, ofJson misspeltChoice = .ok p := by
  refine ⟨.member (List.mem_cons_of_mem _ (List.mem_singleton.mpr rfl)) .here, by decide, ?_⟩
  exact ⟨_, rfl⟩

end Page

end FormPage
