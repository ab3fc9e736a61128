import FormPage.PageSpec.Emit
import FormPage.PageSpec.Load
import FormPage.Proofs.Page.Described
import FormPage.Proofs.Page.SingleBalloon
import FormPage.Proofs.PageSpec.Written

/-!
Emitting. The text of a page is read back as the description of the page and loads again, with the
same description, exactly if it is nested no deeper than the reader goes. Main statement: it is
nested at most two levels deeper than the text from which the page was loaded. These two are taken
where a text in the short form becomes a child, or where the balloon is given its region.
-/

namespace FormPage

open Document Balloon
open NodeSpec (Fits FitsAll normalAll flatAll isNormal_normalAll mem_flat)

variable {d d' : Document} {p q : Page} {spec : PageSpec} {n : NodeId} {id : String} {k : Nat}

/-! ### The depth of a description -/

namespace Document.Adoption

variable {parts : Option BalloonParts}

/-- What an older node is given as a child is the region, and the node has the reserved id. -/
theorem mem_children (h : d.Adoption id d' parts) (hn : n < d.size) {c : NodeId}
    (hc : c ∈ d'.children n) : c ∈ d.children n ∨ d.attribute? n "id" = some id ∧ c = d.size ∧
      d'.node? c = some (NodeSpec.node (some n) c regionSpec) := by
  cases h with
  | absent | whole => exact .inl hc
  | @extended e _ hfound =>
    rw [graftLast, children_graft_old hn] at hc
    split at hc
    · rename_i heq
      subst heq
      refine (List.mem_append.mp hc).imp_right ?_
      intro hnew
      obtain rfl := List.mem_singleton.mp hnew
      exact ⟨attribute?_of_elementById hfound, rfl, node?_graft_new d n _ [regionSpec] 0⟩
    · exact .inl hc
  | void =>
    rw [children_lay_old hn] at hc
    exact .inl hc

end Document.Adoption

theorem NodeSpec.fits_regionSpec (k : Nat) : Fits 0 (k + 2) regionSpec := by
  refine .mk { slim_default 0 (k + 1) with attributes := ?_, attributes_le := fun _ => ?_ }
    (fun hne => absurd rfl hne) fun c hc => by cases hc
  · exact List.pairwise_singleton _ _
  · omega

namespace Page

theorem snapshotBelow_region (hp : WellFormed p.document) {e : NodeId}
    (hn : p.document.node? n = some (NodeSpec.node (some e) n regionSpec))
    (hon : p.bindings.ofNode n = []) : p.snapshotBelow n = regionSpec := by
  rw [snapshotBelow_of_node hp hn, children_of_node hn, nodeSpec, hon]
  rfl

/-- An element that is found by its id has attributes. -/
theorem attributes_nodeSpec (hp : WellFormed p.document) {x : Node} {cs : List NodeSpec}
    (hx : p.document.node? n = some x) (hid : p.document.attribute? n "id" = some id) :
    (p.nodeSpec n x cs).attributes.isEmpty = false := by
  have hne : x.attributes ≠ ∅ := by
    intro hempty
    rw [attribute?, hx, Option.bind_some, hempty] at hid
    cases hid
  have htext : x.tag ≠ .text := by
    intro htext
    exact hne (hp.text_bare n x.face (face?_of_node hx) htext)
  rw [nodeSpec, if_neg htext]
  exact Bool.eq_false_iff.mpr fun hempty => hne (OrderedMap.ext (List.isEmpty_iff.mp hempty))

section Adopted

variable (hadoption : q.document.Adoption id p.document p.balloon.parts)
  (hq : q.document.Framed) (hp : WellFormed p.document) (hbindings : p.bindings = q.bindings)
  (hnew : ∀ m, q.document.size ≤ m → q.bindings.ofNode m = [])
include hadoption hq hp hbindings hnew

/-- Looking for the balloon makes no description deeper than its levels: a region is added only
where there is room for one. -/
theorem fits_snapshotBelow (hn : n < q.document.size) (h : Fits 4 k (q.snapshotBelow n)) :
    Fits 0 k (p.snapshotBelow n) := by
  induction n using hq.wellFormed.below_induction generalizing k with
  | hP n ih =>
    obtain ⟨x, hx⟩ := exists_node hn
    obtain ⟨y, hy, hface⟩ : ∃ y, p.document.node? n = some y ∧ y.face = x.face := by
      rw [← Option.map_eq_some_iff, ← face?_of_node hx]
      exact (hadoption.old hn).2.1
    rw [snapshotBelow_of_node hq.wellFormed hx] at h
    have hon : p.bindings.ofNode n = q.bindings.ofNode n := by rw [hbindings]
    rw [snapshotBelow_of_node hp hy, nodeSpec_congr hface hon]
    cases h with
    | @mk k _ top below children =>
      -- the element of the balloon has an id, and attributes leave room for a region
      have hregion : q.document.attribute? n "id" = some id → 3 ≤ k := by
        intro hid
        have hle := (top.attributes_le (attributes_nodeSpec hq.wellFormed hx hid)).2
        omega
      have hchild : ∀ c ∈ p.document.children n, 0 < k ∧ Fits 0 (k - 1) (p.snapshotBelow c) := by
        intro c hc
        rcases hadoption.mem_children hn hc with hold | ⟨hid, rfl, hnode⟩
        · have hmem := List.mem_map_of_mem (f := q.snapshotBelow) hold
          refine ⟨below (List.ne_nil_of_mem hmem), ?_⟩
          exact ih c hold (hq.wellFormed.child_lt n c hold) (children _ hmem)
        · have hk := hregion hid
          obtain ⟨k, rfl⟩ : ∃ i, k = i + 3 := ⟨k - 3, by omega⟩
          have hon : p.bindings.ofNode q.document.size = [] :=
            hbindings ▸ hnew _ (Nat.le_refl _)
          rw [snapshotBelow_region hp hnode hon]
          exact ⟨Nat.succ_pos _, NodeSpec.fits_regionSpec k⟩
      refine .mk { top with attributes_le := fun hne => ?_ } ?_ ?_
      · exact ⟨(top.attributes_le hne).1, Nat.zero_le _⟩
      · intro hne
        obtain ⟨m, hm⟩ := List.exists_mem_of_ne_nil _ fun hnil => hne (List.map_eq_nil_iff.mpr hnil)
        exact (hchild m hm).1
      · intro c hc
        obtain ⟨m, hm, rfl⟩ := List.mem_map.mp hc
        exact (hchild m hm).2

theorem fitsAll_snapshot (h : FitsAll 4 k q.snapshot.body) (hk : 0 < k) :
    FitsAll 0 k p.snapshot.body := by
  refine ⟨fun _ => hk, ?_⟩
  intro c hc
  obtain ⟨n, hn, rfl⟩ := List.mem_map.mp hc
  rw [hadoption.children_body hq] at hn
  exact fits_snapshotBelow hadoption hq hp hbindings hnew (hq.wellFormed.child_lt body n hn)
    (h.2 _ (List.mem_map_of_mem hn))

end Adopted

end Page

/-- The nodes of a page that was built from a description take at most two levels more. -/
theorem PageSpec.fits_snapshot (hfits : FitsAll 0 k spec.body) (h : spec.build = .ok p) :
    FitsAll 0 (k + 2) p.snapshot.body := by
  obtain ⟨hd, hbindings, -, hadoption⟩ := PageSpec.adoption_of_build h
  have hp := (PageSpec.settled_of_build h).hosts.framed.wellFormed
  have hbody : (Page.loaded (normalAll spec.body) spec.options spec.title).snapshot.body =
      normalAll spec.body :=
    Page.snapshot_body_of_loaded hd.wellFormed rfl (fun _ _ => rfl) (fun _ _ => rfl)
      (isNormal_normalAll spec.body)
  refine Page.fitsAll_snapshot (q := Page.loaded (normalAll spec.body) spec.options spec.title)
    hadoption hd hp hbindings ?_ ?_ (Nat.succ_pos _)
  · intro m hm
    have hsize : 2 + (flatAll (normalAll spec.body)).length ≤ m := by
      rw [← Document.size_loaded]
      exact hm
    exact Bindings.ofNode_loaded_of_le hsize
  · rw [hbody]
    exact hfits.normalAll

/-! ### Reading what was written -/

namespace Page

variable {text : String} {j : Json}

/-- A page that was loaded from a text was built from the description that the text holds. -/
theorem of_load (h : load .json text = .ok p) :
    ∃ j spec, Json.parse? Json.documentLevels text = some j ∧ PageSpec.decode j = .ok spec ∧
      spec.build = .ok p := by
  rw [load, Format.parse, Format.parse?] at h
  cases hj : Json.parse? Json.documentLevels text with
  | none => rw [hj] at h; cases h
  | some j =>
    rw [hj] at h
    have hload : ofJson j = .ok p := h
    rw [ofJson] at hload
    cases hspec : PageSpec.decode j with
    | error e => rw [hspec] at hload; cases hload
    | ok spec =>
      rw [hspec] at hload
      exact ⟨j, spec, rfl, hspec, hload⟩

theorem levels_snapshot (hj : j.Ordered) (hspec : PageSpec.decode j = .ok spec)
    (h : spec.build = .ok p) : FitsAll 0 (j.levels + 1) p.snapshot.body ∧
      p.snapshot.encode.levels ≤ j.levels + 2 := by
  have hpos : 0 < j.levels := Decode.Record.levels_pos hspec
  obtain ⟨k, hk⟩ : ∃ k, j.levels = k + 1 := ⟨j.levels - 1, by omega⟩
  have hfits := PageSpec.fits_snapshot (PageSpec.fits_of_decode hj (Nat.le_of_eq hk) hspec) h
  rw [hk]
  exact ⟨hfits, PageSpec.levels_encode hfits (Nat.le_add_left 2 k)⟩

/-- What is read from the text of a description, unless it is nested too deeply. -/
theorem parse?_write (spec : PageSpec) (pretty : Bool) :
    Json.parse? Json.documentLevels (Format.json.write pretty spec.encode ++ "\n") =
      if spec.encode.levels ≤ Json.documentLevels then some spec.encode else none :=
  spec.faithful_encode.parse?_text pretty Json.documentLevels

theorem load_write (hspec : PageSpec.decode spec.encode = .ok spec) (hbuild : spec.build = .ok q)
    (h : spec.encode.levels ≤ Json.documentLevels) (pretty : Bool) :
    load .json (Format.json.write pretty spec.encode ++ "\n") = .ok q := by
  rw [load, Format.parse, Format.parse?, parse?_write, if_pos h]
  show ofJson spec.encode = .ok q
  rw [ofJson, hspec]
  exact hbuild

/-- The text of a page is refused if it is nested too deeply. -/
theorem load_emit_of_lt (h : Json.documentLevels < p.snapshot.encode.levels) (pretty : Bool) :
    load .json (p.emit { format := .json, pretty }) = .error (.malformed .json) := by
  show load .json (Format.json.write pretty p.snapshot.encode ++ "\n") = _
  rw [load, Format.parse, Format.parse?, parse?_write, if_neg (Nat.not_le_of_lt h)]
  rfl

/-- The text of a page that was loaded from a text loads again, to a page with the same description,
unless it is nested deeper than a document may be, and then it is refused. It is nested at most two
levels deeper than the text from which the page was loaded. -/
theorem load_emit (h : load .json text = .ok p) (pretty : Bool) :
    (p.snapshot.encode.levels ≤ Json.documentLevels →
      ∃ q, load .json (p.emit { format := .json, pretty }) = .ok q ∧ q.snapshot = p.snapshot) ∧
    (Json.documentLevels < p.snapshot.encode.levels →
      load .json (p.emit { format := .json, pretty }) = .error (.malformed .json)) ∧
    ∃ j, Json.parse? Json.documentLevels text = some j ∧
      p.snapshot.encode.levels ≤ j.levels + 2 := by
  obtain ⟨j, spec, hj, hspec, hbuild⟩ := of_load h
  obtain ⟨hfits, hlevels⟩ := levels_snapshot (Json.ordered_of_parse hj) hspec hbuild
  refine ⟨?_, fun hdeep => load_emit_of_lt hdeep pretty, j, hj, hlevels⟩
  intro hle
  have hlive := PageSpec.live_of_build hbuild
  obtain ⟨q, w, hq, hmirrors, -⟩ := hlive.reload
  refine ⟨q, load_write (PageSpec.decode_encode_eq hfits) hq hle pretty, ?_⟩
  exact hmirrors.snapshot_eq hlive.settled (PageSpec.settled_of_build hq)

/-- A text with an element in the short form, and with one that is taken for the balloon. -/
def bareBalloonText : String :=
  "\x7b\"body\": [\x7b\"tag\": \"DIV\", \"text\": \"Name\"\x7d, " ++
    "\x7b\"tag\": \"SPAN\", \"attributes\": \x7b\"id\": \"balloon_help\"\x7d\x7d]\x7d"

theorem load_emit_bareBalloonText : ∃ p, load .json bareBalloonText = .ok p ∧
    ∀ pretty, ∃ q, load .json (p.emit { format := .json, pretty }) = .ok q ∧
      q.snapshot = p.snapshot := by
  have hload : ((load .json bareBalloonText).toOption.map fun p => p.snapshot.encode.levels) =
      some 6 := by decide +kernel
  cases hp : load .json bareBalloonText with
  | error e => rw [hp] at hload; cases hload
  | ok p =>
    rw [hp] at hload
    have hlevels : p.snapshot.encode.levels = 6 := Option.some.inj hload
    refine ⟨p, rfl, fun pretty => (load_emit hp pretty).1 ?_⟩
    rw [hlevels]
    decide

end Page

/-! ### A text at the limit -/

namespace NodeSpec

/-- Elements one below the other, the innermost one with a text in the short form. -/
def nested : Nat → NodeSpec
  | 0 => { tag := .div, text := some "Name" }
  | n + 1 => { tag := .div, children := [nested n] }

theorem levels_encode_wrapped (s : NodeSpec) :
    (encode { tag := .div, children := [s] }).levels = s.encode.levels + 2 := by
  have hencode : encode { tag := .div, children := [s] } =
      .obj [("children", .arr [s.encode]), ("tag", .str "DIV")] := rfl
  simp [hencode, Json.levels, Json.memberLevels, Json.itemLevels]

theorem levels_encode_nested (n : Nat) : (nested n).encode.levels = 2 * n + 1 := by
  induction n with
  | zero => decide
  | succ n ih =>
    rw [nested, levels_encode_wrapped, ih]
    omega

/-- The text that is written out lies two levels deeper. -/
theorem levels_encode_normal_nested (n : Nat) : (nested n).normal.encode.levels = 2 * n + 3 := by
  induction n with
  | zero => decide
  | succ n ih =>
    have hnormal : (nested (n + 1)).normal = { tag := .div, children := [(nested n).normal] } := rfl
    rw [hnormal, levels_encode_wrapped, ih]
    omega

theorem fits_nested (n : Nat) : Fits 0 (2 * n + 1) (nested n) := by
  induction n with
  | zero => exact .mk { slim_default 0 0 with } (fun hne => absurd rfl hne) fun c hc => by cases hc
  | succ n ih =>
    refine .mk { slim_default 0 (2 * n + 2) with } (fun _ => Nat.succ_pos _) ?_
    intro c hc
    obtain rfl := List.mem_singleton.mp hc
    exact ih

theorem of_mem_flat_nested {n : Nat} {s : NodeSpec} (h : s ∈ (nested n).flat) :
    ∃ m, s = nested m := by
  induction n with
  | zero => exact ⟨0, by simpa [nested, flat, flatAll] using h⟩
  | succ n ih =>
    rw [mem_flat] at h
    rcases h with h | h
    · exact ⟨n + 1, h⟩
    · exact ih (by simpa [nested, flatAll] using h)

end NodeSpec

namespace PageSpec

/-- A page of nested elements. -/
def nested (n : Nat) : PageSpec where
  body := [.nested n]

theorem levels_encode_single (s : NodeSpec) :
    (encode { body := [s] }).levels = s.encode.levels + 2 := by
  have hpos : 0 < s.encode.levels := by
    rw [NodeSpec.encode_eq, Json.levels]
    exact Nat.succ_pos _
  have hoptions : ({} : PageOptions).encode.levels = 2 := by decide
  have hencode : encode { body := [s] } =
      .obj [("body", .arr [s.encode]), ("options", ({} : PageOptions).encode)] := rfl
  simp [hencode, Json.levels, Json.memberLevels, Json.itemLevels, hoptions]
  omega

theorem fitsAll_nested (n : Nat) : FitsAll 0 (2 * n + 2) (nested n).body := by
  refine ⟨fun _ => Nat.succ_pos _, ?_⟩
  intro c hc
  obtain rfl := List.mem_singleton.mp hc
  exact NodeSpec.fits_nested n

/-- The page loads from the text of its description, and is described two levels deeper. -/
theorem load_nested {n : Nat} (h : 2 * n + 3 ≤ Json.documentLevels) :
    ∃ p, Page.load .json (Format.json.write false (nested n).encode ++ "\n") = .ok p ∧
      p.snapshot.encode.levels = 2 * n + 5 := by
  have hplain : ∀ s ∈ flatAll (nested n).body, s.Holds ∧ s.attributes = ∅ := by
    intro s hs
    obtain ⟨m, rfl⟩ := NodeSpec.of_mem_flat_nested (by simpa [nested, flatAll] using hs)
    cases m with
    | zero => exact ⟨⟨nofun, nofun⟩, rfl⟩
    | succ m => exact ⟨⟨nofun, nofun⟩, rfl⟩
  have hbuild := build_eq fun s hs => (hplain s hs).1
  have hlevels : (nested n).encode.levels = 2 * n + 3 := by
    rw [nested, levels_encode_single, NodeSpec.levels_encode_nested]
  refine ⟨_, Page.load_write (decode_encode_eq (fitsAll_nested n)) hbuild (hlevels ▸ h) false, ?_⟩
  have hid : ∀ s ∈ flatAll (nested n).body, s.tag ≠ .text →
      s.attributes.get? "id" ≠ some (nested n).options.balloonId := by
    intro s hs _ hget
    rw [(hplain s hs).2] at hget
    cases hget
  have hsnapshot := Page.snapshot_eq_normal hid hbuild
  have hbody : normalAll (nested n).body = [(NodeSpec.nested n).normal] := rfl
  rw [hsnapshot, hbody, nested, levels_encode_single, NodeSpec.levels_encode_normal_nested]

end PageSpec

/-- A text that is nested as deep as a document may be loads, and neither text of the loaded page
does. -/
theorem Page.refused_nested :
    ∃ p, Page.load .json (Format.json.write false (PageSpec.nested 62).encode ++ "\n") = .ok p ∧
      ∀ pretty, Page.load .json (p.emit { format := .json, pretty }) =
        .error (.malformed .json) := by
  obtain ⟨p, hp, hlevels⟩ := PageSpec.load_nested (n := 62) (by decide)
  refine ⟨p, hp, Page.load_emit_of_lt ?_⟩
  rw [hlevels]
  decide

end FormPage
