import FormPage.Balloon.Basic
import FormPage.Proofs.Document.Calls
import FormPage.Row.Repeat
import FormPage.Submission.Request

/-!
The operations that are built on the interface of a document: adding a row, sending a request, and
adopting, showing and hiding a balloon. None of them writes a document in any other way than by
calls of the interface, so what every call keeps is kept by every operation, whether it succeeds or
not, and wherever it stops.
-/

namespace FormPage

open Document

variable {P : Document → Prop} (hP : Document.Kept P)
include hP

/-! ### Rows -/

theorem Row.keeps_copyAttribute (n : NodeId) (name : String) (value : Option String) :
    (copyAttribute n name value).Keeps P := by
  cases value with
  | none => exact Edit.keeps_pure ()
  | some v => exact hP.setAttribute n name v

theorem Row.keeps_insertRow (t : Template) (field : String) (number : Int) :
    (insertRow t field number).Keeps P := by
  refine (hP.createElement _).bind fun row => ?_
  refine (hP.createElement _).bind fun labelCell => ?_
  refine (hP.createText _).bind fun label => ?_
  refine (hP.createElement _).bind fun inputCell => ?_
  refine (hP.createElement _).bind fun input => ?_
  refine (hP.appendChild labelCell label).bind fun _ => ?_
  refine (hP.appendChild row labelCell).bind fun _ => ?_
  refine (Row.keeps_copyAttribute hP input "type" _).bind fun _ => ?_
  refine (Row.keeps_copyAttribute hP input "size" _).bind fun _ => ?_
  refine (hP.setAttribute input "name" _).bind fun _ => ?_
  refine (hP.appendChild inputCell input).bind fun _ => ?_
  refine (hP.appendChild row inputCell).bind fun _ => ?_
  exact (hP.insertBefore _ row _).bind fun _ => Edit.keeps_pure row

theorem Row.add_kept {d : Document} (h : P d) (control : NodeId) (field : String) :
    P (Row.add d control field).2 := by
  rw [Row.add]
  split
  · exact h
  · rename_i t _
    split
    · exact Row.keeps_insertRow hP t field _ d h
    · exact h

/-! ### Requests -/

theorem Request.send_kept {d : Document} (h : P d) (control : NodeId) (value fieldName : String)
    (confirm : String → Bool) : P (Request.send d control value fieldName confirm).2 := by
  rw [Request.send]
  split
  · exact h
  · split
    · exact h
    · rename_i field _
      have hset := hP.setAttribute field "value"
        (Intent.text ⟨(d.attribute? control "name").getD "", value⟩) d h
      simp only
      split
      · rename_i hr; rw [hr] at hset; exact hset
      · rename_i hr
        rw [hr] at hset
        split <;> exact hset

/-! ### Balloons -/

namespace Balloon

theorem keeps_restyle (n : NodeId) (f : Style → Style) : (restyle n f).Keeps P :=
  hP (.updateStyle n f)

theorem keeps_appendBand (element : NodeId) (cssClass : String) :
    (appendBand element cssClass).Keeps P := by
  refine (hP.createElement _).bind fun band => ?_
  refine (hP.setAttribute band "class" cssClass).bind fun _ => ?_
  refine (keeps_restyle hP band _).bind fun _ => ?_
  exact hP.appendChild element band

theorem keeps_appendTextRegion (element : NodeId) : (appendTextRegion element).Keeps P := by
  refine (hP.createElement _).bind fun region => ?_
  refine (hP.setAttribute region "class" "text").bind fun _ => ?_
  exact (hP.appendChild element region).bind fun _ => Edit.keeps_pure region

theorem keeps_build (id cssClass : String) : (build id cssClass).Keeps P := by
  refine (hP.createElement _).bind fun element => ?_
  refine (hP.setAttribute element "id" id).bind fun _ => ?_
  refine (hP.setAttribute element "class" cssClass).bind fun _ => ?_
  refine (keeps_restyle hP element _).bind fun _ => ?_
  refine (keeps_appendBand hP element "top").bind fun _ => ?_
  refine (keeps_appendTextRegion hP element).bind fun textRegion => ?_
  refine (keeps_appendBand hP element "bottom").bind fun _ => ?_
  exact (hP.appendChild body element).bind fun _ => Edit.keeps_pure _

theorem adopt_kept {d : Document} (h : P d) (b : Balloon) : P (b.adopt d).2.2 := by
  rw [adopt]
  split
  · exact h
  · split
    · exact h
    · rename_i element _
      split
      · exact h
      · have hr := keeps_appendTextRegion hP element d h
        split <;> rename_i he <;> rw [he] at hr <;> exact hr

theorem ensure_kept {d : Document} (h : P d) (b : Balloon) : P (b.ensure d).2.2 := by
  have ha := adopt_kept hP h b
  simp only [ensure]
  split
  · exact ha
  · have hb := keeps_build hP (b.adopt d).2.1.id (b.adopt d).2.1.cssClass _ ha
    split <;> rename_i he <;> rw [he] at hb <;> exact hb

theorem clear_kept (region : NodeId) : ∀ (ns : List NodeId) {d : Document}, P d →
    P (ns.foldl (clearChild region) d)
  | [], _, h => h
  | n :: ns, d, h => clear_kept region ns (hP.removeChild region n d h)

theorem keeps_fill (region : NodeId) (text : String) : (fill region text).Keeps P := by
  refine (Edit.keeps_modify fun d h => clear_kept hP region (d.children region) h).bind fun _ => ?_
  exact (hP.createText text).bind fun content => hP.appendChild region content

theorem showAt_kept {d : Document} (h : P d) (b : Balloon) (target : NodeId) (text : String) :
    P (b.showAt d target text).2.2 := by
  have he := ensure_kept hP h b
  rw [showAt]
  split
  · exact h
  · split
    · rename_i hr; rw [hr] at he; exact he
    · rename_i parts b' d' hr
      rw [hr] at he
      have hf := keeps_fill hP parts.textRegion text d' he
      split
      · rename_i hr'; rw [hr'] at hf; exact hf
      · rename_i filled hr'
        rw [hr'] at hf
        simp only at hf ⊢
        exact hP.updateStyle hf _ _

theorem hide_kept {d : Document} (h : P d) (b : Balloon) : P (b.hide d) := by
  rw [hide]
  split
  · exact h
  · exact hP.updateStyle h _ _

end Balloon

end FormPage
