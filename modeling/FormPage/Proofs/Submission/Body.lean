import FormPage.Proofs.Markup.Written
import FormPage.Submission.Collect

/-!
Bodies of forms. What is written for a name or a value has neither an ampersand nor an equals sign,
so that a body falls apart again where its pairs were joined, and each part stands for the bytes of
the text that it was written for. Character by character it is what two passes over the whole text
give: all bytes but those of a few characters are percent-escaped (`percentEncoded`), then spaces
become plus signs (`spaced`). Main statement: a body consists of a few ASCII characters, reading it
gives back the fields, and so no two lists of fields have one body (`fields_of_body`).
-/

namespace FormPage.FormBody

open Markup (mem_intercalate)
open Text (upperHex hexValue? isAlphanumeric isDigit)

variable {c mark : Char} {cs rest : List Char} {k : Nat}

/-! ### Escaped bytes -/

/-- The upper-case hexadecimal digit of a number below 16. -/
def hexDigit (k : Nat) : Char := Char.ofNat (if k < 10 then 48 + k else 55 + k)

/-- The digits of a byte are those of its halves. -/
theorem upperHex_two (h : k < 256) : upperHex 2 k = [hexDigit (k / 16), hexDigit (k % 16)] := by
  have hdigit : ∀ j < 16, (if isDigit j.digitChar then j.digitChar
      else Char.ofNat (j.digitChar.toNat - 32)) = hexDigit j := by decide
  have hhigh : k / 16 < 16 := by omega
  have hlow : k % 16 < 16 := by omega
  rw [upperHex, Nat.toDigits_eq_if (by decide)]
  split
  · rename_i hk
    have hzero : k / 16 = 0 := by omega
    have hself : k % 16 = k := by omega
    simp only [List.map_cons, List.map_nil, hdigit k hk, hzero, hself]
    rfl
  · simp only [Nat.toDigits_of_lt_base hhigh, List.cons_append, List.nil_append, List.map_cons,
      List.map_nil, hdigit _ hhigh, hdigit _ hlow]
    rfl

theorem hexValue?_hexDigit : ∀ k < 16, hexValue? (hexDigit k) = some k := by decide

theorem isPlain_hexDigit : ∀ k < 16, isPlain (hexDigit k) = true := by decide

theorem escapeByte_eq (b : UInt8) :
    escapeByte b = ['%', hexDigit (b.toNat / 16), hexDigit (b.toNat % 16)] := by
  rw [escapeByte, upperHex_two b.toNat_lt]

/-- An escaped byte is read back. -/
theorem bytes?_escapeByte (b : UInt8) (rest : List Char) :
    bytes? (escapeByte b ++ rest) = (bytes? rest).map (b :: ·) := by
  have hlt := b.toNat_lt
  have hvalue : 16 * (b.toNat / 16) + b.toNat % 16 = b.toNat := Nat.div_add_mod _ _
  rw [escapeByte_eq, List.cons_append, List.cons_append, List.cons_append, List.nil_append, bytes?,
    hexValue?_hexDigit _ (by omega), hexValue?_hexDigit _ (by omega)]
  cases bytes? rest with
  | none => rfl
  | some bs =>
    change some (UInt8.ofNat (16 * (b.toNat / 16) + b.toNat % 16) :: bs) = some (b :: bs)
    rw [hvalue, UInt8.ofNat_toNat]

theorem bytes?_escaped (bs : List UInt8) (rest : List Char) :
    bytes? (bs.flatMap escapeByte ++ rest) = (bytes? rest).map (bs ++ ·) := by
  induction bs with
  | nil => cases h : bytes? rest <;> simp [h]
  | cons b bs ih =>
    rw [List.flatMap_cons, List.append_assoc, bytes?_escapeByte, ih, Option.map_map]
    rfl

/-! ### Characters of an escaped text -/

/-- The characters that stand for themselves are ASCII, and none of them has a meaning of its own
in a body. -/
theorem lt_of_isPlain (h : isPlain c = true) : c.toNat < 128 := by
  simp only [isPlain, isAlphanumeric, isDigit, Bool.or_eq_true, Bool.and_eq_true,
    decide_eq_true_eq, beq_iff_eq, Char.le_def, UInt32.le_iff_toNat_le] at h
  rcases h with ((((((⟨-, h⟩ | ⟨-, h⟩) | ⟨-, h⟩) | rfl) | rfl) | rfl) | rfl)
  · exact Nat.lt_of_le_of_lt h (by decide)
  · exact Nat.lt_of_le_of_lt h (by decide)
  · exact Nat.lt_of_le_of_lt h (by decide)
  all_goals decide

theorem mem_escapeByte {b : UInt8} (h : c ∈ escapeByte b) : isPlain c = true ∨ c = '%' := by
  have hlt := b.toNat_lt
  rw [escapeByte_eq] at h
  simp only [List.mem_cons, List.not_mem_nil, or_false] at h
  rcases h with rfl | rfl | rfl
  · exact .inr rfl
  · exact .inl (isPlain_hexDigit _ (by omega))
  · exact .inl (isPlain_hexDigit _ (by omega))

/-- What is written for a text are plain characters, plus signs and percent signs. -/
theorem mem_encodeText (h : c ∈ encodeText cs) : isPlain c = true ∨ c = '+' ∨ c = '%' := by
  obtain ⟨a, -, ha⟩ := List.mem_flatMap.mp h
  rw [encodeChar] at ha
  split at ha
  · rename_i hplain
    obtain rfl := List.mem_singleton.mp ha
    exact .inl hplain
  · split at ha
    · exact .inr (.inl (List.mem_singleton.mp ha))
    · obtain ⟨b, -, hb⟩ := List.mem_flatMap.mp ha
      exact (mem_escapeByte hb).imp_right .inr

theorem not_mem_encodeText (hplain : isPlain mark = false) (hplus : mark ≠ '+')
    (hpercent : mark ≠ '%') : mark ∉ encodeText cs := fun h => by
  rcases mem_encodeText h with h | h | h
  · rw [hplain] at h
    cases h
  · exact hplus h
  · exact hpercent h

/-! ### Reading a text back -/

theorem utf8EncodeChar_of_lt (h : c.toNat < 128) :
    String.utf8EncodeChar c = [UInt8.ofNat c.toNat] := by
  have hle : c.val.toNat ≤ 127 := Nat.le_of_lt_succ h
  simp only [String.utf8EncodeChar, hle, if_true]
  rfl

theorem toNat_byte (h : c.toNat < 128) : (UInt8.ofNat c.toNat).toNat = c.toNat :=
  UInt8.toNat_ofNat_of_lt' (Nat.lt_trans h (by decide))

theorem bytes?_cons (hplus : c ≠ '+') (hpercent : c ≠ '%') (hlt : c.toNat < 128)
    (rest : List Char) : bytes? (c :: rest) = (bytes? rest).map (UInt8.ofNat c.toNat :: ·) := by
  rw [bytes?.eq_def]
  split
  · contradiction
  · rename_i heq
    exact absurd (List.cons.inj heq).1 hpercent
  · rename_i heq
    obtain ⟨rfl, rfl⟩ := List.cons.inj heq
    rw [if_neg hplus, if_pos ⟨hpercent, hlt⟩]

/-- What is written for a character stands for its bytes. -/
theorem bytes?_encodeChar (c : Char) (rest : List Char) :
    bytes? (encodeChar c ++ rest) = (bytes? rest).map (String.utf8EncodeChar c ++ ·) := by
  rw [encodeChar]
  split
  · rename_i hplain
    have hlt := lt_of_isPlain hplain
    have hplus : c ≠ '+' := by rintro rfl; cases hplain
    have hpercent : c ≠ '%' := by rintro rfl; cases hplain
    rw [utf8EncodeChar_of_lt hlt]
    exact bytes?_cons hplus hpercent hlt rest
  · split
    · rename_i hspace
      rw [hspace]
      rfl
    · exact bytes?_escaped _ _

theorem bytes?_encodeText (cs : List Char) :
    bytes? (encodeText cs) = some (cs.flatMap String.utf8EncodeChar) := by
  induction cs with
  | nil => rfl
  | cons c cs ih =>
    rw [encodeText, List.flatMap_cons, bytes?_encodeChar, ← encodeText, ih, Option.map_some,
      List.flatMap_cons]

/-- The bytes of a text are those of its characters. -/
theorem data_toByteArray (s : String) :
    s.toByteArray.data = (s.toList.flatMap String.utf8EncodeChar).toArray := by
  have hlist : s.toByteArray = s.toList.utf8Encode := by
    rw [← String.toByteArray_ofList, String.ofList_toList]
  rw [hlist, List.utf8Encode, List.data_toByteArray]

/-- An escaped text stands for the text that it was written for. -/
theorem decodeText?_encodeText (s : String) : decodeText? (encodeText s.toList) = some s := by
  rw [decodeText?, bytes?_encodeText, Option.bind_some, ← data_toByteArray, String.fromUTF8?,
    dif_pos s.isValidUTF8]
  rfl

/-! ### Falling apart again -/

theorem cutOnce_append (h : mark ∉ cs) : cutOnce mark (cs ++ mark :: rest) = (cs, rest) := by
  induction cs with
  | nil => rw [List.nil_append, cutOnce, if_pos rfl]
  | cons c cs ih =>
    obtain ⟨hne, hcs⟩ := not_or.mp (mt List.mem_cons.mpr h)
    rw [List.cons_append, cutOnce, if_neg (Ne.symm hne), ih hcs]

theorem cut_of_not_mem (h : mark ∉ cs) : cut mark cs = [cs] := by
  induction cs with
  | nil => rfl
  | cons c cs ih =>
    obtain ⟨hne, hcs⟩ := not_or.mp (mt List.mem_cons.mpr h)
    rw [cut, if_neg (Ne.symm hne), ih hcs]

theorem cut_append (h : mark ∉ cs) (rest : List Char) :
    cut mark (cs ++ mark :: rest) = cs :: cut mark rest := by
  induction cs with
  | nil => rw [List.nil_append, cut, if_pos rfl]
  | cons c cs ih =>
    obtain ⟨hne, hcs⟩ := not_or.mp (mt List.mem_cons.mpr h)
    rw [List.cons_append, cut, if_neg (Ne.symm hne), ih hcs]

/-- Parts without a mark that were joined with it are the parts between the marks. -/
theorem cut_intercalate : ∀ {parts : List (List Char)}, parts ≠ [] →
    (∀ part ∈ parts, mark ∉ part) → cut mark ([mark].intercalate parts) = parts
  | [part], _, h => by
    rw [List.intercalate_singleton]
    exact cut_of_not_mem (h part List.mem_cons_self)
  | part :: next :: parts, _, h => by
    rw [List.intercalate_cons_cons, List.append_assoc, List.singleton_append,
      cut_append (h part List.mem_cons_self),
      cut_intercalate (List.cons_ne_nil next parts) fun p hp => h p (List.mem_cons_of_mem part hp)]

theorem ampersand_not_mem_encodePair (p : String × String) : '&' ∉ encodePair p := by
  rw [encodePair, List.mem_append, List.mem_cons, not_or, not_or]
  exact ⟨not_mem_encodeText rfl (by decide) (by decide), by decide,
    not_mem_encodeText rfl (by decide) (by decide)⟩

theorem decodePair?_encodePair (p : String × String) : decodePair? (encodePair p) = some p := by
  have hequals : '=' ∉ encodeText p.1.toList := not_mem_encodeText rfl (by decide) (by decide)
  rw [decodePair?, encodePair, cutOnce_append hequals]
  simp only [decodeText?_encodeText]
  rfl

/-- Reading a body gives back the pairs that it was written for. -/
theorem decode?_encode (ps : List (String × String)) : decode? (encode ps) = some ps := by
  have hpairs : (ps.map encodePair).mapM decodePair? = some ps := by
    induction ps with
    | nil => rfl
    | cons p ps ih => rw [List.map_cons, List.mapM_cons, decodePair?_encodePair, ih]; rfl
  cases ps with
  | nil => rfl
  | cons p ps =>
    have hparts : ∀ part ∈ (p :: ps).map encodePair, '&' ∉ part := fun part hpart => by
      obtain ⟨q, -, rfl⟩ := List.mem_map.mp hpart
      exact ampersand_not_mem_encodePair q
    have hcut := cut_intercalate (by simp) hparts
    have hne : (encode (p :: ps)).isEmpty = false := by
      rw [encode, List.map_cons, encodePair]
      cases ps.map encodePair with
      | nil => simp
      | cons q qs => simp [List.intercalate_cons_cons]
    rw [decode?, hne, if_neg Bool.false_ne_true, encode, hcut, hpairs]

/-! ### Two passes -/

/-- Whether percent-encoding escapes a byte: it leaves the plain characters and the space. -/
def isEscaped (b : UInt8) : Bool :=
  !(b.toNat < 128 && (isPlain (Char.ofNat b.toNat) || Char.ofNat b.toNat == ' '))

/-- The bytes of a text, percent-escaped where they do not stand for themselves. -/
def percentEncoded (s : String) : List Char :=
  s.toByteArray.data.toList.flatMap fun b =>
    if isEscaped b then escapeByte b else [Char.ofNat b.toNat]

/-- A text with plus signs in place of its spaces. -/
def spaced (cs : List Char) : List Char := cs.map fun c => if c = ' ' then '+' else c

theorem spaced_of_not_mem (h : ' ' ∉ cs) : spaced cs = cs := by
  refine (List.map_congr_left fun c hc => if_neg ?_).trans (List.map_id' cs)
  rintro rfl
  exact h hc

theorem space_not_mem_escapeByte (b : UInt8) : ' ' ∉ escapeByte b := fun h => by
  rcases mem_escapeByte h with h | h <;> cases h

/-- The bytes of a character that stands neither for itself nor for a space are all escaped. -/
theorem isEscaped_of_mem (hplain : isPlain c = false) (hspace : c ≠ ' ') {b : UInt8}
    (hb : b ∈ String.utf8EncodeChar c) : isEscaped b = true := by
  have hhigh : ∀ j, 128 ≤ j → j < 256 → isEscaped (UInt8.ofNat j) = true := fun j hle hlt => by
    have hj : (UInt8.ofNat j).toNat = j := UInt8.toNat_ofNat_of_lt' hlt
    have hnot : ¬ j < 128 := Nat.not_lt_of_le hle
    simp [isEscaped, hj, hnot]
  by_cases hc : c.toNat < 128
  · rw [utf8EncodeChar_of_lt hc] at hb
    obtain rfl := List.mem_singleton.mp hb
    simp [isEscaped, toNat_byte hc, hplain, hspace]
  · have hle : ¬ c.val.toNat ≤ 127 := fun hle => hc (Nat.lt_succ_of_le hle)
    simp only [String.utf8EncodeChar, hle, if_false] at hb
    split at hb
    · simp only [List.mem_cons, List.not_mem_nil, or_false] at hb
      rcases hb with rfl | rfl <;> exact hhigh _ (by omega) (by omega)
    · split at hb
      · simp only [List.mem_cons, List.not_mem_nil, or_false] at hb
        rcases hb with rfl | rfl | rfl <;> exact hhigh _ (by omega) (by omega)
      · simp only [List.mem_cons, List.not_mem_nil, or_false] at hb
        rcases hb with rfl | rfl | rfl | rfl <;> exact hhigh _ (by omega) (by omega)

/-- Escaping a character is escaping its bytes, but for a space. -/
theorem encodeChar_eq (c : Char) : encodeChar c = spaced ((String.utf8EncodeChar c).flatMap fun b =>
    if isEscaped b then escapeByte b else [Char.ofNat b.toNat]) := by
  cases hplain : isPlain c with
  | true =>
    have hlt := lt_of_isPlain hplain
    have hspace : ' ' ∉ [c] := fun h => by
      rw [← List.mem_singleton.mp h] at hplain
      cases hplain
    have hescaped : isEscaped (UInt8.ofNat c.toNat) = false := by
      simp [isEscaped, toNat_byte hlt, hlt, hplain]
    rw [encodeChar, if_pos hplain, utf8EncodeChar_of_lt hlt, List.flatMap_singleton, hescaped,
      if_neg Bool.false_ne_true, toNat_byte hlt, Char.ofNat_toNat, spaced_of_not_mem hspace]
  | false =>
    by_cases hspace : c = ' '
    · rw [hspace]
      decide
    · have hall : ((String.utf8EncodeChar c).flatMap fun b =>
          if isEscaped b then escapeByte b else [Char.ofNat b.toNat]) =
            (String.utf8EncodeChar c).flatMap escapeByte :=
        List.flatMap_congr fun b hb => if_pos (isEscaped_of_mem hplain hspace hb)
      have hnone : ' ' ∉ (String.utf8EncodeChar c).flatMap escapeByte := fun h => by
        obtain ⟨b, -, hb⟩ := List.mem_flatMap.mp h
        exact space_not_mem_escapeByte b hb
      rw [encodeChar, hplain, if_neg Bool.false_ne_true, if_neg hspace, hall,
        spaced_of_not_mem hnone]

/-- Escaping character by character is what the two passes give. -/
theorem encodeText_eq (s : String) : encodeText s.toList = spaced (percentEncoded s) := by
  rw [percentEncoded, data_toByteArray, List.flatMap_assoc, spaced, List.map_flatMap, encodeText]
  exact List.flatMap_congr fun c _ => encodeChar_eq c

theorem encode_eq (ps : List (String × String)) : encode ps = ['&'].intercalate (ps.map fun p =>
    spaced (percentEncoded p.1) ++ '=' :: spaced (percentEncoded p.2)) := by
  rw [encode]
  refine congrArg _ (List.map_congr_left fun p _ => ?_)
  rw [encodePair, encodeText_eq, encodeText_eq]

/-! ### Bodies -/

/-- The characters of a body. -/
theorem mem_encode {ps : List (String × String)} (h : c ∈ encode ps) :
    isPlain c = true ∨ c ∈ ['+', '%', '=', '&'] := by
  have htext : ∀ s : String, c ∈ encodeText s.toList →
      isPlain c = true ∨ c ∈ ['+', '%', '=', '&'] := fun s hc => by
    rcases mem_encodeText hc with hc | rfl | rfl
    · exact .inl hc
    · exact .inr (by decide)
    · exact .inr (by decide)
  rcases mem_intercalate h with hc | ⟨part, hpart, hc⟩
  · rw [List.mem_singleton.mp hc]
    exact .inr (by decide)
  · obtain ⟨p, -, rfl⟩ := List.mem_map.mp hpart
    rw [encodePair, List.mem_append, List.mem_cons] at hc
    rcases hc with hc | rfl | hc
    · exact htext p.1 hc
    · exact .inr (by decide)
    · exact htext p.2 hc

/-- The body of a form is what two passes give, percent-encoding and plus signs for spaces. It
consists of ASCII letters and digits and a few other characters, reading it gives back the fields in
order, and forms with one body have the same fields. -/
theorem fields_of_body (s : Submission) :
    s.body.toList = ['&'].intercalate (s.fields.map fun p =>
        spaced (percentEncoded p.1) ++ '=' :: spaced (percentEncoded p.2)) ∧
      (∀ c ∈ s.body.toList,
        isAlphanumeric c = true ∨ c ∈ ['*', '-', '.', '_', '+', '%', '=', '&']) ∧
      decode? s.body.toList = some s.fields ∧
      ∀ s' : Submission, s'.body = s.body → s'.fields = s.fields := by
  have hbody : ∀ s : Submission, s.body.toList = encode s.fields := fun s => String.toList_ofList
  refine ⟨by rw [hbody, encode_eq], fun c hc => ?_, by rw [hbody, decode?_encode],
    fun s' hs' => ?_⟩
  · rw [hbody] at hc
    rcases mem_encode hc with h | h
    · simp only [isPlain, Bool.or_eq_true, beq_iff_eq] at h
      rcases h with (((h | rfl) | rfl) | rfl) | rfl
      · exact .inl h
      all_goals exact .inr (by decide)
    · exact .inr (List.mem_append_right ['*', '-', '.', '_'] h)
  · have hread : decode? s'.body.toList = some s.fields := by rw [hs', hbody, decode?_encode]
    rw [hbody, decode?_encode] at hread
    exact Option.some.inj hread

end FormPage.FormBody
