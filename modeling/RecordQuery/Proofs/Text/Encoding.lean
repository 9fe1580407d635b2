import Mathlib.Data.List.Infix
import RecordQuery.Needle

/-!
# Searching encoded texts

A search that compares encoded bytes finds what a search that compares characters finds
(`Needle.bytes_infix_iff`), and where it finds them (`Needle.exists_of_bytes_eq`).  The byte that an
encoded character begins with stands nowhere else in an encoding, so bytes that are found begin with
a character, and from there on one encoding is read in one way only.
-/

namespace RecordQuery.Needle

open String (utf8EncodeChar)

/-! ## Encoded characters -/

/-- An encoded character has one byte that begins it, before all others. -/
theorem exists_firstByte (c : Char) :
    ∃ first later, utf8EncodeChar c = first :: later ∧ first.IsUTF8FirstByte ∧
      ∀ byte ∈ later, ¬ byte.IsUTF8FirstByte := by
  have hplace (i : Nat) (hi : i < (utf8EncodeChar c).length) :
      (utf8EncodeChar c)[i].IsUTF8FirstByte ↔ i = 0 :=
    UInt8.isUTF8FirstByte_getElem_utf8EncodeChar
  cases hbytes : utf8EncodeChar c with
  | nil =>
      have hlength := congrArg List.length hbytes
      rw [String.length_utf8EncodeChar] at hlength
      exact absurd hlength (Nat.ne_of_gt c.utf8Size_pos)
  | cons first later =>
      simp only [hbytes] at hplace
      refine ⟨first, later, rfl, (hplace 0 (by simp)).mpr rfl, fun byte hbyte => ?_⟩
      obtain ⟨i, hi, rfl⟩ := List.getElem_of_mem hbyte
      have hsucc : i + 1 < (first :: later).length := Nat.succ_lt_succ hi
      exact fun hfirst => Nat.succ_ne_zero i ((hplace (i + 1) hsucc).mp hfirst)

/-- The character that bytes begin with is told by the bytes. -/
theorem utf8EncodeChar_append_inj {c d : Char} {left right : List UInt8}
    (h : utf8EncodeChar c ++ left = utf8EncodeChar d ++ right) : c = d ∧ left = right := by
  have hdecoded (c : Char) (rest : List UInt8) :
      (utf8EncodeChar c ++ rest).toByteArray.utf8DecodeChar? 0 = some c := by
    rw [List.toByteArray_append]
    exact ByteArray.utf8DecodeChar?_utf8EncodeChar_append
  have hsame : some c = some d := by rw [← hdecoded c left, h, hdecoded d right]
  obtain rfl := Option.some.inj hsame
  exact ⟨rfl, List.append_cancel_left h⟩

/-! ## Encoded texts -/

theorem bytes_eq (text : String) : bytes text = text.toList.flatMap utf8EncodeChar := by
  have hencoded : text.toByteArray = (text.toList.flatMap utf8EncodeChar).toByteArray := by
    conv_lhs => rw [← String.ofList_toList (s := text), String.toByteArray_ofList]
    rfl
  rw [bytes, String.toUTF8_eq_toByteArray, hencoded, List.data_toByteArray]

section Infix

variable {part whole : List Char}

/-- Encodings begin with an encoding just if the characters begin with its characters. -/
theorem encoded_prefix_iff :
    part.flatMap utf8EncodeChar <+: whole.flatMap utf8EncodeChar ↔ part <+: whole := by
  refine ⟨fun h => ?_, fun h => h.flatMap utf8EncodeChar⟩
  induction part generalizing whole with
  | nil => exact List.nil_prefix
  | cons c part ih =>
      obtain ⟨rest, hrest⟩ := h
      rw [List.flatMap_cons, List.append_assoc] at hrest
      cases whole with
      | nil =>
          obtain ⟨first, later, hfirst, _⟩ := exists_firstByte c
          rw [hfirst] at hrest
          cases hrest
      | cons d whole =>
          rw [List.flatMap_cons] at hrest
          obtain ⟨rfl, hbehind⟩ := utf8EncodeChar_append_inj hrest
          exact List.cons_prefix_cons.mpr ⟨rfl, ih ⟨rest, hbehind⟩⟩

/-- An encoded character in front of others is in front of what is found behind a byte. -/
theorem exists_of_encoded_cons {c d : Char} {byte : UInt8} {left rest behind : List UInt8}
    (h : utf8EncodeChar c ++ rest = byte :: left ++ (utf8EncodeChar d ++ behind)) :
    ∃ later, byte :: left = utf8EncodeChar c ++ later ∧
      rest = later ++ (utf8EncodeChar d ++ behind) := by
  rcases List.append_eq_append_iff.mp h with ⟨later, hleft, hrest⟩ | ⟨last, hc, hbehind⟩
  · exact ⟨later, hleft, hrest⟩
  · cases last with
    | nil => exact ⟨[], by simpa using hc.symm, by simpa using hbehind.symm⟩
    | cons other last =>
        -- What is found would begin with a later byte of `c`, but it begins with a first byte.
        obtain ⟨_, others, hbytes, _, hothers⟩ := exists_firstByte c
        obtain ⟨first, later, hd, hfirst, _⟩ := exists_firstByte d
        rw [hbytes, List.cons_append] at hc
        rw [hd] at hbehind
        obtain ⟨_, rfl⟩ := List.cons.inj hc
        obtain ⟨rfl, _⟩ := List.cons.inj hbehind
        exact absurd hfirst (hothers first (by simp))

theorem exists_of_encoded_start {right : List UInt8}
    (h : whole.flatMap utf8EncodeChar = part.flatMap utf8EncodeChar ++ right) :
    ∃ after, whole = part ++ after ∧ after.flatMap utf8EncodeChar = right := by
  obtain ⟨after, rfl⟩ := encoded_prefix_iff.mp ⟨right, h.symm⟩
  rw [List.flatMap_append] at h
  exact ⟨after, rfl, List.append_cancel_left h⟩

/-- Where an encoding holds an encoding, it does so from one character to another; the empty one is
looked for at the start only. -/
theorem exists_of_encoded_eq {left right : List UInt8}
    (h : whole.flatMap utf8EncodeChar = left ++ (part.flatMap utf8EncodeChar ++ right))
    (hempty : part = [] → left = []) :
    ∃ before after, whole = before ++ (part ++ after) ∧
      before.flatMap utf8EncodeChar = left ∧ after.flatMap utf8EncodeChar = right := by
  induction whole generalizing left with
  | nil =>
      obtain ⟨rfl, hfound⟩ := List.append_eq_nil_iff.mp h.symm
      have hstart : ([] : List Char).flatMap utf8EncodeChar =
          part.flatMap utf8EncodeChar ++ right := hfound.symm
      obtain ⟨after, hafter, hright⟩ := exists_of_encoded_start hstart
      exact ⟨[], after, hafter, rfl, hright⟩
  | cons c whole ih =>
      -- The part starts where the character does, or behind it: its first byte is no continuation.
      cases left with
      | nil =>
          obtain ⟨after, hafter, hright⟩ := exists_of_encoded_start h
          exact ⟨[], after, hafter, rfl, hright⟩
      | cons byte left =>
          cases part with
          | nil => cases hempty rfl
          | cons d part =>
              rw [List.flatMap_cons, List.flatMap_cons, List.append_assoc] at h
              obtain ⟨later, hleft, hrest⟩ := exists_of_encoded_cons h
              have hlater : whole.flatMap utf8EncodeChar =
                  later ++ ((d :: part).flatMap utf8EncodeChar ++ right) := by
                rw [hrest, List.flatMap_cons, List.append_assoc]
              obtain ⟨before, after, rfl, hbefore, hafter⟩ := ih hlater nofun
              refine ⟨c :: before, after, rfl, ?_, hafter⟩
              rw [List.flatMap_cons, hbefore, hleft]

/-- Encodings hold an encoding just if the characters hold its characters. -/
theorem encoded_infix_iff :
    part.flatMap utf8EncodeChar <:+: whole.flatMap utf8EncodeChar ↔ part <:+: whole := by
  refine ⟨fun h => ?_, fun h => h.flatMap utf8EncodeChar⟩
  by_cases hpart : part = []
  · rw [hpart]
    exact List.nil_infix
  · obtain ⟨left, right, h⟩ := h
    rw [List.append_assoc] at h
    obtain ⟨before, after, rfl, _⟩ := exists_of_encoded_eq h.symm fun hnil => absurd hnil hpart
    exact ⟨before, after, List.append_assoc ..⟩

end Infix

theorem bytes_infix_iff {part whole : String} :
    bytes part <:+: bytes whole ↔ part.toList <:+: whole.toList := by
  rw [bytes_eq, bytes_eq, encoded_infix_iff]

/-- Where the bytes of a text hold those of another one, its characters do; nothing is looked for
at the start only. -/
theorem exists_of_bytes_eq {part whole : String} {left right : List UInt8}
    (h : bytes whole = left ++ (bytes part ++ right)) (hempty : part = "" → left = []) :
    ∃ before after : String, whole = before ++ (part ++ after) ∧
      bytes before = left ∧ bytes after = right := by
  rw [bytes_eq, bytes_eq] at h
  obtain ⟨before, after, hwhole, hbefore, hafter⟩ :=
    exists_of_encoded_eq h fun hnil => hempty (String.toList_eq_nil_iff.mp hnil)
  refine ⟨.ofList before, .ofList after, String.toList_inj.mp ?_, ?_, ?_⟩
  · simp only [String.toList_append, String.toList_ofList, hwhole]
  · rw [bytes_eq, String.toList_ofList, hbefore]
  · rw [bytes_eq, String.toList_ofList, hafter]

end RecordQuery.Needle
