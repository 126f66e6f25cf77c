import Mathlib.Data.List.Basic

namespace LinePrune.Text

/-- The bytes of a text are those of its characters in order. -/
theorem getElem?_toUTF8 (text : String) (offset : Nat) :
    text.toUTF8[offset]? = (text.toList.flatMap String.utf8EncodeChar)[offset]? := by
  have bytes : text.toUTF8 = (text.toList.flatMap String.utf8EncodeChar).toByteArray := by
    conv_lhs => rw [String.toUTF8_eq_toByteArray, ← String.ofList_toList (s := text),
      String.toByteArray_ofList, List.utf8Encode]
  rw [bytes]
  generalize text.toList.flatMap String.utf8EncodeChar = listed
  by_cases inside : offset < listed.length
  · rw [getElem?_pos listed.toByteArray offset (by simpa using inside),
      getElem?_pos listed offset inside]
    simp [ByteArray.getElem_eq_getElem_data]
  · rw [getElem?_neg listed.toByteArray offset (by simpa using inside),
      getElem?_neg listed offset inside]

theorem length_flatMap_utf8EncodeChar (text : String) :
    (text.toList.flatMap String.utf8EncodeChar).length = text.utf8ByteSize := by
  rw [← String.size_toByteArray]
  conv_rhs => rw [← String.ofList_toList (s := text), String.toByteArray_ofList, List.utf8Encode]
  simp

theorem getElem?_toUTF8_append (before behind : String) (offset : Nat) :
    (before ++ behind).toUTF8[before.utf8ByteSize + offset]? = behind.toUTF8[offset]? := by
  rw [getElem?_toUTF8, getElem?_toUTF8, String.toList_append, List.flatMap_append,
    ← length_flatMap_utf8EncodeChar, List.getElem?_append_right (Nat.le_add_right ..),
    Nat.add_sub_cancel_left]

/-- Two ways to part a text share the part in front of the first seam. -/
theorem exists_append_of_le {before behind upTo after : String}
    (same : before ++ behind = upTo ++ after) (le : before.utf8ByteSize ≤ upTo.utf8ByteSize) :
    ∃ text, upTo = before ++ text ∧ behind = text ++ after := by
  have chars := congrArg String.toList same
  rw [String.toList_append, String.toList_append, List.append_eq_append_iff] at chars
  rcases chars with ⟨text, front, back⟩ | ⟨text, front, back⟩
  · refine ⟨String.ofList text, ?_, ?_⟩
    · exact String.toList_injective (by simp [front])
    · exact String.toList_injective (by simp [back])
  · have size : before.utf8ByteSize = upTo.utf8ByteSize + (String.ofList text).utf8ByteSize := by
      rw [← String.utf8ByteSize_append]
      exact congrArg String.utf8ByteSize (String.toList_injective (by simp [front]))
    have blank : String.ofList text = "" := by
      rw [← String.utf8ByteSize_eq_zero_iff]
      omega
    obtain rfl : text = [] := by simpa using congrArg String.toList blank
    refine ⟨"", ?_, ?_⟩
    · exact String.toList_injective (by simp [front])
    · exact String.toList_injective (by simp [back])

section Ascii

variable {mark : Char}

theorem utf8EncodeChar_of_ascii (ascii : mark.toNat < 128) :
    String.utf8EncodeChar mark = [mark.toUInt8] := by
  have width : mark.utf8Size = 1 := by
    rw [Char.utf8Size_eq_one_iff, UInt32.le_iff_toNat_le]
    exact Nat.le_of_lt_succ ascii
  exact String.utf8EncodeChar_eq_singleton width

/-- No longer encoding begins with the byte of an ASCII character. -/
theorem head?_utf8EncodeChar_eq_iff {c : Char} (ascii : mark.toNat < 128) :
    (String.utf8EncodeChar c).head? = some mark.toUInt8 ↔ c = mark := by
  constructor
  · intro same
    have code : mark.toUInt8.toNat = mark.toNat := by
      simp only [Char.toUInt8, UInt32.toNat_toUInt8]
      exact Nat.mod_eq_of_lt (Nat.lt_trans ascii (by decide))
    have lead (value : Nat) (first : UInt8.ofNat value = mark.toUInt8) :
        value % 256 = mark.toNat := by
      rw [← code, ← first, UInt8.toNat_ofNat']
    apply Char.toNat_inj.mp
    change c.val.toNat = mark.toNat
    simp only [String.utf8EncodeChar] at same
    -- A longer encoding begins with a byte of at least 192.
    split_ifs at same with one two three
    · have value := lead _ (Option.some.inj same)
      omega
    · have value := lead _ (Option.some.inj same)
      omega
    · have value := lead _ (Option.some.inj same)
      omega
    · have value := lead _ (Option.some.inj same)
      omega
  · rintro rfl
    rw [utf8EncodeChar_of_ascii ascii, List.head?_cons]

/-- The byte at the seam of two texts tells an ASCII character that the second one begins with. -/
theorem getElem?_toUTF8_seam_iff {before behind : String} (ascii : mark.toNat < 128) :
    (before ++ behind).toUTF8[before.utf8ByteSize]? = some mark.toUInt8 ↔
      behind.toList.head? = some mark := by
  have seam : (before ++ behind).toUTF8[before.utf8ByteSize]? = behind.toUTF8[0]? :=
    getElem?_toUTF8_append before behind 0
  rw [seam, getElem?_toUTF8, ← List.head?_eq_getElem?]
  cases behind.toList with
  | nil => simp
  | cons c rest =>
      rw [List.flatMap_cons, List.head?_append_of_ne_nil _ String.utf8EncodeChar_ne_nil,
        head?_utf8EncodeChar_eq_iff ascii, List.head?_cons, Option.some.injEq]

/-- No byte inside a longer encoding is that of an ASCII character. -/
theorem isValid_of_getElem? {text : String} {offset : Nat} (ascii : mark.toNat < 128)
    (found : text.toUTF8[offset]? = some mark.toUInt8) : String.Pos.Raw.IsValid text ⟨offset⟩ := by
  obtain ⟨inside, byte⟩ := getElem?_eq_some_iff.mp found
  have first : mark.toUInt8.IsUTF8FirstByte := by
    have encoded := UInt8.isUTF8FirstByte_getElem_zero_utf8EncodeChar (c := mark)
    simpa only [utf8EncodeChar_of_ascii ascii, List.getElem_cons_zero] using encoded
  rw [String.Pos.Raw.isValid_iff_isUTF8FirstByte]
  have below : (⟨offset⟩ : String.Pos.Raw) < text.rawEndPos := by
    simpa [String.Pos.Raw.lt_iff] using inside
  refine .inr ⟨below, ?_⟩
  rw [← byte] at first
  exact first

end Ascii

end LinePrune.Text
