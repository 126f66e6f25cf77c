/-
This file has paths and arguments as the system hands them over, which need not be texts.
-/

namespace LinePrune

/-- Bytes are read as characters as far as that goes. Those that begin no character, or one that is
never completed, stay together as they are. -/
inductive RawChar where
  | char (c : Char)
  | stray (first : UInt8) (others : List UInt8)
  deriving DecidableEq, Repr

namespace RawChar

def isChar : RawChar → Bool
  | .char _ => true
  | .stray _ _ => false

/-- Stray bytes are all shown by the same mark. -/
def shown : RawChar → Char
  | .char c => c
  | .stray _ _ => '\uFFFD'

/-- The number of bytes. -/
def size : RawChar → Nat
  | .char c => c.utf8Size
  | .stray _ others => others.length + 1

end RawChar

/-- The system only hands over what comes from reading bytes. Other lists are allowed as well. -/
structure RawText where
  toList : List RawChar
  deriving DecidableEq, Repr

namespace RawText

def ofString (text : String) : RawText where
  toList := text.toList.map .char

instance : Coe String RawText where
  coe := ofString

instance : Append RawText where
  append first second := ⟨first.toList ++ second.toList⟩

def isEmpty (raw : RawText) : Bool :=
  raw.toList.isEmpty

def size (raw : RawText) : Nat :=
  raw.toList.foldr (fun part total => part.size + total) 0

/-- What is shown to the operator does not tell different stray bytes apart. -/
def display (raw : RawText) : String :=
  String.ofList (raw.toList.map RawChar.shown)

/-- Only characters make up a text. -/
def text? (raw : RawText) : Option String :=
  if raw.toList.all RawChar.isChar then some raw.display else none

@[ext] theorem ext {first second : RawText} (same : first.toList = second.toList) :
    first = second := by
  cases first
  cases second
  simpa using same

@[simp] theorem toList_ofString (text : String) :
    (ofString text).toList = text.toList.map .char := rfl

@[simp] theorem toList_append (first second : RawText) :
    (first ++ second).toList = first.toList ++ second.toList := rfl

theorem append_assoc (first second third : RawText) :
    first ++ second ++ third = first ++ (second ++ third) := by
  ext1
  simp

@[simp] theorem append_empty (raw : RawText) : raw ++ "" = raw := by
  ext1
  simp

@[simp] theorem ofString_append (first second : String) :
    ofString (first ++ second) = ofString first ++ ofString second := by
  ext1
  simp

@[simp] theorem display_ofString (text : String) : (ofString text).display = text := by
  rw [display, toList_ofString, List.map_map]
  exact (congrArg String.ofList (List.map_id _)).trans String.ofList_toList

@[simp] theorem ofString_inj {first second : String} :
    ofString first = ofString second ↔ first = second := by
  constructor
  · intro same
    simpa using congrArg display same
  · rintro rfl
    rfl

@[simp] theorem length_toList_display (raw : RawText) :
    raw.display.toList.length = raw.toList.length := by
  simp [display]

@[simp] theorem isEmpty_iff {raw : RawText} : raw.isEmpty = true ↔ raw = "" := by
  rw [isEmpty, List.isEmpty_iff]
  exact ⟨fun empty => ext empty, fun same => same ▸ rfl⟩

/-- A list without stray bytes is made of the characters that it shows. -/
theorem map_char_shown {parts : List RawChar} (chars : parts.all RawChar.isChar = true) :
    (parts.map RawChar.shown).map .char = parts := by
  induction parts with
  | nil => rfl
  | cons part rest ih =>
      rw [List.all_cons, Bool.and_eq_true] at chars
      cases part with
      | char c => rw [List.map_cons, List.map_cons, ih chars.2, RawChar.shown]
      | stray first others => simp [RawChar.isChar] at chars

theorem text?_eq_some_iff {raw : RawText} {text : String} :
    raw.text? = some text ↔ raw = text := by
  rw [text?]
  constructor
  · intro found
    split at found
    next chars =>
      obtain rfl := Option.some.inj found
      ext1
      rw [toList_ofString, display, String.toList_ofList, map_char_shown chars]
    next => contradiction
  · intro same
    have chars : (ofString text).toList.all RawChar.isChar = true := by simp [RawChar.isChar]
    rw [same, if_pos chars, display_ofString]

end RawText

end LinePrune
