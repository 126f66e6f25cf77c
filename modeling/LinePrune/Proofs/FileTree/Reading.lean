import LinePrune.FileTree

namespace LinePrune.FileTree

/-- The entry that a path leads to, if it leads to one. -/
def entryOf? (tree : FileTree) (path : RawText) : Option Entry :=
  match tree.locate path with
  | .ok location => tree.entryAt? location
  | .error _ => none

theorem entryOf?_eq_some_iff {tree : FileTree} {path : RawText} {entry : Entry} :
    tree.entryOf? path = some entry ↔
      ∃ location, tree.locate path = .ok location ∧ tree.entryAt? location = some entry := by
  rw [entryOf?]
  cases located : tree.locate path with
  | error cause => simp
  | ok location => simp

theorem pathExists_eq_isSome (tree : FileTree) (path : RawText) :
    tree.pathExists path = (tree.entryOf? path).isSome := by
  rw [pathExists, entryOf?]
  cases tree.locate path with
  | error cause => rfl
  | ok location => rfl

theorem fromUTF8?_toUTF8 (text : String) : String.fromUTF8? text.toUTF8 = some text := by
  simp only [String.fromUTF8?, String.toUTF8_eq_toByteArray, text.isValidUTF8, ↓reduceDIte]
  rfl

theorem fromUTF8?_eq_none_iff {bytes : ByteArray} :
    String.fromUTF8? bytes = none ↔ ¬ bytes.IsValidUTF8 := by
  simp [String.fromUTF8?]

/-- Valid bytes are those of a text. -/
theorem exists_toUTF8_of_isValid {bytes : ByteArray} (valid : bytes.IsValidUTF8) :
    ∃ text : String, text.toUTF8 = bytes :=
  ⟨String.fromUTF8 bytes valid, rfl⟩

theorem readText_of_directory {tree : FileTree} {path : RawText}
    (found : tree.entryOf? path = some .directory) :
    tree.readText path = .error .isDirectory := by
  obtain ⟨location, located, entry⟩ := entryOf?_eq_some_iff.mp found
  simp only [readText, readBytes, located, entry]

theorem readText_of_invalid {tree : FileTree} {path : RawText} {bytes : ByteArray}
    (found : tree.entryOf? path = some (.file bytes)) (invalid : ¬ bytes.IsValidUTF8) :
    tree.readText path = .error .notText := by
  obtain ⟨location, located, entry⟩ := entryOf?_eq_some_iff.mp found
  simp only [readText, readBytes, located, entry, fromUTF8?_eq_none_iff.mpr invalid]

/-- Reading gives a text exactly when the path leads to a file with the bytes of that text. -/
theorem readText_eq_ok_iff {tree : FileTree} {path : RawText} {contents : String} :
    tree.readText path = .ok contents ↔ tree.entryOf? path = some (.file contents.toUTF8) := by
  constructor
  · intro read
    rw [readText, readBytes] at read
    rw [entryOf?]
    cases located : tree.locate path with
    | error cause => simp [located] at read
    | ok location =>
        cases entry : tree.entryAt? location with
        | none => simp [located, entry] at read
        | some found =>
            cases found with
            | directory => simp [located, entry] at read
            | file bytes =>
                simp only [located, entry] at read ⊢
                split at read
                · contradiction
                · next text decoded =>
                  obtain rfl := Except.ok.inj read
                  by_cases valid : bytes.IsValidUTF8
                  · obtain ⟨other, rfl⟩ := exists_toUTF8_of_isValid valid
                    rw [fromUTF8?_toUTF8] at decoded
                    rw [Option.some.inj decoded]
                  · rw [fromUTF8?_eq_none_iff.mpr valid] at decoded
                    contradiction
  · intro found
    obtain ⟨location, located, entry⟩ := entryOf?_eq_some_iff.mp found
    simp only [readText, readBytes, located, entry, fromUTF8?_toUTF8]

end LinePrune.FileTree
