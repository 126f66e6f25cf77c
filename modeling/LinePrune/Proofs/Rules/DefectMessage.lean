import LinePrune.Proofs.Config.Loading
import LinePrune.Proofs.Rules.DefectList
import LinePrune.Proofs.Text.Escapes

namespace LinePrune

namespace Rules

namespace Defect

/-- A position is written in digits, and a trigger is quoted, whatever it holds. -/
theorem hasTerminator_message (defect : Defect) : hasTerminator defect.message = false := by
  cases defect with
  | overlap position =>
      have digits := Text.ne_terminator_of_mem_toDigits position.toNat
      simpa [message, hasTerminator] using digits
  | terminatorInTrigger trigger =>
      have quotation := Text.ne_terminator_of_mem_quoted trigger
      simpa [message, hasTerminator] using quotation
  | _ => simp [message, hasTerminator]

theorem ne_terminator_of_mem_message (defect : Defect) :
    ∀ c ∈ defect.message.toList, c ≠ '\n' ∧ c ≠ '\r' :=
  hasTerminator_eq_false_iff.mp defect.hasTerminator_message

/-- The text of a defect tells which one it is. Texts of different kinds begin differently. -/
theorem message_injective : Function.Injective message := by
  intro first second same
  have chars := congrArg String.toList same
  cases first <;> cases second <;> simp [message, Text.quoted] at chars ⊢
  case overlap.overlap position other =>
    have numbers := congrArg (fun digits => Nat.ofDigitChars 10 digits 0) chars
    simpa [UInt64.toNat_inj] using numbers
  case terminatorInTrigger.terminatorInTrigger trigger other =>
    have closed : trigger.toList.flatMap Text.escape ++ ['"'] =
        other.toList.flatMap Text.escape ++ ['"'] := by rw [chars]
    exact String.toList_injective (Text.flatMap_escape_append_inj closed).1

end Defect

/-- The first line tells what the message is about, and each defect stands behind a dash. -/
def messageLines (defects : List Defect) : List String :=
  "invalid rules:" :: defects.map fun defect => "- " ++ defect.message

section Lines

/-- The dash ahead of the first text is the one that the others have between them. -/
theorem dash_append_intercalate (text : String) (texts : List String) :
    "- " ++ "\n- ".intercalate (text :: texts) =
      "\n".intercalate ((text :: texts).map fun text => "- " ++ text) := by
  induction texts generalizing text with
  | nil => simp
  | cons next rest ih =>
      have dash : "\n- " = "\n" ++ "- " := rfl
      rw [String.intercalate_cons_cons, List.map_cons, List.map_cons,
        String.intercalate_cons_cons, ← List.map_cons, ← ih, dash]
      simp only [String.append_assoc]

theorem defectsMessage_eq_intercalate {defects : List Defect} (some : defects ≠ []) :
    defectsMessage defects = "\n".intercalate (messageLines defects) := by
  obtain ⟨defect, rest, rfl⟩ := List.exists_cons_of_ne_nil some
  have opening (text : String) :
      "invalid rules:\n- " ++ text = "invalid rules:" ++ ("\n" ++ ("- " ++ text)) := by
    simp [← String.append_assoc]
  calc defectsMessage (defect :: rest)
    _ = "invalid rules:" ++ ("\n" ++ ("- " ++
          "\n- ".intercalate (defect.message :: rest.map Defect.message))) := opening _
    _ = "invalid rules:" ++ ("\n" ++ "\n".intercalate
          ((defect.message :: rest.map Defect.message).map fun text => "- " ++ text)) := by
        rw [dash_append_intercalate]
    _ = "\n".intercalate (messageLines (defect :: rest)) := by
        simp [messageLines, String.intercalate_cons_cons, Function.comp_def, ← String.append_assoc]

theorem feed_not_mem_messageLines (defects : List Defect) :
    ∀ line ∈ messageLines defects, '\n' ∉ line.toList := by
  intro line member feed
  rcases List.mem_cons.mp member with rfl | listed
  · exact absurd feed (by decide)
  · obtain ⟨defect, _, rfl⟩ := List.mem_map.mp listed
    rw [String.toList_append, List.mem_append] at feed
    rcases feed with inDash | inMessage
    · exact absurd inDash (by decide)
    · exact (defect.ne_terminator_of_mem_message _ inMessage).1 rfl

/-- The line feeds of the message stand between its lines and nowhere else. -/
theorem splitOn_defectsMessage {defects : List Defect} (some : defects ≠ []) :
    ((defectsMessage defects).toList.splitOn '\n').map String.ofList = messageLines defects := by
  have feed : "\n".toList = ['\n'] := rfl
  have plain : ∀ chars ∈ (messageLines defects).map String.toList, '\n' ∉ chars := by
    simpa using feed_not_mem_messageLines defects
  rw [defectsMessage_eq_intercalate some, String.toList_intercalate, feed,
    List.splitOn_intercalate '\n' plain (by simp [messageLines]), List.map_map]
  simp

theorem messageLines_injective : Function.Injective messageLines := by
  intro first second same
  have texts : Function.Injective fun defect : Defect => "- " ++ defect.message := by
    intro defect other equal
    exact Defect.message_injective (String.append_right_inj "- " |>.mp equal)
  exact List.map_injective_iff.mpr texts (List.cons.inj same).2

end Lines

/-- Rules without defects are those of which nothing is to be said. -/
theorem defects_eq_nil_iff_unobjectionable {rules : Rules} :
    rules.defects = [] ↔
      rules.conditional.contains 0 = false ∧ rules.unconditional.contains 0 = false ∧
      (∀ position ∈ rules.conditional.members, position ∉ rules.unconditional.members) ∧
      (∀ trigger ∈ rules.triggers,
        trigger ≠ "" ∧ '\n' ∉ trigger.toList ∧ '\r' ∉ trigger.toList) ∧
      (rules.conditional.members = [] ∨ rules.triggers ≠ []) := by
  have apart : rules.conditional.overlap rules.unconditional = [] ↔
      ∀ position ∈ rules.conditional.members, position ∉ rules.unconditional.members := by
    simp [Positions.overlap, List.filter_eq_nil_iff]
  have triggers (trigger : String) : triggerDefect? trigger = none ↔
      trigger ≠ "" ∧ '\n' ∉ trigger.toList ∧ '\r' ∉ trigger.toList := by
    simp only [triggerDefect?_eq, ite_eq_right_iff, reduceCtorEq, imp_false]
    simp [IsFaulty]
  rw [defects_eq_nil_iff, apart, or_iff_not_imp_left]
  simp only [triggers, ne_eq]

/-- A message with which rules are turned down on any file tree, be it by an edit or as a part of a
configuration. -/
structure RefusedWith (rules : Rules) (message : String) : Prop where
  lines : (message.toList.splitOn '\n').map String.ofList =
    "invalid rules:" :: rules.defects.map fun defect => "- " ++ defect.message
  byEdit : ∀ (tree : FileTree) (path : RawText), ∃ error,
    tree.runEdit path rules = (.error error, tree) ∧ error.message = message
  asConfig : ∀ target : RawText, target ≠ "" → ∃ invalid,
    Config.validate ⟨target, rules⟩ = .error invalid ∧ invalid.message = message

theorem refusedWith_defectsMessage {rules : Rules} (defective : rules.defects ≠ []) :
    rules.RefusedWith (defectsMessage rules.defects) where
  lines := splitOn_defectsMessage defective
  byEdit tree path := ⟨_, FileTree.runEdit_of_defects defective, rfl⟩
  asConfig target filled := by
    refine ⟨.invalidRules rules.defects, ?_, rfl⟩
    simp [Config.validate, filled, defective]

/-- What is reported of rules, whatever they are. -/
structure ValidationLaw (rules : Rules) : Prop where
  sound_iff : rules.defects = [] ↔
    rules.conditional.contains 0 = false ∧ rules.unconditional.contains 0 = false ∧
    (∀ position ∈ rules.conditional.members, position ∉ rules.unconditional.members) ∧
    (∀ trigger ∈ rules.triggers,
      trigger ≠ "" ∧ '\n' ∉ trigger.toList ∧ '\r' ∉ trigger.toList) ∧
    (rules.conditional.members = [] ∨ rules.triggers ≠ [])
  /-- Each defect is listed once, in its place. -/
  enumerates_iff : ∀ listed, rules.Enumerates listed ↔ listed = rules.defects
  oneLine : ∀ defect ∈ rules.defects, ∀ c ∈ defect.message.toList, c ≠ '\n' ∧ c ≠ '\r'
  refused : rules.defects ≠ [] → ∃ message, rules.RefusedWith message
  /-- No two lists of defects share their message. -/
  legible : ∀ (other : Rules) (message : String),
    rules.RefusedWith message → other.RefusedWith message → other.defects = rules.defects

/-- Every set of rules is reported on by the same law. -/
theorem validationLaw_defects (rules : Rules) : rules.ValidationLaw where
  sound_iff := defects_eq_nil_iff_unobjectionable
  enumerates_iff _ := enumerates_iff_eq_defects
  oneLine defect _ := defect.ne_terminator_of_mem_message
  refused defective := ⟨_, refusedWith_defectsMessage defective⟩
  legible _ _ first second := messageLines_injective (second.lines.symm.trans first.lines)

/-- Rules with a defect of nearly every kind have them listed in this order. -/
example :
    let rules : Rules := ⟨.ofList [0, 7, 5], ["", "a\nb", "],", ""], .ofList [5, 7]⟩
    rules.defects = [.zeroConditional, .overlap 5, .overlap 7, .emptyTrigger,
      .terminatorInTrigger "a\nb", .emptyTrigger] := by
  decide

end Rules

end LinePrune
