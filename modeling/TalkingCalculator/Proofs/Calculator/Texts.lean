import TalkingCalculator.Proofs.Calculator.Modes

/-!
# What keys do to texts

A key leaves a coefficient, shortens it, or types a piece after it, and parentheses it never types there. On the
display a piece may also take the place of the text, and a placeholder or the outcome of a commit may be shown.
-/
namespace TalkingCalculator

def Key.isParen : Key → Bool
  | openParen | closeParen => true
  | _ => false

def Key.pieces : List String :=
  (List.finRange 10).map digitText ++ "." :: "(" :: ")" :: Operator.all.map (·.glyph.toString) ++
    Trig.all.map Trig.opening

theorem Key.mem_pieces {key : Key} {piece : String} (h : key.piece? = some piece) : piece ∈ pieces := by
  cases key with
  | digit d =>
    cases h
    revert d
    decide
  | operator op =>
    cases h
    cases op <;> decide
  | function f =>
    cases h
    cases f <;> decide
  | point | openParen | closeParen =>
    cases h
    decide
  | clear | delete | toggleMode | cycleFocus | focus | commit => cases h

/-- What a key may make of the text of a coefficient. -/
inductive Retyped (key : Key) (old : String) : String → Prop
  | shortened {new : String} (h : new.toList <+: old.toList) : Retyped key old new
  | extended {piece : String} (hpiece : key.piece? = some piece) (hkey : key.isParen = false) :
      Retyped key old (old ++ piece)

inductive Redisplayed (c : Calculator) (key : Key) : String → Prop
  | kept : Redisplayed c key c.display
  | placeholder : Redisplayed c key placeholder
  | typed {piece : String} (hpiece : key.piece? = some piece) : Redisplayed c key piece
  | extended {piece : String} (hpiece : key.piece? = some piece) : Redisplayed c key (c.display ++ piece)
  | shortened {new : String} (hne : new ≠ "") (h : new.toList <+: c.display.toList) : Redisplayed c key new
  | outcome : Redisplayed c key c.outcome.text

namespace Calculator

variable {c : Calculator} {key : Key} {piece : String}

theorem coefficients_press_expression (h : c.mode = .expression) (key : Key) :
    (c.press key).coefficients = c.coefficients := by
  have hpress : c.press key = (c.press key).withFields c.coefficients c.active :=
    press_withFields h c.coefficients c.active key
  rw [hpress]
  rfl

theorem display_press_equation (h : c.mode = .equation) (hkey : key ≠ .commit) : (c.press key).display = c.display := by
  have hpress : c.press key = (c.press key).withDisplay c.display := press_withDisplay h c.display hkey
  rw [hpress]
  rfl

theorem buffer_equation (h : c.mode = .equation) : c.buffer = c.coefficients.get c.active := by
  unfold buffer
  rw [h]

theorem get_setBuffer (h : c.mode = .equation) (text : String) (slot : Slot) :
    (c.setBuffer text).coefficients.get slot = if slot = c.active then text else c.coefficients.get slot := by
  rw [setBuffer_equation h]
  split
  · rename_i hslot
    rw [hslot]
    exact Coefficients.get_set_same _ _ _
  · rename_i hslot
    exact Coefficients.get_set_other _ _ hslot

theorem appendOperand_equation (h : c.mode = .equation) (piece : String) : c.appendOperand piece = c.append piece := by
  unfold appendOperand
  rw [if_neg (by simp [h])]

theorem retyped_refl (old : String) : Retyped key old old :=
  .shortened List.prefix_rfl

theorem retyped_setBuffer (h : c.mode = .equation) {text : String} (htext : Retyped key c.buffer text) (slot : Slot) :
    Retyped key (c.coefficients.get slot) ((c.setBuffer text).coefficients.get slot) := by
  rw [get_setBuffer h]
  split
  · rename_i hslot
    rwa [hslot, ← buffer_equation h]
  · exact retyped_refl _

theorem retyped_append (h : c.mode = .equation) (hpiece : key.piece? = some piece) (hkey : key.isParen = false)
    (slot : Slot) :
    Retyped key (c.coefficients.get slot) ((c.append piece).coefficients.get slot) :=
  retyped_setBuffer h (.extended hpiece hkey) slot

theorem retyped_clear (h : c.mode = .equation) (slot : Slot) :
    Retyped key (c.coefficients.get slot) (c.clear.coefficients.get slot) := by
  have hempty : c.clear.coefficients.get slot = "" := by
    unfold clear
    rw [h]
    cases slot <;> rfl
  rw [hempty]
  exact .shortened List.nil_prefix

theorem retyped_delete (h : c.mode = .equation) (slot : Slot) :
    Retyped key (c.coefficients.get slot) (c.delete.coefficients.get slot) := by
  refine retyped_setBuffer h (.shortened ?_) slot
  rw [if_neg (by simp [h]), String.toList_ofList]
  exact List.dropLast_prefix _

theorem display_moveFocus (c : Calculator) (slot : Slot) : (c.moveFocus slot).display = c.display := by
  unfold moveFocus
  cases c.mode <;> rfl

theorem coefficients_moveFocus (c : Calculator) (slot : Slot) : (c.moveFocus slot).coefficients = c.coefficients := by
  unfold moveFocus
  cases c.mode <;> rfl

/-- What a key does to the text of a coefficient. -/
theorem retyped_press (key : Key) (slot : Slot) :
    Retyped key (c.coefficients.get slot) ((c.press key).coefficients.get slot) := by
  cases hmode : c.mode with
  | expression =>
    rw [coefficients_press_expression hmode]
    exact retyped_refl _
  | equation =>
    have hparen {next : Calculator} : (if c.mode = .expression then next else c) = c := if_neg (by simp [hmode])
    cases key with
    | digit d =>
      rw [press, appendOperand_equation hmode]
      exact retyped_append hmode rfl rfl slot
    | point => exact retyped_append hmode rfl rfl slot
    | operator op => exact retyped_append hmode rfl rfl slot
    | function f =>
      rw [press, appendOperand_equation hmode]
      exact retyped_append hmode rfl rfl slot
    | openParen =>
      rw [press, hparen]
      exact retyped_refl _
    | closeParen =>
      rw [press, hparen]
      exact retyped_refl _
    | clear => exact retyped_clear hmode slot
    | delete => exact retyped_delete hmode slot
    | toggleMode => exact retyped_refl _
    | cycleFocus =>
      rw [press, coefficients_moveFocus]
      exact retyped_refl _
    | focus slot =>
      rw [press, coefficients_moveFocus]
      exact retyped_refl _
    | commit => exact retyped_refl _

theorem redisplayed_appendOperand (h : c.mode = .expression) (hpiece : key.piece? = some piece) :
    Redisplayed c key (c.appendOperand piece).display := by
  unfold appendOperand
  split
  · rw [setBuffer_expression h]
    exact .typed hpiece
  · rw [append_expression h]
    exact .extended hpiece

theorem redisplayed_append (h : c.mode = .expression) (hpiece : key.piece? = some piece) :
    Redisplayed c key (c.append piece).display := by
  rw [append_expression h]
  exact .extended hpiece

theorem clear_expression (h : c.mode = .expression) : c.clear = { c with display := TalkingCalculator.placeholder } := by
  simp only [clear, h]

theorem redisplayed_delete (h : c.mode = .expression) : Redisplayed c key c.delete.display := by
  unfold delete
  extract_lets left
  rw [setBuffer_expression h]
  split
  · exact .placeholder
  · rename_i hleft
    refine .shortened (fun hempty => hleft ⟨h, hempty⟩) ?_
    rw [String.toList_ofList, buffer_expression h]
    exact List.dropLast_prefix _

/-- What a key does to the display. -/
theorem redisplayed_press (key : Key) : Redisplayed c key (c.press key).display := by
  cases hmode : c.mode with
  | equation =>
    by_cases hkey : key = .commit
    · subst hkey
      exact .outcome
    · rw [display_press_equation hmode hkey]
      exact .kept
  | expression =>
    cases key with
    | digit d => exact redisplayed_appendOperand hmode rfl
    | point => exact redisplayed_append hmode rfl
    | operator op => exact redisplayed_append hmode rfl
    | function f => exact redisplayed_appendOperand hmode rfl
    | openParen =>
      rw [press, if_pos hmode]
      exact redisplayed_appendOperand hmode rfl
    | closeParen =>
      rw [press, if_pos hmode]
      exact redisplayed_append hmode rfl
    | clear =>
      rw [press, clear_expression hmode]
      exact .placeholder
    | delete => exact redisplayed_delete hmode
    | toggleMode => exact .kept
    | cycleFocus =>
      rw [press, display_moveFocus]
      exact .kept
    | focus slot =>
      rw [press, display_moveFocus]
      exact .kept
    | commit => exact .outcome

end Calculator

end TalkingCalculator
