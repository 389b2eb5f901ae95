import TalkingCalculator.Calculator.Event

/-!
# What events change

The state of a calculator has a mode, a display, three coefficients and a focus. An event that is taken changes
only the parts that it names, and one that is refused changes nothing.
-/
namespace TalkingCalculator

inductive Part where
  | mode
  | display
  | coefficient (slot : Slot)
  | focus
deriving DecidableEq, Repr

def Part.Same (c d : Calculator) : Part → Prop
  | mode => c.mode = d.mode
  | display => c.display = d.display
  | coefficient slot => c.coefficients.get slot = d.coefficients.get slot
  | focus => c.active = d.active

theorem Part.same_refl (c : Calculator) (p : Part) : p.Same c c := by
  cases p <;> rfl

theorem Coefficients.eq_of_get {k l : Coefficients} (h : ∀ slot, k.get slot = l.get slot) : k = l := by
  obtain ⟨a, b, c⟩ := k
  obtain ⟨a', b', c'⟩ := l
  have ha : a = a' := h .a
  have hb : b = b' := h .b
  have hc : c = c' := h .c
  rw [ha, hb, hc]

namespace Calculator

def bufferPart (c : Calculator) : Part :=
  match c.mode with
  | .expression => .display
  | .equation => .coefficient c.active

end Calculator

/-- The parts that an event names in a state: keys that type or delete name the buffer of the mode, parentheses
have no use in a coefficient, and the focus can be moved in equation mode only. -/
def Event.parts (c : Calculator) : Event → List Part
  | digit _ | point | operator _ | function _ | delete => [c.bufferPart]
  | openParen | closeParen =>
    match c.mode with
    | .expression => [.display]
    | .equation => []
  | clear =>
    match c.mode with
    | .expression => [.display]
    | .equation => Slot.all.map .coefficient
  | toggleMode => [.mode]
  | cycleFocus | focus _ =>
    match c.mode with
    | .expression => []
    | .equation => [.focus]
  | commit => [.display]
  | unknown _ => []

namespace Calculator

variable {c d : Calculator} {event : Event} {key : Key} {p : Part}

theorem buffer_expression (h : c.mode = .expression) : c.buffer = c.display := by
  unfold buffer
  rw [h]

theorem setBuffer_expression (h : c.mode = .expression) (text : String) :
    c.setBuffer text = { c with display := text } := by
  unfold setBuffer
  rw [h]

theorem append_expression (h : c.mode = .expression) (piece : String) :
    c.append piece = { c with display := c.display ++ piece } := by
  unfold append
  rw [setBuffer_expression h, buffer_expression h]

theorem setBuffer_equation (h : c.mode = .equation) (text : String) :
    c.setBuffer text = { c with coefficients := c.coefficients.set c.active text } := by
  unfold setBuffer
  rw [h]

theorem same_setBuffer (text : String) (hp : p ∉ [c.bufferPart]) : p.Same c (c.setBuffer text) := by
  unfold bufferPart at hp
  cases hmode : c.mode with
  | expression =>
    rw [hmode, List.mem_singleton] at hp
    rw [setBuffer_expression hmode]
    cases p with
    | display => exact absurd rfl hp
    | mode => rfl
    | coefficient slot => rfl
    | focus => rfl
  | equation =>
    rw [hmode, List.mem_singleton] at hp
    rw [setBuffer_equation hmode]
    cases p with
    | coefficient slot => exact (Coefficients.get_set_other _ _ fun h => hp (by rw [h])).symm
    | mode => rfl
    | display => rfl
    | focus => rfl

/-- An operand is written to the buffer as well. -/
theorem exists_appendOperand (c : Calculator) (piece : String) : ∃ text, c.appendOperand piece = c.setBuffer text := by
  unfold appendOperand append
  split
  · exact ⟨_, rfl⟩
  · exact ⟨_, rfl⟩

theorem same_appendOperand (piece : String) (hp : p ∉ [c.bufferPart]) : p.Same c (c.appendOperand piece) := by
  obtain ⟨text, htext⟩ := c.exists_appendOperand piece
  rw [htext]
  exact same_setBuffer text hp

theorem bufferPart_expression (h : c.mode = .expression) : c.bufferPart = .display := by
  unfold bufferPart
  rw [h]

theorem same_clear (hp : p ∉ Event.clear.parts c) : p.Same c c.clear := by
  unfold Event.parts at hp
  unfold clear
  cases hmode : c.mode with
  | expression =>
    simp only [hmode, List.mem_singleton] at hp
    cases p with
    | display => exact absurd rfl hp
    | mode => exact hmode
    | coefficient slot => rfl
    | focus => rfl
  | equation =>
    simp only [hmode] at hp
    cases p with
    | coefficient slot => exact absurd (List.mem_map_of_mem (by cases slot <;> decide)) hp
    | mode => exact hmode
    | display => rfl
    | focus => rfl

theorem same_moveFocus (slot : Slot) (hp : p ∉ Event.cycleFocus.parts c) : p.Same c (c.moveFocus slot) := by
  unfold Event.parts at hp
  unfold moveFocus
  cases hmode : c.mode with
  | expression => exact p.same_refl c
  | equation =>
    simp only [hmode, List.mem_singleton] at hp
    cases p with
    | focus => exact absurd rfl hp
    | mode => exact hmode
    | display => rfl
    | coefficient slot => rfl

/-- A parenthesis is written in expression mode alone. -/
theorem same_paren {next : Calculator} (hnext : p ∉ [c.bufferPart] → p.Same c next)
    (hp : p ∉ Event.openParen.parts c) : p.Same c (if c.mode = .expression then next else c) := by
  unfold Event.parts at hp
  split
  · rename_i hmode
    rw [hmode] at hp
    rw [bufferPart_expression hmode] at hnext
    exact hnext hp
  · exact p.same_refl c

/-- A key leaves all parts as they are but those that its event names. -/
theorem same_press (key : Key) (hp : p ∉ key.event.parts c) : p.Same c (c.press key) := by
  cases key with
  | digit d => exact same_appendOperand _ hp
  | point => exact same_setBuffer _ hp
  | operator op => exact same_setBuffer _ hp
  | function f => exact same_appendOperand _ hp
  | openParen => exact same_paren (same_appendOperand _) hp
  | closeParen => exact same_paren (same_setBuffer _) hp
  | clear => exact same_clear hp
  | delete => exact same_setBuffer _ hp
  | toggleMode =>
    cases p with
    | mode => exact absurd List.mem_cons_self hp
    | display => rfl
    | coefficient slot => rfl
    | focus => rfl
  | cycleFocus => exact same_moveFocus _ hp
  | focus slot => exact same_moveFocus _ hp
  | commit =>
    cases p with
    | display => exact absurd List.mem_cons_self hp
    | mode => rfl
    | coefficient slot => rfl
    | focus => rfl

/-- The event that a key was read from names the same parts as the key's own event. -/
theorem parts_of_key (h : event.key c.mode = .ok (some key)) : event.parts c = key.event.parts c := by
  unfold Event.key at h
  cases event with
  | digit value =>
    dsimp only at h
    split at h
    · cases h
      rfl
    · cases h
  | operator choice =>
    dsimp only at h
    split at h
    · cases h
      rfl
    · cases h
  | function choice =>
    dsimp only at h
    split at h
    · cases h
      rfl
    · cases h
  | focus choice =>
    dsimp only at h
    split at h
    · cases h
    · split at h
      · cases h
        rfl
      · cases h
  | unknown value => cases h
  | _ =>
    cases h
    rfl

end Calculator

end TalkingCalculator
