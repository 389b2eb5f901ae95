import TalkingCalculator.Proofs.Calculator.Refusals
import TalkingCalculator.Proofs.Calculator.Runs

/-!
# Events step by step

An event is handled by reading and writing the state, one step after another, and an error in between would keep
what was written before it. There is no such error: whatever an event names is looked up before anything is
written. So a refused event leaves the state as it was, and the steps come to the same as handling it at once.
-/
namespace TalkingCalculator

/-- A program on the state of a calculator. One that stops with an error keeps what it has written so far. -/
abbrev Procedure (α : Type) := EStateM EventError Calculator α

namespace Procedure

def target : Procedure String := do
  let c ← get
  match c.mode with
  | .expression => return c.display
  | .equation => return c.coefficients.get c.active

def setTarget (text : String) : Procedure Unit :=
  modify fun c =>
    match c.mode with
    | .expression => { c with display := text }
    | .equation => { c with coefficients := c.coefficients.set c.active text }

/-- Writes a piece after the text of the buffer, or, if `replacing`, in the place of a lone zero on the display. -/
def append (piece : String) (replacing : Bool) : Procedure Unit := do
  let current ← target
  let c ← get
  let kept := if replacing = true ∧ c.mode = .expression ∧ current = placeholder then "" else current
  setTarget (kept ++ piece)

def digit (value : Value) : Procedure Unit := do
  let text := value.plain
  if text.length ≠ 1 ∨ ¬ text.toList.all Char.isDigit then throw (.digit text)
  append text true

def choose {α : Type} (all : List α) (name : α → String) (error : Value → EventError) (choice : Choice α) :
    Procedure α :=
  match choice.resolve all name with
  | .ok a => return a
  | .error value => throw (error value)

def operator (choice : Choice Operator) : Procedure Unit := do
  let op ← choose Operator.all (·.glyph.toString) .operator choice
  append op.glyph.toString false

def function (choice : Choice Trig) : Procedure Unit := do
  let f ← choose Trig.all Trig.name .function choice
  append (f.name ++ "(") true

def openParen : Procedure Unit := do
  if (← get).mode = .expression then append "(" true

def closeParen : Procedure Unit := do
  if (← get).mode = .expression then append ")" false

def clear : Procedure Unit :=
  modify fun c =>
    match c.mode with
    | .expression => { c with display := placeholder }
    | .equation => { c with coefficients := .empty }

def delete : Procedure Unit := do
  let current ← target
  let remaining := String.ofList current.toList.dropLast
  if (← get).mode = .expression ∧ remaining = "" then setTarget placeholder else setTarget remaining

def toggleMode : Procedure Unit :=
  modify fun c =>
    match c.mode with
    | .expression => { c with mode := .equation }
    | .equation => { c with mode := .expression }

def cycleFocus : Procedure Unit := do
  if (← get).mode = .equation then modify fun c => { c with active := c.active.next }

def focus (choice : Choice Slot) : Procedure Unit := do
  if (← get).mode = .equation then
    let slot ← choose Slot.all Slot.letter .slot choice
    modify fun c => { c with active := slot }

def display (success : Bool) (text : String) : Procedure Outcome := do
  modify fun c => { c with display := text }
  return ⟨success, (← get).display⟩

def commit : Procedure Outcome := do
  let c ← get
  match c.mode with
  | .expression =>
    match evaluate c.display with
    | .error _ => display false expressionFailure
    | .ok v => display true (displayNumber v)
  | .equation =>
    match solveTexts c.coefficients.a c.coefficients.b c.coefficients.c with
    | .error _ => display false equationFailure
    | .ok r => display true r.display

def silent (p : Procedure Unit) : Procedure (Option Outcome) := do
  p
  return none

def handle : Event → Procedure (Option Outcome)
  | .digit value => silent (digit value)
  | .point => silent (append "." false)
  | .operator choice => silent (operator choice)
  | .function choice => silent (function choice)
  | .openParen => silent openParen
  | .closeParen => silent closeParen
  | .clear => silent clear
  | .delete => silent delete
  | .toggleMode => silent toggleMode
  | .cycleFocus => silent cycleFocus
  | .focus choice => silent (focus choice)
  | .commit => do return some (← commit)
  | .unknown value => throw (.unknown value)

section Sequence

variable {ε σ α β : Type} {c d : σ} {p : EStateM ε σ α} {next : α → EStateM ε σ β}

theorem bind_ok {a : α} (h : p c = .ok a d) : (p >>= next) c = next a d := by
  change (p >>= next).run c = _
  rw [EStateM.run_bind, EStateM.run, h]
  rfl

theorem bind_error {e : ε} (h : p c = .error e d) : (p >>= next) c = .error e d := by
  change (p >>= next).run c = _
  rw [EStateM.run_bind, EStateM.run, h]

end Sequence

variable (c : Calculator)

theorem target_eq : target c = .ok c.buffer c := by
  obtain ⟨mode, display, coefficients, active⟩ := c
  cases mode <;> rfl

theorem setTarget_eq (text : String) : setTarget text c = .ok () (c.setBuffer text) := rfl

theorem append_eq (piece : String) (replacing : Bool) : append piece replacing c = .ok () (c.setBuffer
    ((if replacing = true ∧ c.mode = .expression ∧ c.buffer = placeholder then "" else c.buffer) ++ piece)) :=
  (bind_ok (target_eq c)).trans (setTarget_eq c _)

theorem append_false (piece : String) : append piece false c = .ok () (c.append piece) := by
  rw [append_eq, if_neg (by simp)]
  rfl

theorem append_true (piece : String) : append piece true c = .ok () (c.appendOperand piece) := by
  unfold Calculator.appendOperand
  by_cases h : c.mode = .expression ∧ c.display = placeholder
  · have hbuffer : c.buffer = placeholder := (Calculator.buffer_expression h.1).trans h.2
    rw [append_eq, if_pos ⟨rfl, h.1, hbuffer⟩, if_pos h, String.empty_append]
  · have hbuffer : ¬ (true = true ∧ c.mode = .expression ∧ c.buffer = placeholder) := by
      rintro ⟨-, hmode, hbuffer⟩
      exact h ⟨hmode, (Calculator.buffer_expression hmode).symm.trans hbuffer⟩
    rw [append_eq, if_neg hbuffer, if_neg h]
    rfl

theorem delete_eq : delete c = .ok () c.delete := by
  have hsteps : delete c =
      (if c.mode = .expression ∧ String.ofList c.buffer.toList.dropLast = "" then setTarget placeholder
        else setTarget (String.ofList c.buffer.toList.dropLast)) c :=
    bind_ok (target_eq c)
  unfold Calculator.delete
  rw [hsteps]
  extract_lets left
  split
  · exact setTarget_eq c placeholder
  · exact setTarget_eq c left

theorem commit_expression (h : c.mode = .expression) : commit c =
    (match evaluate c.display with
      | .error _ => display false expressionFailure
      | .ok v => display true (displayNumber v)) c := by
  obtain ⟨mode, text, coefficients, active⟩ := c
  cases h
  rfl

theorem commit_equation (h : c.mode = .equation) : commit c =
    (match solveTexts c.coefficients.a c.coefficients.b c.coefficients.c with
      | .error _ => display false equationFailure
      | .ok r => display true r.display) c := by
  obtain ⟨mode, text, coefficients, active⟩ := c
  cases h
  rfl

theorem commit_eq : commit c = .ok c.outcome c.commit := by
  obtain ⟨mode, text, coefficients, active⟩ := c
  unfold Calculator.commit Calculator.outcome
  cases mode with
  | expression =>
    rw [commit_expression _ rfl]
    dsimp only
    cases evaluate text <;> rfl
  | equation =>
    rw [commit_equation _ rfl]
    dsimp only
    cases solveTexts coefficients.a coefficients.b coefficients.c <;> rfl

theorem digit_ok {value : Value} {d : Fin 10} (h : digitOfText? value.plain = some d) :
    digit value c = .ok () (c.appendOperand (digitText d)) := by
  have hd : (Nat.digitChar d).isDigit = true := by
    rw [Nat.isDigit_digitChar]
    exact decide_eq_true d.isLt
  have hdigit : ¬ ((digitText d).length ≠ 1 ∨ ¬ (digitText d).toList.all Char.isDigit = true) := by
    rw [← String.length_toList, toList_digitText]
    simp [hd]
  unfold digit
  dsimp only
  rw [← digitText_of_digitOfText? h, if_neg hdigit]
  exact append_true c _

theorem digit_error {value : Value} (h : digitOfText? value.plain = none) :
    digit value c = .error (.digit value.plain) c := by
  have hdigit : value.plain.length ≠ 1 ∨ ¬ value.plain.toList.all Char.isDigit = true := by
    rw [← String.length_toList]
    by_cases hlength : value.plain.toList.length = 1
    · obtain ⟨ch, htext⟩ := List.length_eq_one_iff.mp hlength
      rw [htext]
      refine Or.inr fun hall => ?_
      have hch : ch.isDigit = true := by simpa using hall
      have hone : value.plain = ch.toString := by
        rw [← String.toList_inj, htext, Char.toString_eq_singleton, String.toList_singleton]
      exact digitOfText?_eq_none_iff.mp h ch hch hone
    · exact Or.inl hlength
  unfold digit
  dsimp only
  rw [if_pos hdigit]
  rfl

theorem choose_ok {α : Type} {all : List α} {name : α → String} {choice : Choice α} {a : α}
    (h : choice.resolve all name = .ok a) (error : Value → EventError) : choose all name error choice c = .ok a c := by
  unfold choose
  rw [h]
  rfl

theorem choose_error {α : Type} {all : List α} {name : α → String} {choice : Choice α} {value : Value}
    (h : choice.resolve all name = .error value) (error : Value → EventError) :
    choose all name error choice c = .error (error value) c := by
  unfold choose
  rw [h]
  rfl

variable {c}

theorem silent_ok {p : Procedure Unit} {d : Calculator} (h : p c = .ok () d) : silent p c = .ok none d :=
  bind_ok h

theorem silent_error {p : Procedure Unit} {e : EventError} {d : Calculator} (h : p c = .error e d) :
    silent p c = .error e d :=
  bind_error h

theorem operator_ok {choice : Choice Operator} {op : Operator}
    (h : choice.resolve Operator.all (·.glyph.toString) = .ok op) :
    operator choice c = .ok () (c.append op.glyph.toString) :=
  (bind_ok (choose_ok c h _)).trans (append_false c _)

theorem function_ok {choice : Choice Trig} {f : Trig} (h : choice.resolve Trig.all Trig.name = .ok f) :
    function choice c = .ok () (c.appendOperand f.opening) :=
  (bind_ok (choose_ok c h _)).trans (append_true c _)

theorem openParen_eq (c : Calculator) : openParen c = .ok () (c.press .openParen) := by
  obtain ⟨mode, text, coefficients, active⟩ := c
  cases mode with
  | expression => exact append_true ⟨.expression, text, coefficients, active⟩ "("
  | equation => rfl

theorem closeParen_eq (c : Calculator) : closeParen c = .ok () (c.press .closeParen) := by
  obtain ⟨mode, text, coefficients, active⟩ := c
  cases mode with
  | expression => exact append_false ⟨.expression, text, coefficients, active⟩ ")"
  | equation => rfl

theorem toggleMode_eq (c : Calculator) : toggleMode c = .ok () c.toggleMode := by
  obtain ⟨mode, text, coefficients, active⟩ := c
  cases mode <;> rfl

theorem clear_eq (c : Calculator) : clear c = .ok () c.clear := rfl

theorem cycleFocus_eq (c : Calculator) : cycleFocus c = .ok () (c.moveFocus c.active.next) := by
  obtain ⟨mode, text, coefficients, active⟩ := c
  cases mode <;> rfl

theorem focus_expression (h : c.mode = .expression) (choice : Choice Slot) : focus choice c = .ok () c := by
  obtain ⟨mode, text, coefficients, active⟩ := c
  cases h
  rfl

theorem focus_equation (h : c.mode = .equation) (choice : Choice Slot) :
    focus choice c = (choose Slot.all Slot.letter .slot choice >>= fun slot =>
      modify fun c => { c with active := slot }) c := by
  obtain ⟨mode, text, coefficients, active⟩ := c
  cases h
  rfl

theorem focus_ok (h : c.mode = .equation) {choice : Choice Slot} {slot : Slot}
    (hchoice : choice.resolve Slot.all Slot.letter = .ok slot) : focus choice c = .ok () (c.moveFocus slot) := by
  have hmove : c.moveFocus slot = { c with active := slot } := by
    simp only [Calculator.moveFocus, h]
  rw [focus_equation h, bind_ok (choose_ok c hchoice _), hmove]
  rfl

/-- Step by step an event comes to what it comes to at once, and an error leaves the state as it was. -/
theorem handle_eq (event : Event) : handle event c =
    match c.handle event with
    | .ok (next, o) => .ok o next
    | .error e => .error e c := by
  unfold Calculator.handle
  cases event with
  | digit value =>
    dsimp only [Event.key]
    cases hdigit : digitOfText? value.plain with
    | some d => exact silent_ok (digit_ok c hdigit)
    | none => exact silent_error (digit_error c hdigit)
  | operator choice =>
    dsimp only [Event.key]
    cases hchoice : choice.resolve Operator.all (·.glyph.toString) with
    | ok op => exact silent_ok (operator_ok hchoice)
    | error value => exact silent_error (bind_error (choose_error c hchoice _))
  | function choice =>
    dsimp only [Event.key]
    cases hchoice : choice.resolve Trig.all Trig.name with
    | ok f => exact silent_ok (function_ok hchoice)
    | error value => exact silent_error (bind_error (choose_error c hchoice _))
  | focus choice =>
    dsimp only [Event.key]
    cases hmode : c.mode with
    | expression => exact silent_ok (focus_expression hmode choice)
    | equation =>
      dsimp only
      cases hchoice : choice.resolve Slot.all Slot.letter with
      | ok slot => exact silent_ok (focus_ok hmode hchoice)
      | error value =>
        refine silent_error ?_
        rw [focus_equation hmode]
        exact bind_error (choose_error c hchoice _)
  | delete => exact silent_ok (delete_eq c)
  | point => exact silent_ok (append_false c ".")
  | toggleMode => exact silent_ok (toggleMode_eq c)
  | commit => exact bind_ok (commit_eq c)
  | unknown value => rfl
  | openParen => exact silent_ok (openParen_eq c)
  | closeParen => exact silent_ok (closeParen_eq c)
  | clear => exact silent_ok (clear_eq c)
  | cycleFocus => exact silent_ok (cycleFocus_eq c)

end Procedure

namespace Calculator

variable {c d : Calculator} {event : Event} {o : Option Outcome}

theorem handle_eq_error_iff {e : EventError} : c.handle event = .error e ↔ Refused c.mode event e := by
  rw [← Event.key_eq_error_iff]
  unfold handle
  cases event.key c.mode with
  | error e' => simp
  | ok key? => cases key? <;> simp

theorem attend_of_handle (h : c.handle event = .ok (d, o)) : c.attend event = d := by
  unfold attend
  rw [h]

/-- Handled step by step, an event is refused exactly for what was given with it, and then nothing of the state has
been written. When it is not refused, only the parts that it names have been. This is what handling it at once
comes to. -/
theorem handle_atomic (c : Calculator) (event : Event) :
    (∀ e, (∃ d, Procedure.handle event c = .error e d) ↔ Refused c.mode event e) ∧
    (∀ e d, Procedure.handle event c = .error e d → d = c) ∧
    (∀ o d, Procedure.handle event c = .ok o d → ∀ p ∉ event.parts c, p.Same c d) ∧
    c.handle event =
      match Procedure.handle event c with
      | .ok o d => .ok (d, o)
      | .error e _ => .error e := by
  have hrefused {e : EventError} : c.handle event = .error e ↔ Refused c.mode event e := handle_eq_error_iff
  have hkept {d : Calculator} {o : Option Outcome} (h : c.handle event = .ok (d, o)) :
      ∀ p ∉ event.parts c, p.Same c d := by
    rw [← attend_of_handle h]
    exact fun p hp => same_attend hp
  rw [Procedure.handle_eq]
  cases hhandle : c.handle event with
  | error e' =>
    refine ⟨fun e => ?_, ?_, nofun, rfl⟩
    · rw [← hrefused, hhandle]
      exact ⟨fun ⟨d, h⟩ => by cases h; rfl, fun h => ⟨c, by cases h; rfl⟩⟩
    · intro e d h
      cases h
      rfl
  | ok r =>
    obtain ⟨next, o'⟩ := r
    refine ⟨fun e => ?_, nofun, ?_, rfl⟩
    · rw [← hrefused, hhandle]
      exact iff_of_false nofun nofun
    · intro o d h
      cases h
      exact hkept hhandle

end Calculator

end TalkingCalculator
