import TalkingCalculator.Proofs.Calculator.Procedures
import TalkingCalculator.Session.Basic

/-!
# Events step by step in a session

An event first goes to the calculator. Only then is its label made, which is shown and may be read aloud. A refused
event leaves the session as it was, and an event with a label is taken, shown and read. But an operator or a
function given by its name, which the calculator takes, has no label, and a digit given as a number has none that
can be read: then the session stops with an error after the calculator was changed.
-/
namespace TalkingCalculator

namespace Style

theorem mem_signed {sign : Float.Model.UnpackedFloat.Sign} {c : Char} {cs : List Char} (hc : c ∈ cs) :
    c ∈ signed sign cs := by
  cases sign with
  | positive => exact hc
  | negative => exact List.mem_cons_of_mem _ hc

theorem exists_not_isDigit_decimal (d : Decimal) : ∃ c ∈ reportStyle.decimal d, c.isDigit = false := by
  unfold decimal
  split
  · refine ⟨'.', ?_, rfl⟩
    cases d.split.2 <;> simp [withPoint, reportStyle]
  · refine ⟨'e', ?_, rfl⟩
    unfold scientific exponentChars
    exact List.mem_append_right _ List.mem_cons_self

/-- A double is never written with digits alone. -/
theorem exists_not_isDigit (x : Float) : ∃ c ∈ reportStyle.chars x, c.isDigit = false := by
  unfold chars
  split
  · exact ⟨'n', List.mem_cons_self, rfl⟩
  · exact ⟨'i', mem_signed List.mem_cons_self, rfl⟩
  · obtain ⟨c, hc, hdigit⟩ := exists_not_isDigit_decimal ⟨0, 0⟩
    exact ⟨c, mem_signed hc, hdigit⟩
  · rename_i m e _ _
    obtain ⟨c, hc, hdigit⟩ := exists_not_isDigit_decimal (.ofBinary m e)
    exact ⟨c, mem_signed hc, hdigit⟩

end Style

/-- What is taken as a digit is a text or a whole number. -/
theorem Value.text_or_whole {value : Value} {d : Fin 10} (h : digitOfText? value.plain = some d) :
    (∃ text, value = .text text) ∨ ∃ n, value = .whole n := by
  have hplain : value.plain.toList = [Nat.digitChar d] := by
    rw [← digitText_of_digitOfText? h, toList_digitText]
  have hdigit : ∀ c ∈ value.plain.toList, c.isDigit = true := by
    rw [hplain]
    intro c hc
    rw [List.mem_singleton.mp hc, Nat.isDigit_digitChar]
    exact decide_eq_true d.isLt
  cases value with
  | text text => exact Or.inl ⟨text, rfl⟩
  | whole n => exact Or.inr ⟨n, rfl⟩
  | nothing => exact absurd (hdigit 'N' (by decide)) (by decide)
  | truth b => exact absurd (hdigit 'e' (by cases b <;> decide)) (by decide)
  | real x =>
    obtain ⟨c, hc, hnot⟩ := Style.exists_not_isDigit x
    have hmem : c ∈ (Value.real x).plain.toList := by
      change c ∈ (String.ofList (reportStyle.chars x)).toList
      rwa [String.toList_ofList]
    exact absurd (hdigit c hmem) (Bool.eq_false_iff.mp hnot)
  | list items =>
    refine absurd (hdigit '[' ?_) (by decide)
    simp [Value.plain, Value.shown]
  | record fields =>
    refine absurd (hdigit '\x7b' ?_) (by decide)
    simp [Value.plain, Value.shown]

structure Reaction where
  message : String
  colour : Colour
  frames : Int
  said : Option String

namespace Reaction

def feedback (r : Reaction) : Feedback :=
  ⟨r.message, r.colour, r.frames⟩

def green : Colour := ⟨100, 255, 100⟩

def orange : Colour := ⟨0, 165, 255⟩

def cyan : Colour := ⟨255, 255, 0⟩

def red : Colour := ⟨50, 50, 255⟩

def yellow : Colour := ⟨0, 200, 255⟩

def blue : Colour := ⟨255, 200, 0⟩

def typed (s : Settings) (colour : Colour) (lead piece : String) : Reaction :=
  ⟨lead ++ piece, colour, s.feedbackFrames, if s.speakKeys then some (Spoken.key piece) else none⟩

def focused (s : Settings) (slot : Slot) : Reaction :=
  ⟨"COEFICIENTE " ++ slot.letter, blue, s.feedbackFrames, none⟩

def committed (s : Settings) (o : Outcome) : Reaction :=
  if o.success then ⟨"= " ++ o.text, cyan, 60, some (Spoken.result o.text)⟩
  else ⟨o.text, red, s.feedbackFrames, some (Spoken.result o.text)⟩

def ofKey (s : Settings) (c : Calculator) : Key → Reaction
  | .digit d => typed s green "OK " (digitText d)
  | .point => typed s green "OK " "."
  | .operator op => typed s orange "" op.glyph.toString
  | .function f => typed s orange "" f.opening
  | .openParen => typed s orange "" "("
  | .closeParen => typed s orange "" ")"
  | .clear => ⟨"TODO BORRADO", red, s.feedbackFrames, some "todo borrado"⟩
  | .delete => ⟨"<- BORRADO", yellow, s.feedbackFrames / 2, none⟩
  | .toggleMode =>
    match c.mode with
    | .expression => ⟨"MODO ECUACION", blue, 60, some "modo ecuacion"⟩
    | .equation => ⟨"MODO EXPRESION", blue, 60, some "modo expresion"⟩
  | .cycleFocus => focused s (c.press .cycleFocus).active
  | .focus slot => focused s (c.press (.focus slot)).active
  | .commit => committed s c.outcome

/-- The reaction to an event that is taken. One that does nothing is a focus that cannot be moved. -/
def ofEvent (s : Settings) (c : Calculator) (event : Event) : Reaction :=
  match event.key c.mode with
  | .ok (some key) => ofKey s c key
  | _ => focused s c.active

end Reaction

/-- The event has no label, or none that can be read though keys are, and this is the error. -/
inductive Unlabelled (s : Settings) : Event → LabelError → Prop
  | operator {value : Value} : Unlabelled s (.operator (.given value)) .operatorText
  | function {value : Value} : Unlabelled s (.function (.given value)) .functionText
  | digit {value : Value} (hkeys : s.speakKeys = true) (h : ∀ text, value ≠ .text text) :
      Unlabelled s (.digit value) .digitNumber

namespace Session

abbrev Procedure (α : Type) := EStateM ProcessError Session α

namespace Procedure

def onCalculator {α : Type} (q : TalkingCalculator.Procedure α) : Procedure α := fun s =>
  match q s.calculator with
  | .ok a c => .ok a { s with calculator := c }
  | .error e c => .error (.refused e) { s with calculator := c }

def notifyFor (frames : Int) (colour : Colour) (message : String) : Procedure Unit :=
  modify fun s => { s with feedback := ⟨message, colour, frames⟩ }

def notify (colour : Colour) (message : String) : Procedure Unit := do
  notifyFor (← get).settings.feedbackFrames colour message

def say (p : Playback) (text : String) : Procedure Unit :=
  modify fun s => { s with announcer := s.announcer.speak p s.settings text }

def sayKey (p : Playback) (label : Value) : Procedure Unit := do
  if (← get).settings.speakKeys then
    match label with
    | .text text => say p (Spoken.key text)
    | _ => throw (.unlabelled .digitNumber)

def signLabel : Event → Procedure (Option Value)
  | .operator (.known op) => return some (.text op.glyph.toString)
  | .operator (.given _) => throw (.unlabelled .operatorText)
  | .function (.known f) => return some (.text (f.name ++ "("))
  | .function (.given _) => throw (.unlabelled .functionText)
  | .openParen => return some (.text "(")
  | .closeParen => return some (.text ")")
  | _ => return none

def tell (p : Playback) (o : Outcome) : Procedure Unit := do
  if o.success then notifyFor 60 Reaction.cyan ("= " ++ o.text) else notify Reaction.red o.text
  say p (Spoken.result o.text)

def acknowledge (p : Playback) (outcome : Option Outcome) (event : Event) : Procedure Unit := do
  match event, outcome with
  | .commit, some o => tell p o
  | .digit value, _ =>
    notify Reaction.green ("OK " ++ value.plain)
    sayKey p value
  | .point, _ =>
    notify Reaction.green "OK ."
    sayKey p (.text ".")
  | .clear, _ =>
    notify Reaction.red "TODO BORRADO"
    say p "todo borrado"
  | .delete, _ => notifyFor ((← get).settings.feedbackFrames / 2) Reaction.yellow "<- BORRADO"
  | .toggleMode, _ =>
    match (← get).calculator.mode with
    | .expression =>
      notifyFor 60 Reaction.blue "MODO EXPRESION"
      say p "modo expresion"
    | .equation =>
      notifyFor 60 Reaction.blue "MODO ECUACION"
      say p "modo ecuacion"
  | .cycleFocus, _ | .focus _, _ =>
    notify Reaction.blue ("COEFICIENTE " ++ (← get).calculator.active.letter)
  | event, _ =>
    match ← signLabel event with
    | some label =>
      notify Reaction.orange label.plain
      sayKey p label
    | none => return

def process (p : Playback) (event : Event) : Procedure (Option Outcome) := do
  let outcome ← onCalculator (TalkingCalculator.Procedure.handle event)
  acknowledge p outcome event
  return outcome

variable {s : Session} {event : Event}

theorem onCalculator_ok {c : Calculator} {o : Option Outcome} (h : s.calculator.handle event = .ok (c, o)) :
    onCalculator (TalkingCalculator.Procedure.handle event) s = .ok o { s with calculator := c } := by
  unfold onCalculator
  rw [TalkingCalculator.Procedure.handle_eq, h]

theorem text_or_whole_of_handle {r : Calculator × Option Outcome} (h : s.calculator.handle event = .ok r) :
    ∀ value, event = .digit value → (∃ text, value = .text text) ∨ ∃ n, value = .whole n := by
  rintro value rfl
  cases hdigit : digitOfText? value.plain with
  | some d => exact Value.text_or_whole hdigit
  | none =>
    simp only [Calculator.handle, Event.key, hdigit] at h
    cases h

theorem onCalculator_error {e : EventError} (h : s.calculator.handle event = .error e) :
    onCalculator (TalkingCalculator.Procedure.handle event) s = .error (.refused e) s := by
  unfold onCalculator
  rw [TalkingCalculator.Procedure.handle_eq, h]

theorem sayKey_text (p : Playback) (text : String) (s : Session) :
    sayKey p (.text text) s = .ok () (s.speakKey p text) := by
  obtain ⟨settings, size, calculator, feedback, announcer⟩ := s
  change (if settings.speakKeys = true then say p (Spoken.key text) else return) _ = _
  unfold Session.speakKey Announcer.speakKey
  dsimp only
  split <;> rfl

theorem sayKey_whole (p : Playback) (n : Int) (s : Session) :
    sayKey p (.whole n) s =
      if s.settings.speakKeys then .error (.unlabelled .digitNumber) s else .ok () s := by
  obtain ⟨settings, size, calculator, feedback, announcer⟩ := s
  change (if settings.speakKeys = true then throw (.unlabelled .digitNumber) else return : Procedure Unit) _ = _
  dsimp only
  split <;> rfl

theorem acknowledge_digit_whole (p : Playback) (o : Option Outcome) (n : Int) (s : Session) :
    acknowledge p o (.digit (.whole n)) s =
      match s.acknowledge p o (.digit (.whole n)) with
      | (t, none) => .ok () t
      | (t, some e) => .error (.unlabelled e) t := by
  obtain ⟨settings, size, calculator, feedback, announcer⟩ := s
  refine (sayKey_whole p n _).trans ?_
  unfold Session.acknowledge showDigit Session.notify Session.notifyFor Session.speakKey Announcer.speakKey
  dsimp only
  cases settings.speakKeys <;> rfl

/-- What the calculator takes as a digit is a text or a number. -/
theorem acknowledge_eq (p : Playback) (o : Option Outcome) {event : Event} (s : Session)
    (hdigit : ∀ value, event = .digit value → (∃ text, value = .text text) ∨ ∃ n, value = .whole n) :
    acknowledge p o event s =
      match s.acknowledge p o event with
      | (t, none) => .ok () t
      | (t, some e) => .error (.unlabelled e) t := by
  cases event with
  | digit value =>
    rcases hdigit value rfl with ⟨text, rfl⟩ | ⟨n, rfl⟩
    · exact sayKey_text p text _
    · exact acknowledge_digit_whole p o n s
  | operator choice =>
    cases choice with
    | known op => exact sayKey_text p _ _
    | given value => rfl
  | function choice =>
    cases choice with
    | known op => exact sayKey_text p _ _
    | given value => rfl
  | point => exact sayKey_text p "." _
  | openParen => exact sayKey_text p "(" _
  | closeParen => exact sayKey_text p ")" _
  | clear => rfl
  | delete => rfl
  | toggleMode =>
    obtain ⟨settings, size, ⟨mode, display, coefficients, active⟩, feedback, announcer⟩ := s
    cases mode <;> rfl
  | cycleFocus => rfl
  | focus choice => rfl
  | commit =>
    cases o with
    | none => rfl
    | some o =>
      obtain ⟨success, text⟩ := o
      cases success <;> rfl
  | unknown value => rfl

/-- Step by step an event comes to what it comes to at once. -/
theorem process_eq (p : Playback) (event : Event) (s : Session) :
    process p event s =
      match s.process p event with
      | (t, .ok o) => .ok o t
      | (t, .error e) => .error e t := by
  unfold Session.process
  cases h : s.calculator.handle event with
  | error e => exact TalkingCalculator.Procedure.bind_error (onCalculator_error h)
  | ok r =>
    obtain ⟨c, o⟩ := r
    refine (TalkingCalculator.Procedure.bind_ok (onCalculator_ok h)).trans ?_
    have hsteps := acknowledge_eq p o { s with calculator := c } (text_or_whole_of_handle h)
    dsimp only
    generalize Session.acknowledge p { s with calculator := c } o event = r at hsteps ⊢
    obtain ⟨t, label⟩ := r
    cases label with
    | none => exact TalkingCalculator.Procedure.bind_ok hsteps
    | some e => exact TalkingCalculator.Procedure.bind_error hsteps

end Procedure

variable (p : Playback) (s : Session)

def react (r : Reaction) : Session :=
  { s with feedback := r.feedback, announcer := r.said.elim s.announcer (s.announcer.speak p s.settings) }

def attend (event : Event) : Session :=
  { s with calculator := s.calculator.attend event }

/-- The session when an event stops for want of a label: the calculator has changed, and a digit is shown. -/
def stopped (event : Event) (e : LabelError) : Session :=
  { s with
    calculator := s.calculator.attend event
    feedback := if e = .digitNumber then (Reaction.ofEvent s.settings s.calculator event).feedback else s.feedback }

theorem showDigit_eq (piece : String) :
    s.showDigit p piece = s.react p (.typed s.settings Reaction.green "OK " piece) := by
  obtain ⟨settings, size, calculator, feedback, announcer⟩ := s
  unfold showDigit notify notifyFor speakKey Announcer.speakKey react Reaction.typed
  dsimp only
  cases settings.speakKeys <;> rfl

theorem showSign_eq (piece : String) :
    s.showSign p piece = s.react p (.typed s.settings Reaction.orange "" piece) := by
  obtain ⟨settings, size, calculator, feedback, announcer⟩ := s
  unfold showSign notify notifyFor speakKey Announcer.speakKey react Reaction.typed Reaction.feedback
  rw [String.empty_append]
  dsimp only
  cases settings.speakKeys <;> rfl

theorem showOutcome_eq (o : Outcome) : s.showOutcome p o = s.react p (.committed s.settings o) := by
  obtain ⟨success, text⟩ := o
  cases success <;> rfl

variable {s} {event : Event} {o : Option Outcome}

theorem handle_eq_attend {c : Calculator} (h : s.calculator.handle event = .ok (c, o)) :
    { s with calculator := c } = s.attend event := by
  unfold attend
  rw [Calculator.attend_of_handle h]

theorem ofEvent_digit {value : Value} {r : Calculator × Option Outcome}
    (h : s.calculator.handle (.digit value) = .ok r) :
    Reaction.ofEvent s.settings s.calculator (.digit value) = .typed s.settings Reaction.green "OK " value.plain := by
  unfold Reaction.ofEvent
  cases hdigit : digitOfText? value.plain with
  | some d =>
    simp only [Event.key, hdigit]
    rw [Reaction.ofKey, digitText_of_digitOfText? hdigit]
  | none =>
    simp only [Calculator.handle, Event.key, hdigit] at h
    cases h

theorem ofEvent_focus (choice : Choice Slot) :
    Reaction.ofEvent s.settings s.calculator (.focus choice) =
      .focused s.settings (s.calculator.attend (.focus choice)).active := by
  rw [Calculator.attend_eq]
  unfold Reaction.ofEvent
  dsimp only [Event.key]
  cases s.calculator.mode with
  | expression => rfl
  | equation =>
    dsimp only
    cases choice.resolve Slot.all Slot.letter <;> rfl

/-- An event with a label is shown and said as the key that it stands for. -/
theorem acknowledge_of_labelled {c : Calculator} (h : s.calculator.handle event = .ok (c, o))
    (hlabel : ∀ e, ¬ Unlabelled s.settings event e) :
    acknowledge p (s.attend event) o event =
      ((s.attend event).react p (.ofEvent s.settings s.calculator event), none) := by
  cases event with
  | digit value =>
    rw [ofEvent_digit h]
    rcases Procedure.text_or_whole_of_handle h value rfl with ⟨text, rfl⟩ | ⟨n, rfl⟩
    · exact congrArg (·, none) (showDigit_eq p _ _)
    · have hkeys : (s.attend (.digit (.whole n))).settings.speakKeys = false :=
        Bool.eq_false_iff.mpr fun hkeys => hlabel _ (.digit hkeys nofun)
      unfold acknowledge
      rw [hkeys]
      exact congrArg (·, none) (showDigit_eq p _ _)
  | operator choice =>
    cases choice with
    | known op => exact congrArg (·, none) (showSign_eq p _ _)
    | given value => exact absurd .operator (hlabel _)
  | function choice =>
    cases choice with
    | known f => exact congrArg (·, none) (showSign_eq p _ _)
    | given value => exact absurd .function (hlabel _)
  | point => exact congrArg (·, none) (showDigit_eq p _ _)
  | openParen => exact congrArg (·, none) (showSign_eq p _ _)
  | closeParen => exact congrArg (·, none) (showSign_eq p _ _)
  | clear => rfl
  | delete => rfl
  | toggleMode =>
    obtain ⟨settings, size, ⟨mode, display, coefficients, active⟩, feedback, announcer⟩ := s
    cases mode <;> rfl
  | cycleFocus => rfl
  | focus choice =>
    rw [ofEvent_focus]
    rfl
  | commit =>
    cases h
    exact congrArg (·, none) (showOutcome_eq p _ _)
  | unknown value => cases h

/-- An event without a label changes the calculator, and a digit that cannot be read is shown even so. -/
theorem acknowledge_of_unlabelled {c : Calculator} {e : LabelError} (h : s.calculator.handle event = .ok (c, o))
    (hlabel : Unlabelled s.settings event e) :
    acknowledge p (s.attend event) o event =
      (s.stopped event e, some e) := by
  cases hlabel with
  | operator | function => rfl
  | @digit value hkeys hvalue =>
    unfold stopped
    rw [ofEvent_digit h, if_pos rfl]
    rcases Procedure.text_or_whole_of_handle h value rfl with ⟨text, rfl⟩ | ⟨n, rfl⟩
    · exact absurd rfl (hvalue text)
    · have hkeys' : (s.attend (.digit (.whole n))).settings.speakKeys = true := hkeys
      unfold acknowledge
      rw [hkeys']
      rfl

theorem process_of_ok {c : Calculator} (h : s.calculator.handle event = .ok (c, o)) :
    s.process p event =
      match acknowledge p (s.attend event) o event with
      | (t, none) => (t, .ok o)
      | (t, some e) => (t, .error (.unlabelled e)) := by
  unfold process
  rewrite [h, ← handle_eq_attend h]
  rfl

/-- Step by step, a refused event leaves the session as it was, and one that is taken and has a label is completed: the
calculator has handled it, and what it stands for is shown and said. One that is taken and has no label stops with an
error when the calculator has handled it already. -/
theorem process_cases :
    (∀ e, Refused s.calculator.mode event e → Procedure.process p event s = .error (.refused e) s) ∧
    ((∀ e, ¬ Refused s.calculator.mode event e) →
      (∀ e, Unlabelled s.settings event e →
        Procedure.process p event s = .error (.unlabelled e) (s.stopped event e)) ∧
      ((∀ e, ¬ Unlabelled s.settings event e) →
        ∃ o, s.calculator.handle event = .ok (s.calculator.attend event, o) ∧
          Procedure.process p event s =
            .ok o ((s.attend event).react p (Reaction.ofEvent s.settings s.calculator event)))) ∧
    s.process p event =
      match Procedure.process p event s with
      | .ok o t => (t, .ok o)
      | .error e t => (t, .error e) := by
  rw [Procedure.process_eq]
  refine ⟨fun e he => ?_, fun hrefused => ?_, ?_⟩
  · have h := Calculator.handle_eq_error_iff.mpr he
    unfold process
    rw [h]
  · cases h : s.calculator.handle event with
    | error e => exact absurd (Calculator.handle_eq_error_iff.mp h) (hrefused e)
    | ok r =>
      obtain ⟨c, o⟩ := r
      rw [process_of_ok p h]
      refine ⟨fun e he => ?_, fun hlabel => ⟨o, ?_, ?_⟩⟩
      · rw [acknowledge_of_unlabelled p h he]
      · rw [Calculator.attend_of_handle h]
      · rw [acknowledge_of_labelled p h hlabel]
  · rcases s.process p event with ⟨t, o | e⟩ <;> rfl

/-- A times sign given by its text is typed before it is found to have no label. -/
theorem not_atomic_operatorText :
    ¬ ∀ (p : Playback) (s : Session) (event : Event), (∃ o t, Procedure.process p event s = .ok o t) ∨
      ∃ e t, Procedure.process p event s = .error e t ∧ t.calculator = s.calculator ∧ t.feedback = s.feedback ∧
        t.announcer = s.announcer := by
  intro h
  have hprocess : ∃ t, Procedure.process ⟨false, []⟩ (.operator (.given (.text "×"))) (start .standard (.ok [])) =
      .error (.unlabelled .operatorText) t ∧ t.calculator ≠ (start .standard (.ok [])).calculator :=
    ⟨_, rfl, by decide⟩
  obtain ⟨u, hu, hcalculator⟩ := hprocess
  rcases h ⟨false, []⟩ _ (.operator (.given (.text "×"))) with ⟨o, t, ht⟩ | ⟨e, t, ht, htake, -⟩
  · cases hu.symm.trans ht
  · cases hu.symm.trans ht
    exact hcalculator htake

end Session

end TalkingCalculator
