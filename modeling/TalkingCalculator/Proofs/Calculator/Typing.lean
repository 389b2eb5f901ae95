import Mathlib.Data.List.Forall2
import TalkingCalculator.Proofs.Calculator.Fields
import TalkingCalculator.Proofs.Calculator.Keys

/-!
# Typing

A key that types something writes it after the text of the buffer. On a display that has only the placeholder, a
digit, a function or an opening parenthesis takes its place instead, so that zeros pressed first leave it as it is.
Once anything else was typed, the display is never the placeholder again, and all that follows is written after it.
-/
namespace TalkingCalculator

/-- What is written after a text is not taken for the placeholder. -/
theorem append_ne_placeholder {text piece : String} (htext : text ≠ "") (hpiece : piece ≠ "") :
    text ++ piece ≠ placeholder := by
  intro h
  have hchars : text.toList ++ piece.toList = ['0'] := by
    rw [← String.toList_append, h]
    rfl
  rcases List.append_eq_singleton_iff.mp hchars with ⟨hnil, -⟩ | ⟨-, hnil⟩
  · exact htext (String.toList_eq_nil_iff.mp hnil)
  · exact hpiece (String.toList_eq_nil_iff.mp hnil)

namespace Key

/-- Whether the key begins an operand, which is typed in the place of a lone zero. -/
def beginsOperand : Key → Bool
  | digit _ | function _ | openParen => true
  | _ => false

def typed (keys : List Key) : String :=
  .join (keys.filterMap piece?)

def onPlaceholder (key : Key) (piece : String) : String :=
  if key.beginsOperand then piece else placeholder ++ piece

/-- What the keys make of a display that has only the placeholder. -/
def shown (keys : List Key) : String :=
  match keys.dropWhile (· = .digit 0) with
  | [] => placeholder
  | key :: rest =>
    if key.beginsOperand then typed (key :: rest) else placeholder ++ typed (key :: rest)

variable {key : Key} {piece : String}

theorem typed_cons (hpiece : key.piece? = some piece) (keys : List Key) : typed (key :: keys) = piece ++ typed keys := by
  unfold typed
  rw [List.filterMap_cons_some hpiece, String.join_cons]

theorem shown_zero_cons (keys : List Key) : shown (.digit 0 :: keys) = shown keys := by
  unfold shown
  rw [List.dropWhile_cons_of_pos (by simp)]

theorem shown_cons (hpiece : key.piece? = some piece) (hzero : key ≠ .digit 0) (keys : List Key) :
    shown (key :: keys) = key.onPlaceholder piece ++ typed keys := by
  unfold shown onPlaceholder
  rw [List.dropWhile_cons_of_neg (by simp [hzero])]
  dsimp only
  rw [typed_cons hpiece]
  split
  · rfl
  · rw [String.append_assoc]

/-- Of the keys that begin an operand, only the zero types the placeholder. -/
theorem piece_ne_placeholder (hpiece : key.piece? = some piece) (hzero : key ≠ .digit 0) : piece ≠ placeholder := by
  cases key with
  | digit d =>
    cases hpiece
    have hdigit : ∀ d : Fin 10, d ≠ 0 → digitText d ≠ placeholder := by decide
    exact hdigit d fun hd => hzero (congrArg digit hd)
  | operator op =>
    cases hpiece
    cases op <;> decide
  | function f =>
    cases hpiece
    cases f <;> decide
  | point | openParen | closeParen =>
    cases hpiece
    decide
  | clear | delete | toggleMode | cycleFocus | focus | commit => cases hpiece

theorem onPlaceholder_ne_empty (hpiece : key.piece? = some piece) : key.onPlaceholder piece ≠ "" := by
  unfold onPlaceholder
  split
  · exact piece_ne_empty hpiece
  · simp [placeholder]

/-- After any key but a zero the display is not the placeholder. -/
theorem onPlaceholder_ne (hpiece : key.piece? = some piece) (hzero : key ≠ .digit 0) :
    key.onPlaceholder piece ≠ placeholder := by
  unfold onPlaceholder
  split
  · exact piece_ne_placeholder hpiece hzero
  · exact append_ne_placeholder (by decide) (piece_ne_empty hpiece)

end Key

namespace Calculator

variable {c : Calculator} {key : Key} {piece : String}

def typing (c : Calculator) (key : Key) (piece : String) : String :=
  match c.mode with
  | .expression => if key.beginsOperand ∧ c.display = placeholder then piece else c.display ++ piece
  | .equation => if key.isParen then c.buffer else c.buffer ++ piece

theorem typing_expression (hmode : c.mode = .expression) :
    c.typing key piece = if key.beginsOperand ∧ c.display = placeholder then piece else c.display ++ piece := by
  unfold typing
  rw [hmode]

theorem typing_equation (hmode : c.mode = .equation) :
    c.typing key piece = if key.isParen then c.buffer else c.buffer ++ piece := by
  unfold typing
  rw [hmode]

theorem appendOperand_expression (hmode : c.mode = .expression) (hkey : key.beginsOperand = true) (piece : String) :
    c.appendOperand piece = c.setBuffer (c.typing key piece) := by
  rw [typing_expression hmode]
  unfold appendOperand append
  rw [buffer_expression hmode]
  by_cases hdisplay : c.display = placeholder
  · rw [if_pos ⟨hmode, hdisplay⟩, if_pos ⟨hkey, hdisplay⟩]
  · rw [if_neg fun h => hdisplay h.2, if_neg fun h => hdisplay h.2]

theorem append_expression_typing (hmode : c.mode = .expression) (hkey : key.beginsOperand = false) (piece : String) :
    c.append piece = c.setBuffer (c.typing key piece) := by
  rw [typing_expression hmode, if_neg (by simp [hkey])]
  unfold append
  rw [buffer_expression hmode]

theorem append_equation_typing (hmode : c.mode = .equation) (hkey : key.isParen = false) (piece : String) :
    c.append piece = c.setBuffer (c.typing key piece) := by
  rw [typing_equation hmode, if_neg (by simp [hkey])]
  rfl

/-- What one key does that types a piece. -/
theorem press_of_piece (hpiece : key.piece? = some piece) : c.press key = c.setBuffer (c.typing key piece) := by
  cases hmode : c.mode with
  | expression =>
    cases key with
    | digit | function =>
      cases hpiece
      exact appendOperand_expression hmode rfl _
    | point | operator =>
      cases hpiece
      exact append_expression_typing hmode rfl _
    | openParen =>
      cases hpiece
      rw [press, if_pos hmode]
      exact appendOperand_expression hmode rfl _
    | closeParen =>
      cases hpiece
      rw [press, if_pos hmode]
      exact append_expression_typing hmode rfl _
    | clear | delete | toggleMode | cycleFocus | focus | commit => cases hpiece
  | equation =>
    cases key with
    | digit | function =>
      cases hpiece
      rw [press, appendOperand_equation hmode]
      exact append_equation_typing hmode rfl _
    | point | operator =>
      cases hpiece
      exact append_equation_typing hmode rfl _
    | openParen | closeParen =>
      rw [press, if_neg (by simp [hmode]), typing_equation hmode]
      exact c.setBuffer_buffer.symm
    | clear | delete | toggleMode | cycleFocus | focus | commit => cases hpiece

/-- On a display that is not the placeholder every key writes its piece after the text. -/
theorem press_of_ne (hmode : c.mode = .expression) (hdisplay : c.display ≠ placeholder)
    (hpiece : key.piece? = some piece) : c.press key = { c with display := c.display ++ piece } := by
  rw [press_of_piece hpiece, typing_expression hmode, if_neg fun h => hdisplay h.2, setBuffer_expression hmode]

/-- Once the display is not the placeholder, it never is while keys type. -/
theorem foldl_press_of_ne {keys : List Key} (hmode : c.mode = .expression) (hempty : c.display ≠ "")
    (hdisplay : c.display ≠ placeholder) (hkeys : ∀ key ∈ keys, key.piece?.isSome) :
    keys.foldl press c = { c with display := c.display ++ Key.typed keys } := by
  induction keys generalizing c with
  | nil => simp [Key.typed]
  | cons key keys ih =>
    obtain ⟨hkey, hrest⟩ := List.forall_mem_cons.mp hkeys
    obtain ⟨piece, hpiece⟩ := Option.isSome_iff_exists.mp hkey
    let next : Calculator := { c with display := c.display ++ piece }
    have hnext : next.display ≠ "" ∧ next.display ≠ placeholder :=
      ⟨by simp [next, hempty], append_ne_placeholder hempty (Key.piece_ne_empty hpiece)⟩
    rw [List.foldl_cons, press_of_ne hmode hdisplay hpiece,
      ih (c := next) hmode hnext.1 hnext.2 hrest, Key.typed_cons hpiece, ← String.append_assoc]

theorem press_placeholder (hmode : c.mode = .expression) (hdisplay : c.display = placeholder)
    (hpiece : key.piece? = some piece) : c.press key = { c with display := key.onPlaceholder piece } := by
  rw [press_of_piece hpiece, typing_expression hmode, setBuffer_expression hmode, hdisplay]
  unfold Key.onPlaceholder
  simp only [and_true]

/-- On a display that has only the placeholder, zeros pressed first leave it there, and the first other key takes its
place if it begins an operand. -/
theorem foldl_press_placeholder {keys : List Key} (hmode : c.mode = .expression) (hdisplay : c.display = placeholder)
    (hkeys : ∀ key ∈ keys, key.piece?.isSome) :
    keys.foldl press c = { c with display := Key.shown keys } := by
  have hsame : { c with display := placeholder } = c := by rw [← hdisplay]
  induction keys with
  | nil => exact hsame.symm
  | cons key keys ih =>
    obtain ⟨hkey, hrest⟩ := List.forall_mem_cons.mp hkeys
    obtain ⟨piece, hpiece⟩ := Option.isSome_iff_exists.mp hkey
    rw [List.foldl_cons, press_placeholder hmode hdisplay hpiece]
    by_cases hzero : key = .digit 0
    · subst hzero
      cases hpiece
      rw [show Key.onPlaceholder (.digit 0) (digitText 0) = placeholder from rfl, hsame, ih hrest, Key.shown_zero_cons]
    · rw [Key.shown_cons hpiece hzero]
      exact foldl_press_of_ne (c := { c with display := key.onPlaceholder piece }) hmode
        (Key.onPlaceholder_ne_empty hpiece) (Key.onPlaceholder_ne hpiece hzero) hrest

theorem setBuffer_setBuffer (c : Calculator) (old new : String) : (c.setBuffer old).setBuffer new = c.setBuffer new := by
  cases hmode : c.mode with
  | expression =>
    rw [setBuffer_expression ((mode_setBuffer c old).trans hmode), setBuffer_expression hmode, setBuffer_expression hmode]
  | equation =>
    rw [setBuffer_equation ((mode_setBuffer c old).trans hmode), setBuffer_equation hmode, setBuffer_equation hmode]
    cases c.active <;> rfl

/-- In a coefficient there is no placeholder, and parentheses type nothing. -/
theorem foldl_press_equation {keys : List Key} (hmode : c.mode = .equation)
    (hkeys : ∀ key ∈ keys, key.piece?.isSome) :
    keys.foldl press c = c.setBuffer (c.buffer ++ Key.typed (keys.filter (!·.isParen))) := by
  induction keys generalizing c with
  | nil => simp [Key.typed, setBuffer_buffer]
  | cons key keys ih =>
    obtain ⟨hkey, hrest⟩ := List.forall_mem_cons.mp hkeys
    obtain ⟨piece, hpiece⟩ := Option.isSome_iff_exists.mp hkey
    rw [List.foldl_cons, press_of_piece hpiece, ih ((mode_setBuffer c _).trans hmode) hrest, buffer_setBuffer,
      setBuffer_setBuffer, typing_equation hmode]
    cases hparen : key.isParen with
    | true => rw [if_pos rfl, List.filter_cons_of_neg (by simp [hparen])]
    | false =>
      rw [if_neg Bool.false_ne_true, List.filter_cons_of_pos (by simp [hparen]), Key.typed_cons hpiece,
        String.append_assoc]

end Calculator

namespace Event

variable {event : Event} {mode : Mode}

def isInput : Event → Bool
  | digit _ | point | operator _ | function _ | openParen | closeParen => true
  | _ => false

/-- The event is read as the key, whatever the mode is. -/
def StandsFor (event : Event) (key : Key) : Prop :=
  ∀ mode, event.key mode = .ok (some key)

/-- An event that types is read as a key that types, unless it is refused. -/
theorem exists_key_of_isInput (h : event.isInput = true) (mode : Mode) :
    (∃ e, event.key mode = .error e) ∨ ∃ key, event.StandsFor key ∧ key.piece?.isSome := by
  cases event with
  | digit value =>
    cases hdigit : digitOfText? value.plain with
    | none => exact Or.inl ⟨.digit value.plain, by simp only [key, hdigit]⟩
    | some d => exact Or.inr ⟨.digit d, fun _ => by simp only [key, hdigit], rfl⟩
  | operator choice =>
    cases hchoice : choice.resolve Operator.all (·.glyph.toString) with
    | error value => exact Or.inl ⟨.operator value, by simp only [key, hchoice]⟩
    | ok op => exact Or.inr ⟨.operator op, fun _ => by simp only [key, hchoice], rfl⟩
  | function choice =>
    cases hchoice : choice.resolve Trig.all Trig.name with
    | error value => exact Or.inl ⟨.function value, by simp only [key, hchoice]⟩
    | ok f => exact Or.inr ⟨.function f, fun _ => by simp only [key, hchoice], rfl⟩
  | point => exact Or.inr ⟨.point, fun _ => rfl, rfl⟩
  | openParen => exact Or.inr ⟨.openParen, fun _ => rfl, rfl⟩
  | closeParen => exact Or.inr ⟨.closeParen, fun _ => rfl, rfl⟩
  | clear | delete | toggleMode | cycleFocus | focus | commit | unknown => cases h

theorem exists_standsFor (h : event.isInput = true) (haccepted : ∀ e, ¬ Refused .expression event e) :
    ∃ key, event.StandsFor key ∧ key.piece?.isSome := by
  refine (exists_key_of_isInput h .expression).resolve_left ?_
  rintro ⟨e, he⟩
  exact haccepted e (refused_of_key he)

theorem exists_keys {events : List Event}
    (hevents : ∀ event ∈ events, event.isInput = true ∧ ∀ e, ¬ Refused .expression event e) :
    ∃ keys : List Key, List.Forall₂ StandsFor events keys ∧ ∀ key ∈ keys, key.piece?.isSome := by
  induction events with
  | nil => exact ⟨[], .nil, nofun⟩
  | cons event events ih =>
    obtain ⟨⟨hinput, haccepted⟩, hrest⟩ := List.forall_mem_cons.mp hevents
    obtain ⟨key, hkey, hpiece⟩ := exists_standsFor hinput haccepted
    obtain ⟨keys, hkeys, hpieces⟩ := ih hrest
    exact ⟨key :: keys, .cons hkey hkeys, List.forall_mem_cons.mpr ⟨hpiece, hpieces⟩⟩

end Event

namespace Calculator

theorem handle_of_standsFor {event : Event} {key : Key} (h : event.StandsFor key) (c : Calculator) :
    ∃ o, c.handle event = .ok (c.press key, o) := by
  unfold handle
  rw [h c.mode]
  exact ⟨_, rfl⟩

theorem handleAll_of_standsFor {events : List Event} {keys : List Key}
    (h : List.Forall₂ Event.StandsFor events keys) (c : Calculator) :
    c.handleAll events = .ok (keys.foldl press c) := by
  induction h generalizing c with
  | nil => rfl
  | cons hkey _ ih =>
    obtain ⟨o, ho⟩ := handle_of_standsFor hkey c
    rw [handleAll, ho]
    exact ih _

/-- The law of typing. Accepted events that type something are read as keys. On a display that has only the placeholder,
as in a fresh or a cleared calculator, they show what the keys type after the leading zeros, and before it a zero if
the first of it is no operand; with nothing but zeros the display stays as it is. In a coefficient they write all that
the keys type but the parentheses. Nothing else is changed. -/
theorem handleAll_typing {events : List Event}
    (hevents : ∀ event ∈ events, event.isInput = true ∧ ∀ e, ¬ Refused .expression event e) :
    ∃ keys : List Key, List.Forall₂ Event.StandsFor events keys ∧ (∀ key ∈ keys, key.piece?.isSome) ∧
      (∀ c : Calculator, c.mode = .expression → c.display = placeholder →
        c.handleAll events = .ok { c with display := Key.shown keys }) ∧
      ∀ c : Calculator, c.mode = .equation →
        c.handleAll events = .ok { c with
          coefficients := c.coefficients.set c.active
            (c.coefficients.get c.active ++ Key.typed (keys.filter (!·.isParen))) } := by
  obtain ⟨keys, hkeys, hpieces⟩ := Event.exists_keys hevents
  refine ⟨keys, hkeys, hpieces, fun c hmode hdisplay => ?_, fun c hmode => ?_⟩
  · rw [handleAll_of_standsFor hkeys, foldl_press_placeholder hmode hdisplay hpieces]
  · rw [handleAll_of_standsFor hkeys, foldl_press_equation hmode hpieces, setBuffer_equation hmode,
      buffer_equation hmode]

theorem handleAll_typing_zero_minus :
    let events : List Event := [.digit (.whole 0), .operator (.given (.text "−")), .openParen]
    (∀ event ∈ events, event.isInput = true ∧ ∀ e, ¬ Refused .expression event e) ∧
      fresh.handleAll events = .ok { fresh with display := "0−(" } ∧
      ({ fresh with display := "7" }.press .clear).handleAll events = .ok { fresh with display := "0−(" } ∧
      { fresh with mode := .equation }.handleAll events =
        .ok { fresh with mode := .equation, coefficients := ⟨"0−", "", ""⟩ } := by
  intro events
  have hevents : ∀ event ∈ events, event.isInput = true ∧ ∀ e, ¬ Refused .expression event e := by
    have hkeys : ∀ event ∈ events, event.isInput = true ∧ ∃ key, event.key .expression = .ok (some key) := by
      simp only [events, List.forall_mem_cons]
      exact ⟨⟨rfl, _, rfl⟩, ⟨rfl, _, rfl⟩, ⟨rfl, _, rfl⟩, nofun⟩
    intro event hevent
    obtain ⟨hinput, key, hkey⟩ := hkeys event hevent
    refine ⟨hinput, fun e he => ?_⟩
    cases hkey.symm.trans (Event.key_of_refused he)
  obtain ⟨keys, hkeys, -, hexpression, hequation⟩ := handleAll_typing hevents
  obtain rfl : keys = [.digit 0, .operator .subtract, .openParen] := by
    change List.Forall₂ Event.StandsFor [_, _, _] keys at hkeys
    rcases hkeys with _ | ⟨hzero, _ | ⟨hminus, _ | ⟨hparen, _ | _⟩⟩⟩
    cases hzero .expression
    cases hminus .expression
    cases hparen .expression
    rfl
  have hshown : Key.shown [.digit 0, .operator .subtract, .openParen] = "0−(" := by decide
  have htyped : Key.typed ([.digit 0, .operator .subtract, .openParen].filter (!·.isParen)) = "0−" := by decide
  refine ⟨hevents, ?_, ?_, ?_⟩
  · rw [hexpression fresh rfl rfl, hshown]
  · refine (hexpression ({ fresh with display := "7" }.press .clear) rfl rfl).trans ?_
    rw [hshown]
    rfl
  · refine (hequation { fresh with mode := .equation } rfl).trans ?_
    rw [htyped]
    rfl

end Calculator

end TalkingCalculator
