import TalkingCalculator.Proofs.Calculator.Runs

/-!
# Modes kept apart

A key reads and writes only what belongs to the mode that it is pressed in: the display in expression mode, the
coefficients and the focus in equation mode, and of the other mode's things only a commit in equation mode writes
one, the display. So a mode sees the same run when what was handled in the other mode is left out of it, and finds
its texts again after an excursion into the other mode.
-/
namespace TalkingCalculator

theorem Mode.eq_equation_of_ne {mode : Mode} (h : mode ≠ .expression) : mode = .equation := by
  cases mode with
  | expression => exact absurd rfl h
  | equation => rfl

theorem Mode.eq_expression_of_ne {mode : Mode} (h : mode ≠ .equation) : mode = .expression := by
  cases mode with
  | expression => rfl
  | equation => exact absurd rfl h

theorem Mode.other_other (mode : Mode) : mode.other.other = mode := by
  cases mode <;> rfl

theorem Mode.other_ne (mode : Mode) : mode.other ≠ mode := by
  cases mode <;> decide

def Event.changesMode : Event → Bool
  | .toggleMode => true
  | _ => false

theorem Event.changesMode_iff {event : Event} : event.changesMode = true ↔ event = .toggleMode := by
  cases event <;> simp [changesMode]

namespace Calculator

variable {c d : Calculator} {mode : Mode} {event : Event} {key : Key}

def withFields (c : Calculator) (coefficients : Coefficients) (active : Slot) : Calculator :=
  { c with coefficients, active }

def withDisplay (c : Calculator) (display : String) : Calculator :=
  { c with display }

theorem toggleMode_toggleMode (c : Calculator) : c.toggleMode.toggleMode = c := by
  have h : c.toggleMode.toggleMode = { c with mode := c.mode.other.other } := rfl
  rw [h, Mode.other_other]

theorem appendOperand_withFields (h : c.mode = .expression) (k : Coefficients) (s : Slot) (piece : String) :
    (c.withFields k s).appendOperand piece = (c.appendOperand piece).withFields k s := by
  obtain ⟨mode, display, coefficients, active⟩ := c
  cases h
  by_cases hdisplay : display = placeholder
  · subst hdisplay
    rfl
  · simp [withFields, appendOperand, hdisplay, append, setBuffer, buffer]

/-- In expression mode keys neither read nor write the coefficients and the focus. -/
theorem press_withFields (h : c.mode = .expression) (k : Coefficients) (s : Slot) (key : Key) :
    (c.withFields k s).press key = (c.press key).withFields k s := by
  have hoperand := appendOperand_withFields h k s
  obtain ⟨mode, display, coefficients, active⟩ := c
  cases h
  cases key with
  | digit d => exact hoperand _
  | function f => exact hoperand _
  | openParen => exact hoperand _
  | _ => rfl

/-- In equation mode no key but a commit reads or writes the display. -/
theorem press_withDisplay (h : c.mode = .equation) (text : String) (hkey : key ≠ .commit) :
    (c.withDisplay text).press key = (c.press key).withDisplay text := by
  obtain ⟨mode, display, coefficients, active⟩ := c
  cases h
  cases key with
  | commit => exact absurd rfl hkey
  | _ => rfl

/-- A commit in equation mode does not read the display that it writes. -/
theorem commit_withDisplay (h : c.mode = .equation) (text : String) : (c.withDisplay text).commit = c.commit := by
  obtain ⟨mode, display, coefficients, active⟩ := c
  cases h
  rfl

theorem parts_subset_expression (h : c.mode = .expression) (hevent : event.changesMode = false) :
    event.parts c ⊆ [.display] := by
  unfold Event.parts bufferPart
  cases event with
  | toggleMode => cases hevent
  | _ => simp [h]

theorem parts_subset_equation (h : c.mode = .equation) (hevent : event.changesMode = false) (hcommit : event ≠ .commit) :
    event.parts c ⊆ .focus :: Slot.all.map .coefficient := by
  have hslot (slot : Slot) : slot ∈ Slot.all := by cases slot <;> decide
  unfold Event.parts bufferPart
  cases event with
  | toggleMode => cases hevent
  | commit => exact absurd rfl hcommit
  | _ => simp [h, hslot]

/-- The two states are in the same mode and have the same in all that belongs to `mode`. -/
def Agree (mode : Mode) (c d : Calculator) : Prop :=
  c.mode = d.mode ∧
    match mode with
    | .expression => c.display = d.display
    | .equation => c.coefficients = d.coefficients ∧ c.active = d.active

namespace Agree

theorem refl (mode : Mode) (c : Calculator) : Agree mode c c := by
  cases mode with
  | expression => exact ⟨rfl, rfl⟩
  | equation => exact ⟨rfl, rfl, rfl⟩

theorem symm (h : Agree mode c d) : Agree mode d c := by
  cases mode with
  | expression => exact ⟨h.1.symm, h.2.symm⟩
  | equation => exact ⟨h.1.symm, h.2.1.symm, h.2.2.symm⟩

theorem trans {e : Calculator} (h : Agree mode c d) (h' : Agree mode d e) : Agree mode c e := by
  cases mode with
  | expression => exact ⟨h.1.trans h'.1, h.2.trans h'.2⟩
  | equation => exact ⟨h.1.trans h'.1, h.2.1.trans h'.2.1, h.2.2.trans h'.2.2⟩

theorem eq_withFields (h : Agree .expression c d) : d = c.withFields d.coefficients d.active := by
  obtain ⟨mode, display, coefficients, active⟩ := c
  obtain ⟨mode', display', coefficients', active'⟩ := d
  obtain ⟨hmode, hdisplay⟩ := h
  cases hmode
  cases hdisplay
  rfl

theorem eq_withDisplay (h : Agree .equation c d) : d = c.withDisplay d.display := by
  obtain ⟨mode, display, coefficients, active⟩ := c
  obtain ⟨mode', display', coefficients', active'⟩ := d
  obtain ⟨hmode, hcoefficients, hactive⟩ := h
  cases hmode
  cases hcoefficients
  cases hactive
  rfl

/-- A key does the same to what belongs to the mode it is pressed in. -/
theorem press (h : Agree mode c d) (hmode : c.mode = mode) (key : Key) : Agree mode (c.press key) (d.press key) := by
  cases mode with
  | expression =>
    rw [h.eq_withFields, press_withFields hmode]
    exact ⟨rfl, rfl⟩
  | equation =>
    rw [h.eq_withDisplay]
    by_cases hkey : key = .commit
    · subst hkey
      rw [Calculator.press, Calculator.press, commit_withDisplay hmode]
      exact refl _ _
    · rw [press_withDisplay hmode _ hkey]
      exact ⟨rfl, rfl, rfl⟩

theorem toggleMode (h : Agree mode c d) : Agree mode c.toggleMode d.toggleMode :=
  ⟨congrArg Mode.other h.1, h.2⟩

theorem attend (h : Agree mode c d) (hevent : event.changesMode = true ∨ c.mode = mode) :
    Agree mode (c.attend event) (d.attend event) := by
  rcases hevent with hevent | hmode
  · rw [Event.changesMode_iff.mp hevent]
    exact h.toggleMode
  · rw [attend_eq, attend_eq, ← h.1]
    cases event.key c.mode with
    | error e => exact h
    | ok key? =>
      cases key? with
      | none => exact h
      | some key => exact h.press hmode key

/-- An event leaves what belongs to the other mode, unless it is a commit that writes the display. -/
theorem attend_left (hmode : c.mode ≠ mode) (hevent : event.changesMode = false)
    (hcommit : mode = .expression → event ≠ .commit) : Agree mode c (c.attend event) := by
  cases mode with
  | expression =>
    have hparts := parts_subset_equation (Mode.eq_equation_of_ne hmode) hevent (hcommit rfl)
    have hkept {p : Part} (hp : p ∉ .focus :: Slot.all.map .coefficient) : p.Same c (c.attend event) :=
      same_attend fun h => hp (hparts h)
    exact ⟨hkept (p := .mode) (by decide), hkept (p := .display) (by decide)⟩
  | equation =>
    have hparts := parts_subset_expression (Mode.eq_expression_of_ne hmode) hevent
    have hkept {p : Part} (hp : p ≠ .display) : p.Same c (c.attend event) :=
      same_attend fun h => hp (List.mem_singleton.mp (hparts h))
    exact ⟨hkept (p := .mode) nofun, Coefficients.eq_of_get fun slot => hkept (p := .coefficient slot) nofun,
      hkept (p := .focus) nofun⟩

end Agree

/-- The events that are handled in a mode, and the changes of mode among the others. -/
def handledIn (mode : Mode) (c : Calculator) : List Event → List Event
  | [] => []
  | event :: events =>
    if event.changesMode = true ∨ c.mode = mode then event :: handledIn mode (c.attend event) events
    else handledIn mode (c.attend event) events

theorem handledIn_sublist (mode : Mode) (c : Calculator) (events : List Event) :
    (c.handledIn mode events).Sublist events := by
  induction events generalizing c with
  | nil => exact .slnil
  | cons event events ih =>
    unfold handledIn
    split
    · exact (ih _).cons_cons event
    · exact (ih _).cons event

theorem handledIn_toggleMode (mode : Mode) (c : Calculator) (events : List Event) :
    c.handledIn mode (.toggleMode :: events) = .toggleMode :: c.toggleMode.handledIn mode events := by
  have hchange : Event.toggleMode.changesMode = true := rfl
  rw [handledIn, if_pos (Or.inl hchange)]
  rfl

theorem handledIn_append (mode : Mode) (c : Calculator) (before after : List Event) :
    c.handledIn mode (before ++ after) = c.handledIn mode before ++ (c.attendAll before).handledIn mode after := by
  induction before generalizing c with
  | nil => rfl
  | cons event before ih =>
    rw [List.cons_append, handledIn, handledIn, attendAll_cons, ih]
    split <;> rfl

/-- What belongs to a mode is the same after the events that were handled in the mode as after all of them. -/
theorem Agree.attendAll {events : List Event} (h : Agree mode c d)
    (hcommit : mode = .expression → .commit ∉ c.handledIn .equation events) :
    Agree mode (c.attendAll events) (d.attendAll (c.handledIn mode events)) := by
  induction events generalizing c d with
  | nil => exact h
  | cons event events ih =>
    have hrest : mode = .expression → .commit ∉ (c.attend event).handledIn .equation events := by
      intro hmode hmem
      refine hcommit hmode ?_
      unfold handledIn
      split
      · exact List.mem_cons_of_mem event hmem
      · exact hmem
    rw [attendAll_cons, handledIn]
    by_cases hevent : event.changesMode = true ∨ c.mode = mode
    · rw [if_pos hevent, attendAll_cons]
      exact ih (h.attend hevent) hrest
    · obtain ⟨hchange, hmode⟩ := not_or.mp hevent
      rw [if_neg hevent]
      refine ih (.trans (.symm (.attend_left hmode (Bool.eq_false_iff.mpr hchange) ?_)) h) hrest
      rintro rfl rfl
      refine hcommit rfl ?_
      rw [handledIn, if_pos (Or.inr (Mode.eq_equation_of_ne hmode))]
      exact List.mem_cons_self

theorem mode_attend (hevent : event.changesMode = false) : (c.attend event).mode = c.mode := by
  by_cases hcommit : event = .commit
  · subst hcommit
    rfl
  · exact (Agree.attend_left c.mode.other_ne.symm hevent fun _ => hcommit).1.symm

theorem mode_attendAll {events : List Event} (h : ∀ event ∈ events, event.changesMode = false) :
    (c.attendAll events).mode = c.mode := by
  induction events generalizing c with
  | nil => rfl
  | cons event events ih =>
    obtain ⟨hevent, hevents⟩ := List.forall_mem_cons.mp h
    rw [attendAll_cons, ih hevents, mode_attend hevent]

theorem handledIn_of_ne {events : List Event} (h : ∀ event ∈ events, event.changesMode = false)
    (hmode : c.mode ≠ mode) : c.handledIn mode events = [] := by
  induction events generalizing c with
  | nil => rfl
  | cons event events ih =>
    obtain ⟨hevent, hevents⟩ := List.forall_mem_cons.mp h
    rw [handledIn, if_neg (by simp [hevent, hmode])]
    refine ih hevents ?_
    rwa [mode_attend hevent]

def excursion (events : List Event) : List Event :=
  .toggleMode :: (events ++ [.toggleMode])

theorem attendAll_excursion (c : Calculator) (events : List Event) :
    c.attendAll (excursion events) = (c.toggleMode.attendAll events).toggleMode :=
  c.toggleMode.attendAll_append events [.toggleMode]

theorem mode_excursion (c : Calculator) {events : List Event} (h : ∀ event ∈ events, event.changesMode = false) :
    (c.attendAll (excursion events)).mode = c.mode := by
  have hmode := mode_attendAll h (c := c.toggleMode)
  rw [attendAll_excursion, toggleMode, hmode]
  exact c.mode.other_other

theorem handledIn_excursion (c : Calculator) {events : List Event} (h : ∀ event ∈ events, event.changesMode = false) :
    c.handledIn c.mode (excursion events) = excursion [] := by
  rw [excursion, handledIn_toggleMode, handledIn_append, handledIn_of_ne h c.mode.other_ne, handledIn_toggleMode]
  rfl

/-- After an excursion a mode finds what belongs to it as it was, unless the display was written by a commit. -/
theorem agree_excursion (c : Calculator) {events : List Event} (h : ∀ event ∈ events, event.changesMode = false)
    (hcommit : c.mode = .expression → .commit ∉ events) : Agree c.mode (c.attendAll (excursion events)) c := by
  have hnothing : c.attendAll (excursion []) = c := by
    rw [attendAll_excursion]
    exact c.toggleMode_toggleMode
  have hnone (hmode : c.mode = .expression) : .commit ∉ c.handledIn .equation (excursion events) := by
    intro hmem
    have hmem := (handledIn_sublist _ _ _).subset hmem
    simp [excursion, hcommit hmode] at hmem
  have hagree := (Agree.refl c.mode c).attendAll hnone
  rwa [handledIn_excursion c h, hnothing] at hagree

/-- What belongs to a mode at the end of a run does not depend on what was handled in the other mode: the mode,
the coefficients and the focus, and the mode and the display as long as no commit was handled in equation mode.
After an excursion into the other mode everything that belongs to a mode is as it was. -/
theorem modes_apart (c : Calculator) (events : List Event) :
    ((c.attendAll (c.handledIn .equation events)).mode = (c.attendAll events).mode ∧
      (c.attendAll (c.handledIn .equation events)).coefficients = (c.attendAll events).coefficients ∧
      (c.attendAll (c.handledIn .equation events)).active = (c.attendAll events).active) ∧
    (.commit ∉ c.handledIn .equation events →
      (c.attendAll (c.handledIn .expression events)).mode = (c.attendAll events).mode ∧
      (c.attendAll (c.handledIn .expression events)).display = (c.attendAll events).display) ∧
    ((∀ event ∈ events, event.changesMode = false) →
      (c.attendAll (excursion events)).mode = c.mode ∧
      (c.mode = .equation → (c.attendAll (excursion events)).coefficients = c.coefficients ∧
        (c.attendAll (excursion events)).active = c.active) ∧
      (c.mode = .expression → .commit ∉ events → (c.attendAll (excursion events)).display = c.display)) := by
  refine ⟨?_, ?_, ?_⟩
  · exact ((Agree.refl .equation c).attendAll nofun).symm
  · intro hcommit
    exact ((Agree.refl .expression c).attendAll fun _ => hcommit).symm
  · intro h
    refine ⟨c.mode_excursion h, ?_, ?_⟩
    · intro hmode
      have hagree := c.agree_excursion h (by simp [hmode])
      rw [hmode] at hagree
      exact hagree.2
    · intro hmode hcommit
      have hagree := c.agree_excursion h fun _ => hcommit
      rw [hmode] at hagree
      exact hagree.2

end Calculator

end TalkingCalculator
