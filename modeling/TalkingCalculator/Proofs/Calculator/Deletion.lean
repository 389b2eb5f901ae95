import TalkingCalculator.Proofs.Calculator.Typing

/-!
# Deletions

Deletions shorten the text of the buffer from its end, one character each. A coefficient ends up empty; a display
that has nothing left shows the placeholder, and from there deletions change nothing. So what a key typed is undone
by as many deletions as its piece has characters, also where the piece took the place of the placeholder.
-/
namespace TalkingCalculator

def Mode.blank : Mode → String
  | .expression => placeholder
  | .equation => ""

def Mode.shortened (mode : Mode) (n : ℕ) (text : String) : String :=
  if text.length ≤ n then mode.blank else .ofList (text.toList.take (text.length - n))

def Key.width : Key → ℕ
  | function _ => 4
  | _ => 1

theorem Key.length_piece {key : Key} {piece : String} (h : key.piece? = some piece) : piece.length = key.width := by
  cases key with
  | digit d =>
    cases h
    revert d
    decide
  | operator op =>
    cases h
    cases op <;> rfl
  | function f =>
    cases h
    cases f <;> rfl
  | point | openParen | closeParen =>
    cases h
    rfl
  | clear | delete | toggleMode | cycleFocus | focus | commit => cases h

namespace Mode

variable {mode : Mode} {n : ℕ} {text piece : String}

theorem length_blank_le (mode : Mode) : mode.blank.length ≤ 1 := by
  cases mode <;> decide

theorem shortened_of_le (h : text.length ≤ n) : mode.shortened n text = mode.blank :=
  if_pos h

theorem shortened_of_lt (h : n < text.length) :
    mode.shortened n text = .ofList (text.toList.take (text.length - n)) :=
  if_neg (Nat.not_le.mpr h)

theorem length_shortened (mode : Mode) (h : n < text.length) : (mode.shortened n text).length = text.length - n := by
  rw [shortened_of_lt h, ← String.length_toList, String.toList_ofList, List.length_take, String.length_toList]
  omega

theorem shortened_zero (h : mode = .expression → text ≠ "") : mode.shortened 0 text = text := by
  by_cases hlength : text.length = 0
  · have htext : text = "" := String.length_eq_zero_iff.mp hlength
    subst htext
    cases mode with
    | expression => exact absurd rfl (h rfl)
    | equation => rfl
  · rw [shortened_of_lt (Nat.pos_of_ne_zero hlength), Nat.sub_zero, ← String.length_toList, List.take_length,
      String.ofList_toList]

/-- One deletion more takes one character more, as long as there is one. -/
theorem shortened_succ (mode : Mode) (n : ℕ) (text : String) :
    mode.shortened 1 (mode.shortened n text) = mode.shortened (n + 1) text := by
  rcases Nat.lt_or_ge n text.length with hlt | hle
  · have hlength := length_shortened mode hlt
    rcases Nat.lt_or_ge (n + 1) text.length with hlt' | hle'
    · rw [shortened_of_lt (by omega), hlength, shortened_of_lt hlt, shortened_of_lt hlt', String.toList_ofList,
        List.take_take]
      congr 2
      omega
    · rw [shortened_of_le hle', shortened_of_le (by omega)]
  · rw [shortened_of_le hle, shortened_of_le mode.length_blank_le, shortened_of_le (Nat.le_succ_of_le hle)]

theorem shortened_append (h : mode = .expression → text ≠ "") :
    mode.shortened piece.length (text ++ piece) = text := by
  have hlength : (text ++ piece).length = text.length + piece.length := by simp
  by_cases htext : text.length = 0
  · have hempty : text = "" := String.length_eq_zero_iff.mp htext
    subst hempty
    cases mode with
    | expression => exact absurd rfl (h rfl)
    | equation => exact shortened_of_le (by omega)
  · rw [shortened_of_lt (by omega), hlength, Nat.add_sub_cancel, String.toList_append, ← String.length_toList,
      List.take_left, String.ofList_toList]

end Mode

namespace Calculator

variable {c : Calculator} {key : Key} {piece : String} {n : ℕ}

theorem delete_eq_shortened (c : Calculator) : c.delete = c.setBuffer (c.mode.shortened 1 c.buffer) := by
  have hlength : c.buffer.toList.length = c.buffer.length := String.length_toList
  unfold delete
  extract_lets left
  congr 1
  rcases Nat.lt_or_ge 1 c.buffer.length with hlt | hle
  · have hleft : left = .ofList (c.buffer.toList.take (c.buffer.length - 1)) := by
      rw [← hlength, ← List.dropLast_eq_take]
    have hne : left ≠ "" := by
      intro h
      have hlength := Mode.length_shortened c.mode hlt
      rw [Mode.shortened_of_lt hlt, ← hleft, h, String.length_empty] at hlength
      omega
    rw [Mode.shortened_of_lt hlt, if_neg fun h => hne h.2, hleft]
  · have hleft : left = "" := by
      have hnil : c.buffer.toList.dropLast = [] := by
        rw [← List.length_eq_zero_iff, List.length_dropLast]
        omega
      exact congrArg String.ofList hnil
    rw [Mode.shortened_of_le hle, hleft]
    cases c.mode <;> rfl

/-- The law of deletions. -/
theorem foldl_delete (hc : c.mode = .expression → c.buffer ≠ "") (n : ℕ) :
    (List.replicate n Key.delete).foldl press c = c.setBuffer (c.mode.shortened n c.buffer) := by
  induction n with
  | zero => rw [Mode.shortened_zero hc, setBuffer_buffer, List.replicate_zero, List.foldl_nil]
  | succ n ih =>
    rw [List.replicate_succ', List.foldl_append, ih, List.foldl_cons, List.foldl_nil, press, delete_eq_shortened,
      setBuffer_setBuffer, mode_setBuffer, buffer_setBuffer, Mode.shortened_succ]

theorem handleAll_delete (hc : c.mode = .expression → c.buffer ≠ "") (n : ℕ) :
    c.handleAll (List.replicate n .delete) = .ok (c.setBuffer (c.mode.shortened n c.buffer)) := by
  have hevents : List.replicate n Event.delete = (List.replicate n Key.delete).map Key.event := by
    rw [List.map_replicate]
    rfl
  rw [hevents, handleAll_events, foldl_delete hc]

/-- What a key typed is cut off again by as many deletions as its piece has characters. A parenthesis in a coefficient
is left aside, since it types nothing there. -/
theorem shortened_typing (hc : c.mode = .expression → c.buffer ≠ "")
    (hparen : c.mode = .equation → key.isParen = false) :
    c.mode.shortened piece.length (c.typing key piece) = c.buffer := by
  cases hmode : c.mode with
  | expression =>
    rw [hmode] at hc
    rw [typing_expression hmode, ← buffer_expression hmode]
    split
    · rename_i h
      rw [Mode.shortened_of_le le_rfl, h.2]
      rfl
    · exact Mode.shortened_append hc
  | equation =>
    rw [typing_equation hmode, if_neg (by simp [hparen hmode])]
    exact Mode.shortened_append nofun

theorem typing_ne_empty (hmode : c.mode = .expression) (hpiece : key.piece? = some piece) :
    c.typing key piece ≠ "" := by
  have hne := Key.piece_ne_empty hpiece
  rw [typing_expression hmode]
  split
  · exact hne
  · simp [hne]

/-- Deletions undo a key that types, and leave everything else as it was. -/
theorem handleAll_delete_press (hc : c.mode = .expression → c.buffer ≠ "") (hpiece : key.piece? = some piece)
    (hparen : c.mode = .equation → key.isParen = false) :
    (c.press key).handleAll (List.replicate piece.length .delete) = .ok c := by
  rw [press_of_piece hpiece]
  have hmode := mode_setBuffer c (c.typing key piece)
  have hbuffer := buffer_setBuffer c (c.typing key piece)
  rw [handleAll_delete, hmode, hbuffer, shortened_typing hc hparen, setBuffer_setBuffer, setBuffer_buffer]
  intro h
  rw [hbuffer]
  exact typing_ne_empty (hmode.symm.trans h) hpiece

/-- Only the events of the parentheses stand for their keys. -/
theorem isParen_of_standsFor {event : Event} (h : event.StandsFor key) (hopen : event ≠ .openParen)
    (hclose : event ≠ .closeParen) : key.isParen = false := by
  have hkey := h .expression
  unfold Event.key at hkey
  cases event with
  | openParen => exact absurd rfl hopen
  | closeParen => exact absurd rfl hclose
  | digit | operator | function =>
    dsimp only at hkey
    split at hkey <;> cases hkey
    rfl
  | point | clear | delete | toggleMode | cycleFocus | commit =>
    cases hkey
    rfl
  | focus | unknown => cases hkey

/-- Deletions undo what was typed. In every state that events lead to, an accepted event that types, handled and then
followed by as many deletions as its piece has characters, leaves the state as it was, also where the piece took the
place of the placeholder. As many deletions as the buffer has characters, or more, leave the placeholder on the display
or an empty coefficient, and change nothing else. -/
theorem handleAll_typed_deleted (before : List Event) :
    let c := fresh.attendAll before
    (∀ event c' o, event.isInput = true → (c.mode = .equation → event ≠ .openParen ∧ event ≠ .closeParen) →
      c.handle event = .ok (c', o) →
        ∃ key piece, event.StandsFor key ∧ key.piece? = some piece ∧
          piece.length = key.width ∧
          c'.handleAll (List.replicate piece.length .delete) = .ok c) ∧
    ∀ n, c.buffer.length ≤ n →
      (c.mode = .expression → c.handleAll (List.replicate n .delete) = .ok { c with display := "0" }) ∧
      (c.mode = .equation →
        c.handleAll (List.replicate n .delete) =
          .ok { c with coefficients := c.coefficients.set c.active "" }) := by
  intro c
  have hc (hmode : c.mode = .expression) : c.buffer ≠ "" := by
    rw [buffer_expression hmode]
    exact (wellTyped_attendAll before).display_ne
  refine ⟨?_, fun n hn => ⟨fun hmode => ?_, fun hmode => ?_⟩⟩
  · intro event c' o hinput hparen hhandle
    rcases Event.exists_key_of_isInput hinput c.mode with ⟨e, he⟩ | ⟨key, hkey, hpiece⟩
    · unfold handle at hhandle
      rw [he] at hhandle
      cases hhandle
    obtain ⟨piece, hpiece⟩ := Option.isSome_iff_exists.mp hpiece
    obtain ⟨o', hpress⟩ := handle_of_standsFor hkey c
    obtain rfl : c.press key = c' := by
      rw [hpress] at hhandle
      cases hhandle
      rfl
    refine ⟨key, piece, hkey, hpiece, Key.length_piece hpiece, handleAll_delete_press hc hpiece fun hmode => ?_⟩
    exact isParen_of_standsFor hkey (hparen hmode).1 (hparen hmode).2
  · rw [handleAll_delete hc, Mode.shortened_of_le hn, setBuffer_expression hmode, hmode]
    rfl
  · rw [handleAll_delete hc, Mode.shortened_of_le hn, setBuffer_equation hmode, hmode]
    rfl

end Calculator

end TalkingCalculator
