import TalkingCalculator.Expression.Lexeme
import TalkingCalculator.Proofs.Decimal.Literal

/-!
# The lexical grammar

The scanner reads the lexemes of a text from left to right as far as there are any. It succeeds on the
texts that consist of lexemes, with the tokens of these, and otherwise fails at what follows the lexemes
read before.
-/
namespace TalkingCalculator

open Float.Model.UnpackedFloat

/-- The text consists of lexemes, which are read as the tokens, up to `rest`. A literal ends where its run of
digits and points does. -/
inductive Lexed (rest : List Char) : List Char → List Token → Prop
  | done : Lexed rest rest []
  | number {cs : List Char} {ts : List Token} {v : Float} (l : Literal) (hv : IsCorrectlyRounded l.value v)
      (hend : RunEnds cs) (h : Lexed rest cs ts) : Lexed rest (l.chars ++ cs) (.number v :: ts)
  | operator {c : Char} {op : Operator} {cs : List Char} {ts : List Token} (hop : Operator.ofChar? c = some op)
      (h : Lexed rest cs ts) : Lexed rest (c :: cs) (.operator op :: ts)
  | leftParen {cs : List Char} {ts : List Token} (h : Lexed rest cs ts) :
      Lexed rest ('(' :: cs) (.leftParen :: ts)
  | rightParen {cs : List Char} {ts : List Token} (h : Lexed rest cs ts) :
      Lexed rest (')' :: cs) (.rightParen :: ts)
  | function {cs : List Char} {ts : List Token} (f : Trig) (h : Lexed rest cs ts) :
      Lexed rest (f.opening.toList ++ cs) (.function f :: .leftParen :: ts)

/-- The text, which starts at position `k`, begins with no lexeme, and this is the error. -/
inductive Offends (k : ℕ) : List Char → LexicalError → Prop
  | unknown {c : Char} {cs : List Char} (hrun : ¬ RunChar c) (hop : Operator.ofChar? c = none)
      (hleft : c ≠ '(') (hright : c ≠ ')') (hname : ∀ f : Trig, ¬ f.name.toList <+: c :: cs) :
      Offends k (c :: cs) (.unknown c k)
  | nameWithoutParen {cs : List Char} (f : Trig) (hparen : cs.head? ≠ some '(') :
      Offends k (f.name.toList ++ cs) (.nameWithoutParen f k)
  | noDigits {cs : List Char} (hend : RunEnds cs) : Offends k ('.' :: cs) (.noDigits k)
  | secondPoint {cs : List Char} (whole fraction : List Char) (hwhole : ∀ c ∈ whole, c.isDigit = true)
      (hfraction : ∀ c ∈ fraction, c.isDigit = true) :
      Offends k (whole ++ '.' :: (fraction ++ '.' :: cs)) (.secondPoint (k + whole.length + 1 + fraction.length))

namespace Lexeme

variable {p : ℕ} {c : Char} {cs rest : List Char}

theorem run_iff : ((Text.asciiDigitValue? c).isSome || decide (c = '.')) = true ↔ RunChar c := by
  unfold RunChar
  cases hdigit : c.isDigit with
  | true => simp [asciiDigitValue?_of_isDigit hdigit]
  | false => simp [asciiDigitValue?_of_not_isDigit hdigit]

theorem first_of_runChar (hc : RunChar c) : first p c cs = number p (c :: cs) := by
  unfold first
  rw [if_pos (run_iff.mpr hc)]

theorem number_literal (l : Literal) (hrest : RunEnds rest) :
    ∃ h, number p (l.chars ++ rest) =
      .ok ⟨[.number (Binary.nearest .positive l.value)], l.chars.length, h⟩ := by
  have hpoint : (((l.chars ++ rest).drop l.chars.length).head? == some '.') = false := by
    rw [List.drop_left]
    cases rest with
    | nil => rfl
    | cons c cs =>
      have : c ≠ '.' := fun h => hrest c rfl (Or.inr h)
      simpa using this
  have hvalue : (l.numeral.decimal 0).toFloat = Binary.nearest .positive l.value := by
    rw [Decimal.toFloat_eq, l.value_numeral]
  unfold number
  simp only [l.leading_chars_append hrest, hpoint, hvalue, l.width_numeral, Bool.and_false, Bool.false_eq_true,
    if_false, dif_pos l.digitCount_numeral_pos]
  exact ⟨List.length_pos_iff.mpr l.chars_ne_nil, trivial⟩

theorem number_noDigits (hrest : RunEnds rest) : number p ('.' :: rest) = .error (.noDigits p) := by
  have hleading := @leading_append_point [] [] rest (by simp) (by simp) hrest.not_isDigit
  have hpoint : (rest.head? == some '.') = false := by
    rw [beq_eq_false_iff_ne]
    intro h
    exact hrest '.' h (Or.inr rfl)
  unfold number
  rw [List.nil_append, List.nil_append] at hleading
  simp only [hleading, List.map_nil, Numeral.width, Numeral.digitCount, List.length_nil]
  simp [hpoint]

theorem number_secondPoint {whole fraction : List Char} (hwhole : ∀ c ∈ whole, c.isDigit = true)
    (hfraction : ∀ c ∈ fraction, c.isDigit = true) :
    number p (whole ++ '.' :: (fraction ++ '.' :: rest)) =
      .error (.secondPoint (p + whole.length + 1 + fraction.length)) := by
  have hpoint : ∀ c ∈ ('.' :: rest).head?, c.isDigit = false := by
    intro c hc
    cases hc
    rfl
  have hdrop : (whole ++ '.' :: (fraction ++ '.' :: rest)).drop (whole.length + fraction.length + 1) =
      '.' :: rest := by
    rw [Nat.add_assoc, List.drop_length_add_append, List.drop_succ_cons, List.drop_left]
  unfold number
  simp only [leading_append_point hwhole hfraction hpoint, Numeral.width, Numeral.digitCount, List.length_map,
    if_true, hdrop, List.head?_cons, beq_self_eq_true, Bool.and_true]
  congr 2
  omega

theorem not_runChar_of_operator {op : Operator} (hop : Operator.ofChar? c = some op) : ¬ RunChar c := by
  unfold Operator.ofChar? at hop
  split at hop
  all_goals first
    | (cases hop; decide)
    | cases hop

theorem first_operator (p : ℕ) (cs : List Char) {op : Operator} (hop : Operator.ofChar? c = some op) :
    ∃ h, first p c cs = .ok ⟨[.operator op], 1, h⟩ := by
  unfold first
  rw [if_neg (mt run_iff.mp (not_runChar_of_operator hop)), hop]
  exact ⟨one_pos, rfl⟩

theorem first_leftParen (p : ℕ) (cs : List Char) : ∃ h, first p '(' cs = .ok ⟨[.leftParen], 1, h⟩ := by
  unfold first
  rw [if_neg (mt run_iff.mp (by decide))]
  exact ⟨one_pos, rfl⟩

theorem first_rightParen (p : ℕ) (cs : List Char) : ∃ h, first p ')' cs = .ok ⟨[.rightParen], 1, h⟩ := by
  unfold first
  rw [if_neg (mt run_iff.mp (by decide))]
  exact ⟨one_pos, rfl⟩

theorem name_unique {f g : Trig} (hf : f.name.toList <+: cs) (hg : g.name.toList <+: cs) : f = g := by
  have hlength : ∀ f : Trig, f.name.toList.length = 3 := by
    intro f
    cases f <;> rfl
  have heq : f.name.toList = g.name.toList :=
    (List.prefix_of_prefix_length_le hf hg (by rw [hlength, hlength])).eq_of_length (by rw [hlength, hlength])
  revert heq
  cases f <;> cases g <;> decide

theorem prefix_of_function? {f : Trig} (h : function? cs = some f) : f.name.toList <+: cs := by
  have := List.find?_some h
  exact List.isPrefixOf_iff_prefix.mp this

theorem function?_eq_none : function? cs = none ↔ ∀ f : Trig, ¬ f.name.toList <+: cs := by
  have hall : ∀ f : Trig, f ∈ Trig.all := by
    intro f
    cases f <;> decide
  unfold function?
  rw [List.find?_eq_none]
  simp only [List.isPrefixOf_iff_prefix]
  exact ⟨fun h f => h f (hall f), fun h f _ => h f⟩

theorem function?_of_prefix {f : Trig} (h : f.name.toList <+: cs) : function? cs = some f := by
  cases hfind : function? cs with
  | none => exact absurd h (function?_eq_none.mp hfind f)
  | some g => rw [name_unique h (prefix_of_function? hfind)]

theorem opening_toList (f : Trig) : f.opening.toList = f.name.toList ++ ['('] := by
  cases f <;> rfl

theorem name_cons (f : Trig) : ∃ c tail, f.name.toList = c :: tail ∧ ¬ RunChar c ∧ Operator.ofChar? c = none ∧
    c ≠ '(' ∧ c ≠ ')' := by
  cases f <;> exact ⟨_, _, rfl, by decide, rfl, by decide, by decide⟩

theorem first_function (f : Trig) (h : c :: cs = f.opening.toList ++ rest) :
    ∃ h, first p c cs = .ok ⟨[.function f, .leftParen], f.opening.toList.length, h⟩ := by
  obtain ⟨c', tail, hname, hrun, hop, hleft, hright⟩ := name_cons f
  have hc : c = c' := by
    rw [opening_toList, hname] at h
    exact (List.cons.inj h).1
  have hprefix : f.name.toList <+: c :: cs := by
    rw [h, opening_toList, List.append_assoc]
    exact List.prefix_append _ _
  have hopening : f.opening.toList.isPrefixOf (c :: cs) = true := by
    rw [h]
    exact List.isPrefixOf_iff_prefix.mpr (List.prefix_append _ _)
  have hwidth : f.opening.toList.length = f.name.length + 1 := by
    cases f <;> rfl
  subst hc
  unfold first
  rw [if_neg (mt run_iff.mp hrun)]
  simp only [hop, hleft, hright, if_false, function?_of_prefix hprefix, hopening, if_true, hwidth]
  exact ⟨Nat.succ_pos _, trivial⟩

end Lexeme

theorem exists_digits (cs : List Char) : ∃ ds rest, cs = ds ++ rest ∧ (∀ c ∈ ds, c.isDigit = true) ∧
    ∀ c ∈ rest.head?, c.isDigit = false := by
  obtain ⟨ds, rest, rfl, hds, hrest⟩ := Numeral.exists_run Text.asciiDigitValue? cs
  refine ⟨ds, rest, rfl, forall_isSome_iff.mp hds, fun c hc => ?_⟩
  rw [← isSome_asciiDigitValue?, hrest c hc, Option.isSome_none]

/-- A run of digits and points is a literal, a point alone, or has a second point. -/
theorem run_cases {c : Char} (cs : List Char) (hc : RunChar c) :
    (∃ (l : Literal) (rest : List Char), c :: cs = l.chars ++ rest ∧ RunEnds rest) ∨
      (c = '.' ∧ RunEnds cs) ∨
      ∃ whole fraction rest, (∀ c ∈ whole, c.isDigit = true) ∧ (∀ c ∈ fraction, c.isDigit = true) ∧
        c :: cs = whole ++ '.' :: (fraction ++ '.' :: rest) := by
  obtain ⟨whole, after, htext, hwhole, hafter⟩ := exists_digits (c :: cs)
  by_cases hpoint : after.head? = some '.'
  · obtain ⟨tail, rfl⟩ := List.head?_eq_some_iff.mp hpoint
    obtain ⟨fraction, rest, rfl, hfraction, hrest⟩ := exists_digits tail
    by_cases hsecond : rest.head? = some '.'
    · obtain ⟨rest, rfl⟩ := List.head?_eq_some_iff.mp hsecond
      exact Or.inr (Or.inr ⟨whole, fraction, rest, hwhole, hfraction, htext⟩)
    have hends := runEnds_of_head hrest hsecond
    by_cases hne : whole ++ fraction = []
    · obtain ⟨rfl, rfl⟩ := List.append_eq_nil_iff.mp hne
      obtain ⟨rfl, rfl⟩ := List.cons.inj htext
      exact Or.inr (Or.inl ⟨rfl, hends⟩)
    · let l : Literal := ⟨whole, some fraction, forall_isSome_iff.mpr hwhole, forall_isSome_iff.mpr hfraction, hne⟩
      refine Or.inl ⟨l, rest, ?_, hends⟩
      rw [htext]
      simp [l, Mantissa.chars]
  · have hends := runEnds_of_head hafter hpoint
    have hne : whole ≠ [] := by
      rintro rfl
      rw [List.nil_append] at htext
      exact hends c (by rw [← htext]; rfl) hc
    exact Or.inl ⟨⟨whole, none, forall_isSome_iff.mpr hwhole, by simp, by simpa using hne⟩, after, htext, hends⟩

namespace Lexeme

theorem first_of_offends {p : ℕ} {c : Char} {cs text : List Char} {e : LexicalError}
    (h : Offends p text e) (htext : text = c :: cs) : first p c cs = .error e := by
  cases h with
  | unknown hrun hop hleft hright hname =>
    obtain ⟨rfl, rfl⟩ := List.cons.inj htext
    unfold first
    rw [if_neg (mt run_iff.mp hrun)]
    simp [hop, hleft, hright, function?_eq_none.mpr hname]
  | @nameWithoutParen tail f hparen =>
    obtain ⟨c', tail', hname, hrun, hop, hleft, hright⟩ := name_cons f
    have hc : c' = c := by
      rw [hname] at htext
      exact (List.cons.inj htext).1
    have hfunction := function?_of_prefix (f := f) ⟨tail, htext⟩
    have hopening : ¬ f.opening.toList <+: c :: cs := by
      rintro ⟨rest, hrest⟩
      rw [← htext, opening_toList, List.append_assoc, List.append_cancel_left_eq] at hrest
      exact hparen (by rw [← hrest]; rfl)
    subst hc
    unfold first
    rw [if_neg (mt run_iff.mp hrun)]
    simp [hop, hleft, hright, hfunction, hopening]
  | noDigits hend =>
    obtain ⟨rfl, rfl⟩ := List.cons.inj htext
    rw [first_of_runChar (Or.inr rfl), number_noDigits hend]
  | secondPoint whole fraction hwhole hfraction =>
    have hrun : RunChar c := by
      cases whole with
      | nil => exact Or.inr (List.cons.inj htext).1.symm
      | cons d ds =>
        rw [← (List.cons.inj htext).1]
        exact Or.inl (hwhole d List.mem_cons_self)
    rw [first_of_runChar hrun, ← htext, number_secondPoint hwhole hfraction]

def Steps (p : ℕ) (c : Char) (cs : List Char) : Prop :=
  (∃ l w rest, first p c cs = .ok l ∧ c :: cs = w ++ rest ∧ l.width = w.length ∧ Lexed rest (c :: cs) l.tokens) ∨
    ∃ e, first p c cs = .error e ∧ Offends p (c :: cs) e

theorem steps_of_offends {p : ℕ} {c : Char} {cs : List Char} {e : LexicalError} (h : Offends p (c :: cs) e) :
    Steps p c cs :=
  Or.inr ⟨e, first_of_offends h rfl, h⟩

theorem steps_of_runChar (p : ℕ) {c : Char} (cs : List Char) (hc : RunChar c) : Steps p c cs := by
  rcases run_cases cs hc with ⟨l, rest, htext, hends⟩ | ⟨rfl, hends⟩ | ⟨w, f, rest, hw, hf, htext⟩
  · obtain ⟨hpos, hnumber⟩ := number_literal (p := p) l hends
    have hlexed : Lexed rest (c :: cs) [.number (Binary.nearest .positive l.value)] := by
      rw [htext]
      exact .number l (Binary.isCorrectlyRounded_nearest l.value_nonneg) hends .done
    rw [← htext, ← first_of_runChar hc] at hnumber
    exact Or.inl ⟨_, _, rest, hnumber, htext, rfl, hlexed⟩
  · exact steps_of_offends (.noDigits hends)
  · refine steps_of_offends (e := .secondPoint (p + w.length + 1 + f.length)) ?_
    rw [htext]
    exact .secondPoint w f hw hf

theorem steps_of_function? (p : ℕ) {c : Char} {cs : List Char} {f : Trig} (h : function? (c :: cs) = some f) :
    Steps p c cs := by
  obtain ⟨tail, htail⟩ := prefix_of_function? h
  by_cases hparen : tail.head? = some '('
  · obtain ⟨rest, rfl⟩ := List.head?_eq_some_iff.mp hparen
    have htext : c :: cs = f.opening.toList ++ rest := by
      rw [← htail, opening_toList]
      simp
    obtain ⟨hpos, hfirst⟩ := first_function (p := p) f htext
    refine Or.inl ⟨_, _, rest, hfirst, htext, rfl, ?_⟩
    rw [htext]
    exact .function f .done
  · refine steps_of_offends (e := .nameWithoutParen f p) ?_
    rw [← htail]
    exact .nameWithoutParen f hparen

theorem steps (p : ℕ) (c : Char) (cs : List Char) : Steps p c cs := by
  by_cases hc : RunChar c
  · exact steps_of_runChar p cs hc
  cases hop : Operator.ofChar? c with
  | some op =>
    obtain ⟨hpos, hfirst⟩ := first_operator p cs hop
    exact Or.inl ⟨_, [c], cs, hfirst, rfl, rfl, .operator hop .done⟩
  | none =>
    by_cases hleft : c = '('
    · subst hleft
      obtain ⟨hpos, hfirst⟩ := first_leftParen p cs
      exact Or.inl ⟨_, ['('], cs, hfirst, rfl, rfl, .leftParen .done⟩
    by_cases hright : c = ')'
    · subst hright
      obtain ⟨hpos, hfirst⟩ := first_rightParen p cs
      exact Or.inl ⟨_, [')'], cs, hfirst, rfl, rfl, .rightParen .done⟩
    cases hname : function? (c :: cs) with
    | none => exact steps_of_offends (.unknown hc hop hleft hright (function?_eq_none.mp hname))
    | some f => exact steps_of_function? p hname

end Lexeme

theorem Lexed.trans {middle rest text : List Char} {ts us : List Token} (h : Lexed middle text ts)
    (h' : Lexed rest middle us) : Lexed rest text (ts ++ us) := by
  induction h with
  | done => exact h'
  | number l hv hend _ ih => exact .number l hv hend ih
  | operator hop _ ih => exact .operator hop ih
  | leftParen _ ih => exact .leftParen ih
  | rightParen _ ih => exact .rightParen ih
  | function f _ ih => exact .function f ih

namespace Lexed

variable {rest text : List Char} {ts : List Token}

theorem eq_of_nil (h : Lexed rest text []) : text = rest := by
  generalize hus : ([] : List Token) = us at h
  cases h with
  | done => rfl
  | number | operator | leftParen | rightParen | function => cases hus

theorem exists_literal {v : Float} (h : Lexed rest text (.number v :: ts)) :
    ∃ (l : Literal) (cs : List Char), text = l.chars ++ cs ∧ IsCorrectlyRounded l.value v ∧ RunEnds cs ∧
      Lexed rest cs ts := by
  generalize hus : Token.number v :: ts = us at h
  cases h with
  | number l hv hend h =>
    cases hus
    exact ⟨l, _, rfl, hv, hend, h⟩
  | done | operator | leftParen | rightParen | function => cases hus

theorem exists_leftParen (h : Lexed rest text (.leftParen :: ts)) : ∃ cs, text = '(' :: cs ∧ Lexed rest cs ts := by
  generalize hus : Token.leftParen :: ts = us at h
  cases h with
  | leftParen h =>
    cases hus
    exact ⟨_, rfl, h⟩
  | done | number | operator | rightParen | function => cases hus

/-- What begins with a number goes on with a run. -/
theorem not_runEnds {v : Float} (h : Lexed rest text (.number v :: ts)) : ¬ RunEnds text := by
  obtain ⟨l, cs, rfl, -⟩ := h.exists_literal
  intro hend
  obtain ⟨c, chars, hchars⟩ := List.exists_cons_of_ne_nil l.chars_ne_nil
  refine hend c ?_ (l.runChar_of_mem (hchars ▸ List.mem_cons_self))
  rw [hchars]
  rfl

end Lexed

/-- What was read before `rest` is read in the same way before anything that does not go on with a run. -/
theorem Lexed.resume {rest text : List Char} {ts : List Token} (h : Lexed rest text ts) :
    ∃ w, text = w ++ rest ∧ ∀ rest', (RunEnds rest → RunEnds rest') → Lexed rest' (w ++ rest') ts := by
  induction h with
  | done => exact ⟨[], rfl, fun _ _ => .done⟩
  | @number cs ts v l hv hend _ ih =>
    obtain ⟨w, rfl, hw⟩ := ih
    refine ⟨l.chars ++ w, by rw [List.append_assoc], fun rest' hrest => ?_⟩
    rw [List.append_assoc]
    refine .number l hv ?_ (hw rest' hrest)
    cases w with
    | nil => exact hrest hend
    | cons c w => exact hend
  | @operator c op cs ts hop _ ih =>
    obtain ⟨w, rfl, hw⟩ := ih
    exact ⟨c :: w, rfl, fun rest' hrest => .operator hop (hw rest' hrest)⟩
  | leftParen _ ih =>
    obtain ⟨w, rfl, hw⟩ := ih
    exact ⟨'(' :: w, rfl, fun rest' hrest => .leftParen (hw rest' hrest)⟩
  | rightParen _ ih =>
    obtain ⟨w, rfl, hw⟩ := ih
    exact ⟨')' :: w, rfl, fun rest' hrest => .rightParen (hw rest' hrest)⟩
  | function f _ ih =>
    obtain ⟨w, rfl, hw⟩ := ih
    refine ⟨f.opening.toList ++ w, by rw [List.append_assoc], fun rest' hrest => ?_⟩
    rw [List.append_assoc]
    exact .function f (hw rest' hrest)

theorem Lexed.length_le {rest text : List Char} {ts : List Token} (h : Lexed rest text ts) :
    rest.length ≤ text.length := by
  obtain ⟨w, rfl, -⟩ := h.resume
  rw [List.length_append]
  omega

namespace Offends

variable {k : ℕ} {rest : List Char} {e : LexicalError}

theorem ne_nil (h : Offends k rest e) : rest ≠ [] := by
  cases h with
  | unknown => exact List.cons_ne_nil _ _
  | nameWithoutParen f => cases f <;> exact List.cons_ne_nil _ _
  | noDigits => exact List.cons_ne_nil _ _
  | secondPoint whole => simp

theorem le_position (h : Offends k rest e) : k ≤ e.position := by
  cases h <;> simp only [LexicalError.position] <;> omega

theorem position_lt (h : Offends k rest e) : e.position < k + rest.length := by
  have hpos := List.length_pos_iff.mpr h.ne_nil
  cases h with
  | secondPoint whole fraction hwhole hfraction =>
    simp only [LexicalError.position, List.length_append, List.length_cons]
    omega
  | _ => simp only [LexicalError.position]; omega

/-- The text up to the offence goes on to a text of lexemes. -/
theorem exists_lexed (h : Offends k rest e) :
    ∃ u ts, rest.take (e.position - k) <+: u ∧ (RunEnds rest → RunEnds u) ∧ Lexed [] u ts := by
  cases h with
  | secondPoint whole fraction hwhole hfraction =>
    have hdigits : ∀ c ∈ fraction ++ ['0'], c.isDigit = true := by
      intro c hc
      rcases List.mem_append.mp hc with hc | hc
      · exact hfraction c hc
      · rw [List.mem_singleton.mp hc]
        rfl
    let l : Literal :=
      ⟨whole, some (fraction ++ ['0']), forall_isSome_iff.mpr hwhole, forall_isSome_iff.mpr hdigits, by simp⟩
    refine ⟨l.chars ++ [], _, ?_, fun hrun => ?_,
      .number l (Binary.isCorrectlyRounded_nearest l.value_nonneg) runEnds_nil .done⟩
    · have hposition : k + whole.length + 1 + fraction.length - k = whole.length + (fraction.length + 1) := by
        omega
      simp only [LexicalError.position, hposition]
      rw [List.take_length_add_append, List.take_succ_cons, List.take_left, List.append_nil]
      exact ⟨['0'], by simp [l, Mantissa.chars]⟩
    · cases whole with
      | nil => exact hrun
      | cons c cs => exact hrun
  | _ => exact ⟨[], [], by simp [LexicalError.position], fun _ => runEnds_nil, .done⟩

end Offends

namespace Token

variable {p : ℕ} {c : Char} {cs text rest : List Char} {ts : List Token}

theorem scan_of_first {l : Lexeme} (h : Lexeme.first p c cs = .ok l) :
    scan p (c :: cs) = (scan (p + l.width) ((c :: cs).drop l.width)).map (l.tokens ++ ·) := by
  rw [scan, h]
  cases hscan : scan (p + l.width) ((c :: cs).drop l.width) with
  | error e => simp [hscan, Except.map]
  | ok ts => simp [hscan, Except.map]

/-- One lexeme takes its characters and gives its tokens. -/
theorem scan_append {w : List Char} {us : List Token} (hw : w ++ rest = c :: cs)
    (h : ∃ h, Lexeme.first p c cs = .ok ⟨us, w.length, h⟩) :
    scan p (w ++ rest) = (scan (p + w.length) rest).map (us ++ ·) := by
  obtain ⟨hpos, hfirst⟩ := h
  rw [hw, scan_of_first hfirst, ← hw, List.drop_left]

theorem scan_char {us : List Token} (h : ∃ h, Lexeme.first p c cs = .ok ⟨us, 1, h⟩) :
    scan p (c :: cs) = (scan (p + 1) cs).map (us ++ ·) :=
  scan_append (w := [c]) rfl h

theorem scan_literal (l : Literal) (hrest : RunEnds rest) :
    scan p (l.chars ++ rest) =
      (scan (p + l.chars.length) rest).map (.number (Binary.nearest .positive l.value) :: ·) := by
  cases hchars : l.chars with
  | nil => exact absurd hchars l.chars_ne_nil
  | cons c cs =>
    have hc : RunChar c := l.runChar_of_mem (by rw [hchars]; exact List.mem_cons_self)
    have hfirst := Lexeme.number_literal (p := p) l hrest
    rw [hchars, List.cons_append, ← Lexeme.first_of_runChar hc] at hfirst
    rw [scan_append rfl hfirst]
    rfl

theorem map_map {f g : List Token → List Token} (x : Except LexicalError (List Token)) :
    (x.map f).map g = x.map (g ∘ f) := by
  cases x <;> rfl

/-- Lexemes are scanned in their order, up to where they end. -/
theorem scan_of_lexed (h : Lexed rest text ts) {q : ℕ} (hq : p + text.length = q + rest.length) :
    scan p text = (scan q rest).map (ts ++ ·) := by
  induction h generalizing p with
  | done =>
    have : p = q := by omega
    subst this
    cases scan p rest <;> rfl
  | @number cs ts v l hv hend h ih =>
    rw [List.length_append] at hq
    rw [scan_literal l hend, ih (by omega), map_map, Binary.eq_nearest_of_isCorrectlyRounded l.value_nonneg hv]
    rfl
  | @operator c op cs ts hop h ih =>
    rw [List.length_cons] at hq
    rw [scan_char (Lexeme.first_operator p cs hop), ih (by omega), map_map]
    rfl
  | @leftParen cs ts h ih =>
    rw [List.length_cons] at hq
    rw [scan_char (Lexeme.first_leftParen p cs), ih (by omega), map_map]
    rfl
  | @rightParen cs ts h ih =>
    rw [List.length_cons] at hq
    rw [scan_char (Lexeme.first_rightParen p cs), ih (by omega), map_map]
    rfl
  | @function cs ts f h ih =>
    rw [List.length_append] at hq
    obtain ⟨c, tail, hname, -⟩ := Lexeme.name_cons f
    have hcons : f.opening.toList ++ cs = c :: (tail ++ '(' :: cs) := by
      rw [Lexeme.opening_toList, hname]
      simp
    rw [scan_append hcons (Lexeme.first_function f hcons.symm), ih (by omega), map_map]
    rfl

/-- The scanner reads the lexemes of a text to its end or to an offence. -/
theorem scan_cases (p : ℕ) (text : List Char) :
    (∃ ts, scan p text = .ok ts ∧ Lexed [] text ts) ∨
      ∃ e q rest ts, scan p text = .error e ∧ p + text.length = q + rest.length ∧ Lexed rest text ts ∧
        Offends q rest e := by
  induction hn : text.length using Nat.strong_induction_on generalizing p text with
  | _ n ih =>
    cases text with
    | nil => exact Or.inl ⟨[], by rw [scan], .done⟩
    | cons c cs =>
      rcases Lexeme.steps p c cs with ⟨l, w, after, hfirst, htext, hwidth, hlexed⟩ | ⟨e, hfirst, hoffends⟩
      · have hlength : n = w.length + after.length := by rw [← hn, htext, List.length_append]
        have hpos := l.width_pos
        rw [scan_of_first hfirst]
        rw [htext] at hlexed ⊢
        rw [hwidth, List.drop_left]
        rcases ih after.length (by omega) (p + w.length) after rfl with
          ⟨ts, hscan, hts⟩ | ⟨e, q, rest, ts, hscan, hq, hts, hoffends⟩
        · exact Or.inl ⟨_, by rw [hscan]; rfl, hlexed.trans hts⟩
        · exact Or.inr ⟨e, q, rest, _, by rw [hscan]; rfl, by omega, hlexed.trans hts, hoffends⟩
      · refine Or.inr ⟨e, p, c :: cs, [], ?_, by omega, .done, hoffends⟩
        rw [scan, hfirst]

theorem scan_of_offends {p : ℕ} {text : List Char} {e : LexicalError} (h : Offends p text e) :
    scan p text = .error e := by
  cases htext : text with
  | nil => exact absurd htext h.ne_nil
  | cons c cs => rw [scan, Lexeme.first_of_offends h htext]

end Token

theorem tokenize_eq_ok_iff (text : String) (ts : List Token) :
    tokenize text = .ok ts ↔ Lexed [] text.toList ts := by
  unfold tokenize
  constructor
  · intro h
    rcases Token.scan_cases 0 text.toList with ⟨us, hscan, hlexed⟩ | ⟨e, q, rest, us, hscan, -⟩
    · rw [h] at hscan
      cases hscan
      exact hlexed
    · rw [h] at hscan
      cases hscan
  · intro h
    rw [Token.scan_of_lexed h rfl, Token.scan]
    simp [Except.map]

theorem tokenize_eq_error_iff (text : String) (e : LexicalError) :
    tokenize text = .error e ↔
      ∃ rest ts, Lexed rest text.toList ts ∧ Offends (text.length - rest.length) rest e := by
  unfold tokenize
  rw [← String.length_toList]
  constructor
  · intro h
    rcases Token.scan_cases 0 text.toList with ⟨us, hscan, -⟩ | ⟨e', q, rest, us, hscan, hq, hlexed, hoffends⟩
    · rw [h] at hscan
      cases hscan
    · rw [h] at hscan
      cases hscan
      refine ⟨rest, us, hlexed, ?_⟩
      rwa [show text.toList.length - rest.length = q by omega]
  · rintro ⟨rest, ts, hlexed, hoffends⟩
    have hle := hlexed.length_le
    rw [Token.scan_of_lexed hlexed (q := text.toList.length - rest.length) (by omega),
      Token.scan_of_offends hoffends]
    rfl

/-- A text has tokens exactly if it consists of lexemes, and they are those of the lexemes. Otherwise the
error is at what follows the lexemes read before, and the text up to its position could still go on to a
text that has tokens. -/
theorem tokenize_recognises (text : String) :
    (∀ ts, tokenize text = .ok ts ↔ Lexed [] text.toList ts) ∧
      (∀ e, tokenize text = .error e ↔
        ∃ rest ts, Lexed rest text.toList ts ∧ Offends (text.length - rest.length) rest e) ∧
      ∀ e, tokenize text = .error e → e.position < text.length ∧
        ∃ (u : String) (ts : List Token), text.toList.take e.position <+: u.toList ∧ tokenize u = .ok ts := by
  refine ⟨tokenize_eq_ok_iff text, tokenize_eq_error_iff text, fun e he => ?_⟩
  obtain ⟨rest, ts, hlexed, hoffends⟩ := (tokenize_eq_error_iff text e).mp he
  obtain ⟨w, htext, hresume⟩ := hlexed.resume
  have hlength : text.length = w.length + rest.length := by
    rw [← String.length_toList, htext, List.length_append]
  rw [show text.length - rest.length = w.length by omega] at hoffends
  refine ⟨by rw [hlength]; exact hoffends.position_lt, ?_⟩
  obtain ⟨u, us, hprefix, hrun, hu⟩ := hoffends.exists_lexed
  refine ⟨String.ofList (w ++ u), ts ++ us, ?_, ?_⟩
  · have hposition : e.position = w.length + (e.position - w.length) := by
      have := hoffends.le_position
      omega
    rw [htext, hposition, List.take_length_add_append, String.toList_ofList, List.prefix_append_right_inj]
    exact hprefix
  · rw [tokenize_eq_ok_iff, String.toList_ofList]
    exact (hresume u hrun).trans hu

end TalkingCalculator
