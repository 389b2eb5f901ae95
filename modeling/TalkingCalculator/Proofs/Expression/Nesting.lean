import TalkingCalculator.Proofs.Expression.Grammar
import TalkingCalculator.Proofs.Expression.Lexing

/-!
# Nesting

How deep the parentheses of a text nest is counted character by character. For a text of an expression it is the
depth of its derivation.
-/
namespace TalkingCalculator

def parenthesis? : Char → Option Bool
  | '(' => some true
  | ')' => some false
  | _ => none

/-- The most parentheses that are open at once when `k` are open before. -/
def deepest (k : ℕ) : List Bool → ℕ
  | [] => k
  | true :: ps => max k (deepest (k + 1) ps)
  | false :: ps => max k (deepest (k - 1) ps)

def nesting (text : String) : ℕ :=
  deepest 0 (text.toList.filterMap parenthesis?)

theorem le_deepest (k : ℕ) (ps : List Bool) : k ≤ deepest k ps := by
  cases ps with
  | nil => exact le_rfl
  | cons opens ps => cases opens <;> exact le_max_left _ _

def Token.parenthesis? : Token → Option Bool
  | .leftParen => some true
  | .rightParen => some false
  | _ => none

theorem parenthesis?_of_runChar {c : Char} (hc : RunChar c) : parenthesis? c = none := by
  unfold parenthesis?
  split
  · exact absurd hc (by decide)
  · exact absurd hc (by decide)
  · rfl

theorem parenthesis?_of_operator {c : Char} {op : Operator} (hop : Operator.ofChar? c = some op) :
    parenthesis? c = none := by
  unfold parenthesis?
  split
  · cases hop
  · cases hop
  · rfl

/-- A text and its tokens have the same parentheses. -/
theorem Lexed.filterMap_parenthesis? {text : List Char} {ts : List Token} (h : Lexed [] text ts) :
    text.filterMap parenthesis? = ts.filterMap Token.parenthesis? := by
  induction h with
  | done => rfl
  | number l hv hend _ ih =>
    have hnone : l.chars.filterMap parenthesis? = [] :=
      List.filterMap_eq_nil_iff.mpr fun c hc => parenthesis?_of_runChar (l.runChar_of_mem hc)
    rw [List.filterMap_append, hnone, ih]
    rfl
  | operator hop _ ih =>
    rw [List.filterMap_cons_none (parenthesis?_of_operator hop), ih]
    rfl
  | leftParen _ ih => exact congrArg (true :: ·) ih
  | rightParen _ ih => exact congrArg (false :: ·) ih
  | function f _ ih =>
    rw [List.filterMap_append, ih]
    cases f <;> rfl

namespace Grammar

/-- The parentheses of the tokens are balanced: they open no more than `d` at once, and close what they open. -/
def Nests (ts : List Token) (d : ℕ) : Prop :=
  ∀ k ps, deepest k (ts.filterMap Token.parenthesis? ++ ps) = max (k + d) (deepest k ps)

namespace Nests

variable {ts us : List Token} {d e : ℕ}

theorem nil : Nests [] 0 :=
  fun k ps => (max_eq_right (le_deepest k ps)).symm

theorem append (ht : Nests ts d) (hu : Nests us e) : Nests (ts ++ us) (max d e) := by
  intro k ps
  rw [List.filterMap_append, List.append_assoc, ht, hu]
  omega

theorem cons_of_none {t : Token} (hnone : t.parenthesis? = none) (ht : Nests ts d) : Nests (t :: ts) d := by
  intro k ps
  rw [List.filterMap_cons_none hnone]
  exact ht k ps

theorem paren (ht : Nests ts d) : Nests (.leftParen :: (ts ++ [.rightParen])) (d + 1) := by
  intro k ps
  have hclose := ht (k + 1) (false :: ps)
  simp only [deepest, Nat.add_sub_cancel] at hclose
  have htokens : (Token.leftParen :: (ts ++ [.rightParen])).filterMap Token.parenthesis? ++ ps =
      true :: (ts.filterMap Token.parenthesis? ++ false :: ps) := by
    simp [Token.parenthesis?]
  rw [htokens, deepest, hclose]
  have := le_deepest k ps
  omega

end Nests

mutual

theorem Sum.nests : ∀ s : Sum, Nests s.tokens s.depth
  | .mk p a => (Product.nests p).append (Addends.nests a)
termination_by structural s => s

theorem Addends.nests : ∀ a : Addends, Nests a.tokens a.depth
  | .nil => .nil
  | .add p a => .cons_of_none rfl ((Product.nests p).append (Addends.nests a))
  | .subtract p a => .cons_of_none rfl ((Product.nests p).append (Addends.nests a))
termination_by structural a => a

theorem Product.nests {signed : Bool} : ∀ p : Product signed, Nests p.tokens p.depth
  | .mk o m => (Operand.nests o).append (Multipliers.nests m)
termination_by structural p => p

theorem Multipliers.nests : ∀ m : Multipliers, Nests m.tokens m.depth
  | .nil => .nil
  | .multiply o m => .cons_of_none rfl ((Operand.nests o).append (Multipliers.nests m))
  | .divide o m => .cons_of_none rfl ((Operand.nests o).append (Multipliers.nests m))
termination_by structural m => m

theorem Operand.nests {signed : Bool} : ∀ o : Operand signed, Nests o.tokens o.depth
  | .plain f => Factor.nests f
  | .negated f => .cons_of_none rfl (Factor.nests f)
termination_by structural o => o

theorem Factor.nests : ∀ f : Factor, Nests f.tokens f.depth
  | .number _ => .cons_of_none rfl .nil
  | .paren s => (Sum.nests s).paren
  | .call _ s => .cons_of_none rfl (Sum.nests s).paren
termination_by structural f => f

end

end Grammar

/-- The parentheses of the text of an expression nest as deep as its derivation. -/
theorem nesting_eq_depth {text : String} (s : Grammar.Sum) (h : Lexed [] text.toList s.tokens) :
    nesting text = s.depth := by
  have hnests := s.nests 0 []
  rw [List.append_nil, Nat.zero_add] at hnests
  rw [nesting, h.filterMap_parenthesis?, hnests]
  exact max_eq_left (Nat.zero_le _)

end TalkingCalculator
