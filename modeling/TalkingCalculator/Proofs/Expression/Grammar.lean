import TalkingCalculator.Expression.Evaluation

/-!
# The grammar of expressions

A derivation is a tree. A sum is a product followed by products that are added or taken away, a product is an
operand followed by operands that it is multiplied with or divided by, and an operand is a factor that may have
a minus before it. The index of a product or an operand tells whether a minus may stand at its start: it may not
in a product that is taken away.

`tokens` is the row of tokens that a tree derives, `depth` the number of parentheses that are open at once, and
`value` what the tree evaluates to from left to right. No row of tokens has two derivations.
-/

namespace TalkingCalculator.Grammar

mutual

inductive Sum : Type where
  | mk (first : Product true) (rest : Addends)

inductive Addends : Type where
  | nil
  | add (p : Product true) (rest : Addends)
  | subtract (p : Product false) (rest : Addends)

inductive Product : Bool → Type where
  | mk {signed : Bool} (first : Operand signed) (rest : Multipliers) : Product signed

inductive Multipliers : Type where
  | nil
  | multiply (o : Operand true) (rest : Multipliers)
  | divide (o : Operand true) (rest : Multipliers)

inductive Operand : Bool → Type where
  | plain {signed : Bool} (f : Factor) : Operand signed
  | negated (f : Factor) : Operand true

inductive Factor : Type where
  | number (v : Float)
  | paren (s : Sum)
  | call (f : Trig) (s : Sum)

end

mutual

def Sum.tokens : Sum → List Token
  | .mk p rest => p.tokens ++ rest.tokens

def Addends.tokens : Addends → List Token
  | .nil => []
  | .add p rest => .operator .add :: (p.tokens ++ rest.tokens)
  | .subtract p rest => .operator .subtract :: (p.tokens ++ rest.tokens)

def Product.tokens {signed : Bool} : Product signed → List Token
  | .mk o rest => o.tokens ++ rest.tokens

def Multipliers.tokens : Multipliers → List Token
  | .nil => []
  | .multiply o rest => .operator .multiply :: (o.tokens ++ rest.tokens)
  | .divide o rest => .operator .divide :: (o.tokens ++ rest.tokens)

def Operand.tokens {signed : Bool} : Operand signed → List Token
  | .plain f => f.tokens
  | .negated f => .operator .subtract :: f.tokens

def Factor.tokens : Factor → List Token
  | .number v => [.number v]
  | .paren s => .leftParen :: (s.tokens ++ [.rightParen])
  | .call f s => .function f :: .leftParen :: (s.tokens ++ [.rightParen])

end

mutual

def Sum.depth : Sum → Nat
  | .mk p rest => max p.depth rest.depth

def Addends.depth : Addends → Nat
  | .nil => 0
  | .add p rest => max p.depth rest.depth
  | .subtract p rest => max p.depth rest.depth

def Product.depth {signed : Bool} : Product signed → Nat
  | .mk o rest => max o.depth rest.depth

def Multipliers.depth : Multipliers → Nat
  | .nil => 0
  | .multiply o rest => max o.depth rest.depth
  | .divide o rest => max o.depth rest.depth

def Operand.depth {signed : Bool} : Operand signed → Nat
  | .plain f => f.depth
  | .negated f => f.depth

def Factor.depth : Factor → Nat
  | .number _ => 0
  | .paren s => s.depth + 1
  | .call _ s => s.depth + 1

end

mutual

def Sum.value : Sum → Except EvaluationError Float
  | .mk p rest => do
    let v ← p.value
    rest.value v

/-- What a sum that has come to `v` ends as. -/
def Addends.value : Addends → Float → Except EvaluationError Float
  | .nil, v => .ok v
  | .add p rest, v => do
    let x ← p.value
    rest.value (v + x)
  | .subtract p rest, v => do
    let x ← p.value
    rest.value (v - x)

def Product.value {signed : Bool} : Product signed → Except EvaluationError Float
  | .mk o rest => do
    let v ← o.value
    rest.value v

def Multipliers.value : Multipliers → Float → Except EvaluationError Float
  | .nil, v => .ok v
  | .multiply o rest, v => do
    let x ← o.value
    rest.value (v * x)
  | .divide o rest, v => do
    let x ← o.value
    let q ← quotient v x
    rest.value q

def Operand.value {signed : Bool} : Operand signed → Except EvaluationError Float
  | .plain f => f.value
  | .negated f => do
    let v ← f.value
    .ok (-v)

def Factor.value : Factor → Except EvaluationError Float
  | .number v => .ok v
  | .paren s => s.value
  | .call f s => do
    let v ← s.value
    f.apply v

end

def ProductEnds (ts : List Token) : Prop :=
  ts.head? ≠ some (.operator .multiply) ∧ ts.head? ≠ some (.operator .divide)

def SumEnds (ts : List Token) : Prop :=
  ∀ op, ts.head? ≠ some (.operator op)

theorem ProductEnds.ne_multiply {ts us : List Token} (h : ProductEnds ts) :
    ts ≠ .operator .multiply :: us := by
  rintro rfl
  exact h.1 rfl

theorem ProductEnds.ne_divide {ts us : List Token} (h : ProductEnds ts) :
    ts ≠ .operator .divide :: us := by
  rintro rfl
  exact h.2 rfl

theorem SumEnds.ne_operator {ts us : List Token} (h : SumEnds ts) (op : Operator) :
    ts ≠ .operator op :: us := by
  rintro rfl
  exact h op rfl

theorem SumEnds.productEnds {ts : List Token} (h : SumEnds ts) : ProductEnds ts :=
  ⟨h .multiply, h .divide⟩

theorem sumEnds_nil : SumEnds [] := by
  intro op
  simp

theorem sumEnds_rightParen (ts : List Token) : SumEnds (.rightParen :: ts) := by
  intro op
  simp

theorem Addends.productEnds (a : Addends) {ts : List Token} (h : SumEnds ts) :
    ProductEnds (a.tokens ++ ts) := by
  cases a with
  | nil => exact h.productEnds
  | add p rest => simp [tokens, ProductEnds]
  | subtract p rest => simp [tokens, ProductEnds]

/-- A factor begins with no operator, so a minus in front of it is never its own. -/
theorem Factor.tokens_ne_operator (f : Factor) (op : Operator) (ts us : List Token) :
    f.tokens ++ ts ≠ .operator op :: us := by
  cases f <;> simp [tokens]

theorem Factor.tokens_ne_rightParen (f : Factor) (ts us : List Token) :
    f.tokens ++ ts ≠ .rightParen :: us := by
  cases f <;> simp [tokens]

theorem Operand.tokens_ne_rightParen {signed : Bool} (o : Operand signed) (ts us : List Token) :
    o.tokens ++ ts ≠ .rightParen :: us := by
  cases o with
  | plain f => exact f.tokens_ne_rightParen ts us
  | negated f => simp [tokens]

/-- A sum does not begin with a closing parenthesis, so that empty parentheses hold no sum. -/
theorem Sum.tokens_ne_rightParen (s : Sum) (ts us : List Token) :
    s.tokens ++ ts ≠ .rightParen :: us := by
  obtain ⟨⟨o, m⟩, a⟩ := s
  simp only [tokens, Product.tokens, List.append_assoc]
  exact o.tokens_ne_rightParen _ us

theorem Sum.head?_ne_rightParen (s : Sum) (ts : List Token) : (s.tokens ++ ts).head? ≠ some .rightParen := by
  intro h
  obtain ⟨us, hus⟩ := List.head?_eq_some_iff.mp h
  exact s.tokens_ne_rightParen ts us hus

mutual

theorem Sum.tokens_append_inj : ∀ (s t : Sum) {ts us : List Token}, SumEnds ts → SumEnds us →
    s.tokens ++ ts = t.tokens ++ us → s = t ∧ ts = us
  | .mk p a, .mk q b, ts, us, hts, hus, h => by
    simp only [Sum.tokens, List.append_assoc] at h
    obtain ⟨rfl, hrest⟩ := Product.tokens_append_inj p q (a.productEnds hts) (b.productEnds hus) h
    obtain ⟨rfl, hend⟩ := Addends.tokens_append_inj a b hts hus hrest
    exact ⟨rfl, hend⟩
termination_by structural s => s

theorem Addends.tokens_append_inj : ∀ (a b : Addends) {ts us : List Token}, SumEnds ts →
    SumEnds us → a.tokens ++ ts = b.tokens ++ us → a = b ∧ ts = us
  | .nil, .nil, ts, us, _, _, h => ⟨rfl, h⟩
  | .nil, .add q b, ts, us, hts, _, h => (hts.ne_operator .add h).elim
  | .nil, .subtract q b, ts, us, hts, _, h => (hts.ne_operator .subtract h).elim
  | .add p a, .nil, ts, us, _, hus, h => (hus.ne_operator .add h.symm).elim
  | .subtract p a, .nil, ts, us, _, hus, h => (hus.ne_operator .subtract h.symm).elim
  | .add p a, .add q b, ts, us, hts, hus, h => by
    simp only [Addends.tokens, List.cons_append, List.append_assoc, List.cons.injEq, true_and] at h
    obtain ⟨rfl, hrest⟩ := Product.tokens_append_inj p q (a.productEnds hts) (b.productEnds hus) h
    obtain ⟨rfl, hend⟩ := Addends.tokens_append_inj a b hts hus hrest
    exact ⟨rfl, hend⟩
  | .subtract p a, .subtract q b, ts, us, hts, hus, h => by
    simp only [Addends.tokens, List.cons_append, List.append_assoc, List.cons.injEq, true_and] at h
    obtain ⟨rfl, hrest⟩ := Product.tokens_append_inj p q (a.productEnds hts) (b.productEnds hus) h
    obtain ⟨rfl, hend⟩ := Addends.tokens_append_inj a b hts hus hrest
    exact ⟨rfl, hend⟩
  | .add p a, .subtract q b, ts, us, _, _, h => by simp [Addends.tokens] at h
  | .subtract p a, .add q b, ts, us, _, _, h => by simp [Addends.tokens] at h
termination_by structural a => a

theorem Product.tokens_append_inj {signed : Bool} : ∀ (p q : Product signed) {ts us : List Token},
    ProductEnds ts → ProductEnds us → p.tokens ++ ts = q.tokens ++ us → p = q ∧ ts = us
  | .mk o m, .mk o' m', ts, us, hts, hus, h => by
    simp only [Product.tokens, List.append_assoc] at h
    obtain ⟨rfl, hrest⟩ := Operand.tokens_append_inj o o' h
    obtain ⟨rfl, hend⟩ := Multipliers.tokens_append_inj m m' hts hus hrest
    exact ⟨rfl, hend⟩
termination_by structural p => p

theorem Multipliers.tokens_append_inj : ∀ (m n : Multipliers) {ts us : List Token},
    ProductEnds ts → ProductEnds us → m.tokens ++ ts = n.tokens ++ us → m = n ∧ ts = us
  | .nil, .nil, ts, us, _, _, h => ⟨rfl, h⟩
  | .nil, .multiply o n, ts, us, hts, _, h => (hts.ne_multiply h).elim
  | .nil, .divide o n, ts, us, hts, _, h => (hts.ne_divide h).elim
  | .multiply o m, .nil, ts, us, _, hus, h => (hus.ne_multiply h.symm).elim
  | .divide o m, .nil, ts, us, _, hus, h => (hus.ne_divide h.symm).elim
  | .multiply o m, .multiply o' n, ts, us, hts, hus, h => by
    simp only [Multipliers.tokens, List.cons_append, List.append_assoc, List.cons.injEq,
      true_and] at h
    obtain ⟨rfl, hrest⟩ := Operand.tokens_append_inj o o' h
    obtain ⟨rfl, hend⟩ := Multipliers.tokens_append_inj m n hts hus hrest
    exact ⟨rfl, hend⟩
  | .divide o m, .divide o' n, ts, us, hts, hus, h => by
    simp only [Multipliers.tokens, List.cons_append, List.append_assoc, List.cons.injEq,
      true_and] at h
    obtain ⟨rfl, hrest⟩ := Operand.tokens_append_inj o o' h
    obtain ⟨rfl, hend⟩ := Multipliers.tokens_append_inj m n hts hus hrest
    exact ⟨rfl, hend⟩
  | .multiply o m, .divide o' n, ts, us, _, _, h => by simp [Multipliers.tokens] at h
  | .divide o m, .multiply o' n, ts, us, _, _, h => by simp [Multipliers.tokens] at h
termination_by structural m => m

theorem Operand.tokens_append_inj {signed : Bool} : ∀ (o o' : Operand signed) {ts us : List Token},
    o.tokens ++ ts = o'.tokens ++ us → o = o' ∧ ts = us
  | .plain f, .plain g, ts, us, h => by
    obtain ⟨rfl, hend⟩ := Factor.tokens_append_inj f g h
    exact ⟨rfl, hend⟩
  | .negated f, .negated g, ts, us, h => by
    simp only [Operand.tokens, List.cons_append, List.cons.injEq, true_and] at h
    obtain ⟨rfl, hend⟩ := Factor.tokens_append_inj f g h
    exact ⟨rfl, hend⟩
  | .plain f, .negated g, ts, us, h => (f.tokens_ne_operator .subtract ts _ h).elim
  | .negated f, .plain g, ts, us, h => (g.tokens_ne_operator .subtract us _ h.symm).elim
termination_by structural o => o

theorem Factor.tokens_append_inj : ∀ (f g : Factor) {ts us : List Token},
    f.tokens ++ ts = g.tokens ++ us → f = g ∧ ts = us
  | .number v, .number w, ts, us, h => by
    simp only [Factor.tokens, List.cons_append, List.nil_append, List.cons.injEq, Token.number.injEq] at h
    exact ⟨congrArg Factor.number h.1, h.2⟩
  | .paren s, .paren t, ts, us, h => by
    simp only [Factor.tokens, List.cons_append, List.append_assoc, List.nil_append, List.cons.injEq,
      true_and] at h
    obtain ⟨rfl, hclose⟩ := Sum.tokens_append_inj s t (sumEnds_rightParen ts) (sumEnds_rightParen us) h
    exact ⟨rfl, List.tail_eq_of_cons_eq hclose⟩
  | .call f s, .call g t, ts, us, h => by
    simp only [Factor.tokens, List.cons_append, List.append_assoc, List.nil_append, List.cons.injEq,
      Token.function.injEq, true_and] at h
    obtain ⟨rfl, h⟩ := h
    obtain ⟨rfl, hclose⟩ := Sum.tokens_append_inj s t (sumEnds_rightParen ts) (sumEnds_rightParen us) h
    exact ⟨rfl, List.tail_eq_of_cons_eq hclose⟩
  | .number v, .paren t, ts, us, h => by simp [Factor.tokens] at h
  | .number v, .call g t, ts, us, h => by simp [Factor.tokens] at h
  | .paren s, .number w, ts, us, h => by simp [Factor.tokens] at h
  | .paren s, .call g t, ts, us, h => by simp [Factor.tokens] at h
  | .call f s, .number w, ts, us, h => by simp [Factor.tokens] at h
  | .call f s, .paren t, ts, us, h => by simp [Factor.tokens] at h
termination_by structural f => f

end

/-- A row of tokens has at most one derivation. -/
theorem Sum.tokens_inj {s t : Sum} (h : s.tokens = t.tokens) : s = t := by
  have happ : s.tokens ++ [] = t.tokens ++ [] := by rw [h]
  exact (s.tokens_append_inj t sumEnds_nil sumEnds_nil happ).1

end TalkingCalculator.Grammar
