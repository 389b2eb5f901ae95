import TalkingCalculator.Proofs.Expression.Evaluation
import TalkingCalculator.Proofs.Expression.Parsing

/-!
# Where an expression goes wrong

A parsing that blames a token has taken all that is before it for the beginning of an expression, and rightly so:
some expression goes on from there. With the blamed token none does. If the tokens ran out where an operand or a
closing parenthesis should stand, all of them begin an expression.
-/
namespace TalkingCalculator

open Grammar Parsing

namespace EvaluationError

def blames : EvaluationError → Bool
  | unexpected .. | operandMissing | operandExpected _ | unclosedParens => true
  | _ => false

/-- Out of `total` tokens those from the blamed one on are `q`, as the error tells or else the `position` of a cursor
that has taken it. -/
def Blames (total position : Nat) (q : List Token) : EvaluationError → Prop
  | unexpected k _ | operandExpected k => q ≠ [] ∧ k = total - q.length
  | operandMissing => q = []
  | unclosedParens => position = total - q.length + 1
  | _ => True

theorem blames_of_isArithmetic {e : EvaluationError} (h : e.isArithmetic = true) : e.blames = false := by
  cases e with
  | divisionByZero | undefined => rfl
  | _ => cases h

end EvaluationError

/-- What reads a value from the start of its tokens and knows how many tokens the whole expression has. -/
abbrev Recogniser :=
  Nat → List Token → Except EvaluationError (Float × List Token)

/-- The tokens `w` begin a row of `L`, and the first of `q`, if there is one, is refused after them, whatever comes
next. -/
structure Stuck (L : Language) (read : Recogniser) (w q : List Token) : Prop where
  begins : ∃ us x, L us x ∧ w <+: us
  refused {t : Token} (ht : q.head? = some t) (total : Nat) (us : List Token) :
    ∃ e, e.isStructural = true ∧ read total (w ++ t :: us) = .error e

variable {tokens : List Token}

/-- In `ts`, the last of the `tokens`, the error blames what cannot go on with a row of `L`. -/
def Halts (tokens : List Token) (L : Language) (read : Recogniser) (ts : List Token) (e : EvaluationError)
    (position : Nat) : Prop :=
  ∃ w q, w ++ q = ts ∧ e.Blames tokens.length position q ∧ Stuck L read w q

theorem head?_append_cons {w q : List Token} {t : Token} (ht : q.head? = some t) (us : List Token) :
    (w ++ t :: us).head? = (w ++ q).head? := by
  cases w with
  | nil => exact ht.symm
  | cons s w => rfl

section Lift

variable {L L' : Language} {read read' : Recogniser} {ts : List Token} {e : EvaluationError} {n : Nat}

/-- What is stuck is stuck after tokens that it may follow, if it is read there as it is by itself. -/
theorem Halts.lift (h : Halts tokens L read ts e n) (u : List Token)
    (hL : ∀ us x, L us x → ∃ vs y, L' vs y ∧ u ++ us <+: vs)
    (hread : ∀ total vs e, vs.head? = ts.head? → read total vs = .error e → read' total (u ++ vs) = .error e) :
    Halts tokens L' read' (u ++ ts) e n := by
  obtain ⟨w, q, rfl, hq, ⟨us, x, hx, hw⟩, hrefused⟩ := h
  refine ⟨u ++ w, q, by simp, hq, ?_, fun {t} ht total vs => ?_⟩
  · obtain ⟨vs, y, hy, hvs⟩ := hL us x hx
    exact ⟨vs, y, hy, ((List.prefix_append_right_inj u).mpr hw).trans hvs⟩
  · obtain ⟨e', he', hr⟩ := hrefused ht total vs
    refine ⟨e', he', ?_⟩
    rw [List.append_assoc]
    exact hread total _ e' (head?_append_cons ht vs) hr

end Lift

/-- What the parser comes to from `p`, where `d` parentheses are open and the calls in `ps` are pending, when a reader
comes to the last argument. -/
inductive Answers (tokens : List Token) (d : Nat) (ps : List Pending) (L : Language) (read : Recogniser)
    (ts : List Token) (p : Parsing) : Except EvaluationError (Float × List Token) → Prop where
  | ok {v : Float} {rest : List Token} (h : Reaches tokens p ⟨.value v, .before tokens rest d, ps⟩) :
    Answers tokens d ps L read ts p (.ok (v, rest))
  | error {e : EvaluationError} {c : Cursor} (h : Stops tokens p (.error e) c)
    (hblames : e.blames = true → Halts tokens L read ts e c.position) :
    Answers tokens d ps L read ts p (.error e)

/-- A routine goes on the tokens as the reader does, when `room` levels of nesting are left. -/
def Follows (tokens : List Token) (room : Nat) (L : Language) (read : Recogniser) (routine : Routine) : Prop :=
  ∀ ts d ps, ts <:+ tokens → d + room = maxNesting →
    Answers tokens d ps L read ts ⟨.run routine, .before tokens ts d, ps⟩ (read tokens.length ts)

namespace Answers

variable {L L' : Language} {read read' : Recogniser} {ts ts' : List Token} {d d' : Nat} {ps ps' : List Pending}
  {p q : Parsing} {x : Except EvaluationError (Float × List Token)} {e : EvaluationError} {c : Cursor}

theorem value (v : Float) (rest : List Token) :
    Answers tokens d ps L read ts ⟨.value v, .before tokens rest d, ps⟩ (.ok (v, rest)) :=
  .ok .refl

theorem stop (h : step tokens p = .stop (.error e) c)
    (hblames : e.blames = true → Halts tokens L read ts e c.position) :
    Answers tokens d ps L read ts p (.error e) :=
  .error ⟨p, .refl, h⟩ hblames

/-- An error of arithmetic blames no token. -/
theorem arithmetic (he : e.isArithmetic = true) (h : step tokens p = .stop (.error e) c) :
    Answers tokens d ps L read ts p (.error e) := by
  refine stop h fun hblames => ?_
  rw [EvaluationError.blames_of_isArithmetic he] at hblames
  cases hblames

theorem after (h : Reaches tokens p q) (hq : Answers tokens d ps L read ts q x) :
    Answers tokens d ps L read ts p x := by
  cases hq with
  | ok hvalue => exact .ok (h.trans hvalue)
  | error hstop hblames => exact .error (h.stops hstop) hblames

theorem next (h : step tokens p = .next q) (hq : Answers tokens d ps L read ts q x) :
    Answers tokens d ps L read ts p x :=
  after (.single h) hq

theorem lift (h : Answers tokens d ps L read ts p x)
    (hlift : ∀ e n, Halts tokens L read ts e n → Halts tokens L' read' ts' e n) :
    Answers tokens d ps L' read' ts' p x := by
  cases h with
  | ok hvalue => exact .ok hvalue
  | error hstop hblames => exact .error hstop fun he => hlift _ _ (hblames he)

theorem bind {f : Float × List Token → Except EvaluationError (Float × List Token)}
    (h : Answers tokens d ps L read ts p x)
    (hlift : ∀ e n, Halts tokens L read ts e n → Halts tokens L' read' ts' e n)
    (hnext : ∀ v rest, x = .ok (v, rest) →
      Answers tokens d' ps' L' read' ts' ⟨.value v, .before tokens rest d, ps⟩ (f (v, rest))) :
    Answers tokens d' ps' L' read' ts' p (x >>= f) := by
  cases h with
  | ok hvalue => exact (hnext _ _ rfl).after hvalue
  | error hstop hblames => exact .error hstop fun he => hlift _ _ (hblames he)

end Answers

variable {room : Nat} {g : Nat → Reader}

theorem factors_zero : Factors room [.number 0.0] (.ok 0.0) :=
  ⟨.number 0.0, Nat.zero_le _, rfl, rfl⟩

/-- A token that no factor begins with is to blame for not beginning one. -/
theorem halts_factor {t : Token} {ts : List Token} {n : Nat}
    (ht : ∀ total us, ∃ k, unbounded (Reader.factor total (g total) (t :: us)) = .error (.operandExpected k)) :
    Halts tokens (Factors room) (fun total ts => unbounded (Reader.factor total (g total) ts)) (t :: ts)
      (.operandExpected (tokens.length - (ts.length + 1))) n := by
  refine ⟨[], t :: ts, rfl, ⟨List.cons_ne_nil _ _, rfl⟩, ⟨_, _, factors_zero, List.nil_prefix⟩, ?_⟩
  rintro _ ⟨⟩ total us
  obtain ⟨k, hk⟩ := ht total us
  exact ⟨_, rfl, hk⟩

theorem follows_factor
    (hg : Follows tokens room (Groups room) (fun total ts => unbounded (g total ts)) .parenthesized) :
    Follows tokens room (Factors room) (fun total ts => unbounded (Reader.factor total (g total) ts)) .factor := by
  intro ts d ps hts hd
  rcases ts with _ | ⟨t, ts⟩
  · refine .stop (step_factor_nil d ps) fun _ => ⟨[], [], rfl, rfl, ⟨_, _, factors_zero, List.nil_prefix⟩, ?_⟩
    rintro t ⟨⟩
  have hrest : ts <:+ tokens := tail_suffix hts
  cases t with
  | number v => exact .next (step_factor_number d ps hts) (.value v ts)
  | leftParen =>
    refine .next (step_factor_leftParen d ps hts) ?_
    change Answers _ _ _ _ _ _ _ (unbounded (Reader.factor _ _ _))
    rw [Reader.unbounded_factor_paren]
    refine (hg ts d ps hrest hd).lift fun e n h => h.lift [.leftParen]
      (fun us x hx => ⟨_, _, factors_paren hx, List.prefix_refl _⟩) fun _ vs e _ hvs => ?_
    rw [List.singleton_append, Reader.unbounded_factor_paren]
    exact hvs
  | function f =>
    by_cases hparen : ts.head? = some .leftParen
    · obtain ⟨us, rfl⟩ := List.head?_eq_some_iff.mp hparen
      refine .next (step_factor_call d ps hts) ?_
      change Answers _ _ _ _ _ _ _ (unbounded (Reader.factor _ _ _))
      rw [Reader.unbounded_factor_call]
      refine (hg us d (.apply f :: ps) (tail_suffix hrest) hd).bind (fun e n h => ?_) fun v rest _ => ?_
      · refine h.lift [.function f, .leftParen]
          (fun us x hx => ⟨_, _, factors_call f hx, List.prefix_refl _⟩) fun _ vs e _ hvs => ?_
        rw [List.cons_append, List.singleton_append, Reader.unbounded_factor_call]
        exact bind_eq_error.mpr (Or.inl hvs)
      · cases hv : f.apply v with
        | ok w => exact .next (by rw [step_apply, hv]) (.value w rest)
        | error e => exact .arithmetic (ArithmeticOnly.apply f v e hv) (by rw [step_apply, hv])
    · have hread : unbounded (Reader.factor tokens.length (g tokens.length) (.function f :: ts)) =
          .error (.parenMissing f) := by
        rcases ts with _ | ⟨t, ts⟩
        · rfl
        cases t with
        | leftParen => exact (hparen rfl).elim
        | _ => rfl
      change Answers _ _ _ _ _ _ _ (unbounded (Reader.factor _ _ _))
      rw [hread]
      exact .stop (step_factor_function d ps hts hparen) fun h => by cases h
  | operator op => exact .stop (step_factor_operator d ps hts) fun _ => halts_factor fun _ _ => ⟨_, rfl⟩
  | rightParen => exact .stop (step_factor_rightParen d ps hts) fun _ => halts_factor fun _ _ => ⟨_, rfl⟩

theorem follows_operand (signed : Bool)
    (hg : Follows tokens room (Groups room) (fun total ts => unbounded (g total ts)) .parenthesized) :
    Follows tokens room (Operands room signed)
      (fun total ts => unbounded (Reader.operand total (g total) signed ts)) (.unary signed) := by
  intro ts d ps hts hd
  change Answers _ _ _ _ _ _ _ (unbounded (Reader.operand _ _ _ _))
  rcases operand_shape signed ts with ⟨rfl, us, rfl⟩ | hne
  · refine .next (step_unary_minus d ps hts) ?_
    rw [Reader.unbounded_operand_minus]
    refine (follows_factor hg us d (.negate :: ps) (tail_suffix hts) hd).bind (fun e n h => ?_)
      fun v rest _ => .next rfl (.value (-v) rest)
    refine h.lift [.operator .subtract]
      (fun us x hx => ⟨_, _, operands_negated hx, List.prefix_refl _⟩) fun _ vs e _ hvs => ?_
    rw [List.singleton_append, Reader.unbounded_operand_minus]
    exact bind_eq_error.mpr (Or.inl hvs)
  · refine .next (step_unary_of_ne d ps hts hne) ?_
    rw [Reader.operand_of_ne _ _ signed ts hne]
    refine (follows_factor hg ts d ps hts hd).lift fun e n h => h.lift []
      (fun us x hx => ⟨_, _, operands_plain hx, List.prefix_refl _⟩) fun _ vs e hhead hvs => ?_
    rw [List.nil_append, Reader.operand_of_ne]
    · exact hvs
    · rwa [hhead]

structure Chain.RunBy (c : Chain) (tokens : List Token) (room : Nat) (item : Operator → Routine)
    (wait : Operator → Float → Pending) (again : Float → Routine) : Prop where
  follows_item {op : Operator} (hop : c.continues op) :
    Follows tokens room (c.items op) (c.readItem op) (item op)
  step_operator {op : Operator} {ts : List Token} (v : Float) (d : Nat) (ps : List Pending) (hop : c.continues op)
    (hts : .operator op :: ts <:+ tokens) : step tokens ⟨.run (again v), .before tokens (.operator op :: ts) d, ps⟩ =
      .next ⟨.run (item op), .before tokens ts d, wait op v :: ps⟩
  step_item {op : Operator} (v x : Float) (cursor : Cursor) (ps : List Pending) (hop : c.continues op) :
    step tokens ⟨.value x, cursor, wait op v :: ps⟩ =
      match c.combine op v x with
      | .ok w => .next ⟨.run (again w), cursor, ps⟩
      | .error e => .stop (.error e) cursor
  step_end {ts : List Token} (v : Float) (d : Nat) (ps : List Pending) (hts : ts <:+ tokens)
    (h : ∀ op, c.continues op → ts.head? ≠ some (.operator op)) :
    step tokens ⟨.run (again v), .before tokens ts d, ps⟩ = .next ⟨.value v, .before tokens ts d, ps⟩
  arithmeticOnly (op : Operator) (v w : Float) : ArithmeticOnly (c.combine op v w)
  ends_congr {ts us : List Token} (h : us.head? = ts.head?) (hts : c.Ends ts) : c.Ends us

namespace Chain

variable {c : Chain} {item : Operator → Routine} {wait : Operator → Float → Pending} {again : Float → Routine}

def From (c : Chain) (v : Float) : Language :=
  fun us x => ∃ k, c.tails us k ∧ k v = x

theorem RunBy.loop (h : c.RunBy tokens room item wait again) {ts : List Token} (hends : c.Ends ts)
    (hts : ts <:+ tokens) {d : Nat} (hd : d + room = maxNesting) (ps : List Pending) (v : Float) :
    Answers tokens d ps (c.From v) (c.loop v) ts ⟨.run (again v), .before tokens ts d, ps⟩
      (c.loop v tokens.length ts) := by
  induction hn : ts.length using Nat.strongRecOn generalizing ts v with
  | _ n ih =>
    rcases c.stops_or_operator hends with hs | ⟨op, us, hop, rfl⟩
    · rw [c.loop_stop v _ hs.2]
      exact .next (h.step_end v d ps hts hs.2) (.value v ts)
    have hus : us <:+ tokens := tail_suffix hts
    refine .next (h.step_operator v d ps hop hts) ?_
    rw [c.loop_operator v _ us hop]
    refine (h.follows_item hop us d _ hus hd).bind (fun e n he => ?_) fun x rest hx => ?_
    · refine he.lift [.operator op] (fun us x hx => ⟨_, _, ⟨_, c.tails_cons hop hx c.tails_nil, rfl⟩, by simp⟩)
        fun total vs e _ hvs => ?_
      rw [List.singleton_append, c.loop_operator v total vs hop]
      exact bind_eq_error.mpr (Or.inl hvs)
    obtain ⟨vs, hL, rfl, hend⟩ := (c.reads_item hop).sound hx
    have hstep := h.step_item v x (.before tokens rest d) ps hop
    cases hq : c.combine op v x with
    | error e =>
      rw [hq] at hstep
      exact .arithmetic (h.arithmeticOnly op v x e hq) hstep
    | ok q =>
      rw [hq] at hstep
      have hlt : rest.length < n := by
        simp only [List.length_cons, List.length_append] at hn
        omega
      have hrest : rest <:+ tokens := (List.suffix_append _ _).trans hus
      refine .next hstep ((ih rest.length hlt hend hrest q rfl).lift fun e n he => ?_)
      refine he.lift (.operator op :: vs) (fun us y hy => ?_) fun total ws e hhead hws => ?_
      · obtain ⟨k, hk, -⟩ := hy
        exact ⟨_, _, ⟨_, c.tails_cons hop hL hk, rfl⟩, by simp⟩
      · rw [List.cons_append, c.loop_operator v total _ hop,
          (c.reads_item hop).complete total hL (h.ends_congr hhead hend)]
        exact bind_eq_error.mpr (Or.inr ⟨_, rfl, bind_eq_error.mpr (Or.inr ⟨q, hq, hws⟩)⟩)

/-- A routine that calls for an item and goes on with the loop. -/
theorem RunBy.followedBy (h : c.RunBy tokens room item wait again) {first : Language} {readFirst : Recogniser}
    {start : Routine} (whole : Routine) (waiting : Pending) (hreads : Reads first c.Ends readFirst)
    (hfollows : Follows tokens room first readFirst start)
    (hstart : ∀ cursor ps, step tokens ⟨.run whole, cursor, ps⟩ = .next ⟨.run start, cursor, waiting :: ps⟩)
    (hloop : ∀ v cursor ps, step tokens ⟨.value v, cursor, waiting :: ps⟩ = .next ⟨.run (again v), cursor, ps⟩) :
    Follows tokens room (first.followedBy c.tails)
      (fun total ts => readFirst total ts >>= fun r => c.loop r.1 total r.2) whole := by
  intro ts d ps hts hd
  refine .next (hstart _ ps) ?_
  refine (hfollows ts d (waiting :: ps) hts hd).bind (fun e n he => ?_) fun v rest hv => ?_
  · refine he.lift [] (fun us y hy => ⟨_, _, ⟨us, [], y, _, hy, c.tails_nil, rfl, rfl⟩, by simp⟩)
      fun total vs e _ hvs => ?_
    exact bind_eq_error.mpr (Or.inl hvs)
  · obtain ⟨us, hL, rfl, hend⟩ := hreads.sound hv
    have hrest : rest <:+ tokens := (List.suffix_append _ _).trans hts
    refine .next (hloop v _ ps) ((h.loop hend hrest hd ps v).lift fun e n he => ?_)
    refine he.lift us (fun ws y hy => ?_) fun total ws e hhead hws => ?_
    · obtain ⟨k, hk, -⟩ := hy
      exact ⟨_, _, ⟨us, ws, _, k, hL, hk, rfl, rfl⟩, List.prefix_refl _⟩
    · rw [hreads.complete total hL (h.ends_congr hhead hend)]
      exact hws

end Chain

theorem Follows.congr {L L' : Language} {read read' : Recogniser} {routine : Routine}
    (h : Follows tokens room L read routine) (hL : ∀ us x, L us x → L' us x)
    (hread : ∀ total ts, read total ts = read' total ts) : Follows tokens room L' read' routine := by
  intro ts d ps hts hd
  rw [← hread]
  refine (h ts d ps hts hd).lift fun e n he => he.lift []
    (fun us x hx => ⟨_, _, hL us x hx, List.prefix_refl _⟩) fun total vs e _ hvs => ?_
  rw [List.nil_append, ← hread]
  exact hvs

section Group

variable (hg : Reads (Groups room) AnyEnd fun total ts => unbounded (g total ts))
  (hfollows : Follows tokens room (Groups room) (fun total ts => unbounded (g total ts)) .parenthesized)

include hg hfollows

theorem productChain_runBy : (productChain hg).RunBy tokens room (fun _ => .unary true)
    (fun op v => if op = .divide then .divide v else .multiply v) .products where
  follows_item _ := follows_operand true hfollows
  step_operator v d ps hop hts := by
    rcases hop with rfl | rfl
    · exact step_products_multiply d ps v hts
    · exact step_products_divide d ps v hts
  step_item v x cursor ps hop := by
    rcases hop with rfl | rfl <;> rfl
  step_end v d ps hts h := step_products_end d ps v hts (h .multiply (Or.inl rfl)) (h .divide (Or.inr rfl))
  arithmeticOnly op v w := by
    change ArithmeticOnly (if op = .divide then quotient v w else .ok (v * w))
    split
    · exact .quotient v w
    · exact .ok _
  ends_congr _ _ := trivial

theorem follows_product (signed : Bool) :
    Follows tokens room (Products room signed)
      (fun total ts => unbounded (Reader.product total (g total) signed ts)) (.term signed) := by
  refine ((productChain_runBy hg hfollows).followedBy (.term signed) .products
    (reads_operand hg signed) (follows_operand signed hfollows) (fun _ _ => rfl) fun _ _ _ => rfl).congr ?_ ?_
  · exact fun us x => (followedBy_multipliers hg signed us x).mp
  · intro total ts
    exact (Reader.unbounded_product total (g total) signed ts).symm

theorem sumChain_runBy : (sumChain hg).RunBy tokens room (fun op => .term (op = .add))
    (fun op v => if op = .add then .add v else .subtract v) .sums where
  follows_item _ := follows_product hg hfollows _
  step_operator v d ps hop hts := by
    rcases hop with rfl | rfl
    · exact step_sums_add d ps v hts
    · exact step_sums_subtract d ps v hts
  step_item v x cursor ps hop := by
    rcases hop with rfl | rfl <;> rfl
  step_end v d ps hts h := step_sums_end d ps v hts (h .add (Or.inl rfl)) (h .subtract (Or.inr rfl))
  arithmeticOnly op v w := .ok _
  ends_congr h hts := by
    change ProductEnds _
    unfold ProductEnds
    rwa [h]

theorem follows_sum :
    Follows tokens room (Sums room) (fun total ts => unbounded (Reader.sum total (g total) ts)) .expression := by
  refine ((sumChain_runBy hg hfollows).followedBy .expression .sums
    (reads_product hg true) (follows_product hg hfollows true) (fun _ _ => rfl) fun _ _ _ => rfl).congr ?_ ?_
  · exact fun us x => (followedBy_addends hg us x).mp
  · intro total ts
    exact (Reader.unbounded_sum total (g total) ts).symm

end Group

/-- A sum in a parenthesis that is followed neither by an operator nor by the end of the parenthesis. -/
theorem group_unclosed (s : Sum) (hs : s.depth ≤ room) {v : Float} (hv : s.value = .ok v) {rest : List Token}
    (hend : SumEnds rest) (hne : rest.head? ≠ some .rightParen) (total : Nat) :
    unbounded (Reader.group total (room + 1) (s.tokens ++ rest)) = .error .unclosedParens := by
  rw [Reader.unbounded_group_succ total room _ (s.head?_ne_rightParen rest),
    (reads_sum (reads_group room)).complete total ⟨s, hs, rfl, rfl⟩ hend, hv]
  rcases rest with _ | ⟨t, rest⟩
  · rfl
  cases t with
  | rightParen => exact (hne rfl).elim
  | _ => rfl

theorem sumEnds_congr {ts us : List Token} (h : us.head? = ts.head?) (hts : SumEnds ts) : SumEnds us := by
  intro op
  rw [h]
  exact hts op

theorem halts_group (s : Sum) (hs : s.depth ≤ room) {v : Float} (hv : s.value = .ok v) {rest : List Token}
    (hend : SumEnds rest) (hne : rest.head? ≠ some .rightParen) :
    Halts tokens (Groups (room + 1)) (fun total ts => unbounded (Reader.group total (room + 1) ts))
      (s.tokens ++ rest) .unclosedParens (tokens.length - rest.length + 1) := by
  refine ⟨s.tokens, rest, rfl, rfl, ?_, fun {t} ht total us => ?_⟩
  · exact ⟨_, _, ⟨s, Nat.succ_le_succ hs, rfl, rfl⟩, List.prefix_append _ _⟩
  · have hhead : (t :: us).head? = rest.head? := ht.symm
    exact ⟨_, rfl, group_unclosed s hs hv (sumEnds_congr hhead hend) (hhead ▸ hne) total⟩

theorem follows_group_succ (hfollows : Follows tokens room (Groups room)
    (fun total ts => unbounded (Reader.group total room ts)) .parenthesized) :
    Follows tokens (room + 1) (Groups (room + 1)) (fun total ts => unbounded (Reader.group total (room + 1) ts))
      .parenthesized := by
  intro ts d ps hts hd
  have hlt : d < maxNesting := by omega
  by_cases hne : ts.head? = some .rightParen
  · obtain ⟨us, rfl⟩ := List.head?_eq_some_iff.mp hne
    exact .stop (step_parenthesized_rightParen d ps hts hlt) fun h => by cases h
  have hsum := follows_sum (reads_group room) hfollows ts (d + 1) (.close :: ps) hts (by omega)
  refine .next (step_parenthesized_of_ne d ps hts hlt hne) ?_
  change Answers _ _ _ _ _ _ _ (unbounded (Reader.group _ _ _))
  rw [Reader.unbounded_group_succ _ room ts hne]
  refine hsum.bind (fun e n he => ?_) fun v rest hv => ?_
  · refine he.lift [] (fun us x hx => ?_) fun total vs e hhead hvs => ?_
    · obtain ⟨s, hs, rfl, -⟩ := hx
      exact ⟨_, _, ⟨s, Nat.succ_le_succ hs, rfl, rfl⟩, List.prefix_append _ _⟩
    · rw [List.nil_append, Reader.unbounded_group_succ _ room vs (hhead ▸ hne)]
      exact bind_eq_error.mpr (Or.inl hvs)
  obtain ⟨_, ⟨s, hs, rfl, hvalue⟩, rfl, hend⟩ := (reads_sum (reads_group room)).sound hv
  have hrest : rest <:+ tokens := (List.suffix_append _ _).trans hts
  by_cases hclose : rest.head? = some .rightParen
  · obtain ⟨us, rfl⟩ := List.head?_eq_some_iff.mp hclose
    exact .next (step_close_rightParen d ps v hrest) (.value v us)
  have hstep := step_close_of_ne d ps v hrest hclose
  rcases rest with _ | ⟨t, rest⟩
  · exact .stop hstep fun _ => halts_group s hs hvalue hend hclose
  cases t with
  | rightParen => exact (hclose rfl).elim
  | _ => exact .stop hstep fun _ => halts_group s hs hvalue hend hclose

theorem follows_group (room : Nat) :
    Follows tokens room (Groups room) (fun total ts => unbounded (Reader.group total room ts)) .parenthesized := by
  induction room with
  | zero =>
    intro ts d ps _ hd
    have hfull : maxNesting ≤ d := Nat.le_of_eq hd.symm
    exact .stop (step_parenthesized_tooDeep d ps hfull) fun h => by cases h
  | succ room ih => exact follows_group_succ ih

abbrev readExpression : Recogniser :=
  fun total ts => unbounded (Reader.sum total (Reader.group total maxNesting) ts)

theorem follows_expression (tokens : List Token) :
    Follows tokens maxNesting (Sums maxNesting) readExpression .expression :=
  follows_sum (reads_group maxNesting) (follows_group maxNesting)

def Begins (ts : List Token) : Prop :=
  ∃ s : Sum, s.depth ≤ maxNesting ∧ ts <+: s.tokens

/-- The tokens before the blamed one begin an expression, and with it they begin none. -/
def Located (tokens : List Token) (e : EvaluationError) (position : Nat) : Prop :=
  ∃ w q, w ++ q = tokens ∧ e.Blames tokens.length position q ∧ Begins w ∧
    ∀ t, q.head? = some t → ¬ Begins (w ++ [t])

theorem not_isStructural_of_isArithmetic {e : EvaluationError} (h : e.isArithmetic = true) :
    e.isStructural = false := by
  cases e with
  | divisionByZero | undefined => rfl
  | _ => cases h

theorem Halts.located {e : EvaluationError} {n : Nat}
    (h : Halts tokens (Sums maxNesting) readExpression tokens e n) : Located tokens e n := by
  obtain ⟨w, q, hts, hq, ⟨_, _, ⟨s, hs, rfl, -⟩, hw⟩, hrefused⟩ := h
  refine ⟨w, q, hts, hq, ⟨s, hs, hw⟩, ?_⟩
  -- an expression that went on with the token would be refused, though it is only for an error of arithmetic
  rintro t ht ⟨s', hs', us, hus⟩
  obtain ⟨e', he', hread⟩ := hrefused ht 0 us
  have hcomplete := reads_expression.complete 0 ⟨s', hs', rfl, rfl⟩ sumEnds_nil
  rw [← hus, List.append_assoc, List.append_assoc, List.append_nil] at hcomplete
  cases hv : s'.value with
  | ok v =>
    rw [hv] at hcomplete
    cases hcomplete.symm.trans hread
  | error e'' =>
    rw [hv] at hcomplete
    cases hcomplete.symm.trans hread
    rw [not_isStructural_of_isArithmetic (s'.arithmeticOnly e' hv)] at he'
    cases he'

theorem located_unexpected (s : Sum) (hs : s.depth ≤ maxNesting) {t : Token} {rest : List Token}
    (hend : SumEnds (t :: rest)) (n : Nat) :
    Located (s.tokens ++ t :: rest)
      (.unexpected ((s.tokens ++ t :: rest).length - (rest.length + 1)) t) n := by
  refine ⟨s.tokens, t :: rest, rfl, ⟨List.cons_ne_nil _ _, rfl⟩, ⟨s, hs, List.prefix_refl _⟩, ?_⟩
  rintro _ ⟨⟩ ⟨s', hs', us, hs'us⟩
  have happ : s.tokens ++ t :: us = s'.tokens ++ [] := by
    rw [List.append_nil, ← hs'us, List.append_assoc, List.singleton_append]
  have hus : SumEnds (t :: us) := sumEnds_congr rfl hend
  cases (s.tokens_append_inj s' hus sumEnds_nil happ).2

/-- The parsing comes to an end, and to what the tokens are evaluated to. -/
theorem exists_stops (hne : tokens ≠ []) :
    ∃ c, Stops tokens ⟨.run .expression, ⟨0, 0⟩, []⟩ (evaluateAll tokens) c ∧
      ∀ e, evaluateAll tokens = .error e → e.blames = true → Located tokens e c.position := by
  have hanswers := follows_expression tokens tokens 0 [] (List.suffix_refl _) rfl
  rw [Cursor.before_self] at hanswers
  rw [evaluateAll_eq hne]
  cases hread : unbounded (Reader.sum tokens.length (Reader.group tokens.length maxNesting) tokens) with
  | error e =>
    change Answers _ _ _ _ _ _ _ (unbounded _) at hanswers
    rw [hread] at hanswers
    cases hanswers with
    | error hstop hblames =>
      refine ⟨_, hstop, fun e' he hblame => ?_⟩
      cases he
      exact (hblames hblame).located
  | ok r =>
    obtain ⟨v, rest⟩ := r
    change Answers _ _ _ _ _ _ _ (unbounded _) at hanswers
    rw [hread] at hanswers
    cases hanswers with
    | ok hreach =>
      obtain ⟨_, ⟨s, hs, rfl, -⟩, hts, hend⟩ := reads_expression.sound hread
      cases rest with
      | nil => exact ⟨_, ⟨_, hreach, step_value_nil 0 v⟩, fun e he => by cases he⟩
      | cons t rest =>
        have hrest : t :: rest <:+ tokens := hts ▸ List.suffix_append _ _
        refine ⟨_, ⟨_, hreach, step_value_cons 0 v hrest⟩, fun e he _ => ?_⟩
        cases he
        subst hts
        exact located_unexpected s hs hend _

theorem exists_parse (tokens : List Token) : ∃ n c, (∀ m, n ≤ m → parse tokens m = some (evaluateAll tokens, c)) ∧
    ∀ e, evaluateAll tokens = .error e → e.blames = true → Located tokens e c.position := by
  by_cases hne : tokens = []
  · subst hne
    refine ⟨0, ⟨0, 0⟩, fun _ _ => rfl, fun e he h => ?_⟩
    cases he
    cases h
  · obtain ⟨c, hstops, hlocated⟩ := exists_stops hne
    obtain ⟨n, hn⟩ := hstops.run
    refine ⟨n, c, fun m hm => ?_, hlocated⟩
    rw [parse, if_neg hne, hn m hm]

theorem Located.take {e : EvaluationError} {k n : Nat} (h : Located tokens e n)
    (hk : ∀ q, e.Blames tokens.length n q → q ≠ [] ∧ k = tokens.length - q.length) :
    Begins (tokens.take k) ∧ ¬ Begins (tokens.take (k + 1)) := by
  obtain ⟨w, q, rfl, hq, hw, hnot⟩ := h
  obtain ⟨hne, rfl⟩ := hk q hq
  obtain ⟨t, q, rfl⟩ := List.exists_cons_of_ne_nil hne
  rw [List.length_append, Nat.add_sub_cancel, List.take_left, List.take_length_add_append]
  exact ⟨hw, hnot t rfl⟩

/-- The parsing of tokens comes to an end, and to what they are evaluated to. A token that is blamed is the first that
cannot go on: those before it begin an expression, and with it they begin none. Where the tokens ran out for want of an
operand or a closing parenthesis, all of them begin one. -/
theorem parse_viable (ts : List Token) : ∃ n c, (∀ m, n ≤ m → parse ts m = some (evaluateAll ts, c)) ∧
    (∀ k t, evaluateAll ts = .error (.unexpected k t) → Begins (ts.take k) ∧ ¬ Begins (ts.take (k + 1))) ∧
    (∀ k, evaluateAll ts = .error (.operandExpected k) → Begins (ts.take k) ∧ ¬ Begins (ts.take (k + 1))) ∧
    (evaluateAll ts = .error .operandMissing → Begins ts) ∧
    (evaluateAll ts = .error .unclosedParens → ts.length < c.position → Begins ts) := by
  obtain ⟨n, c, hparse, hlocated⟩ := exists_parse ts
  refine ⟨n, c, hparse, fun k t he => ?_, fun k he => ?_, fun he => ?_, fun he hlt => ?_⟩
  · exact (hlocated _ he rfl).take fun q hq => hq
  · exact (hlocated _ he rfl).take fun q hq => hq
  · obtain ⟨w, q, hts, rfl, hw, -⟩ := hlocated _ he rfl
    rwa [← hts, List.append_nil]
  · obtain ⟨w, q, rfl, hq, hw, -⟩ := hlocated _ he rfl
    -- the cursor has gone behind the end only if nothing was left to take
    have hposition : c.position = (w ++ q).length - q.length + 1 := hq
    rw [List.length_append] at hlt hposition
    have hnil : q = [] := List.length_eq_zero_iff.mp (by omega)
    rwa [hnil, List.append_nil]

end TalkingCalculator
