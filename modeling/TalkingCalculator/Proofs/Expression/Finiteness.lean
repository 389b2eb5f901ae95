import TalkingCalculator.Proofs.Binary.Propagation
import TalkingCalculator.Proofs.Expression.Composition

/-!
# Finiteness

Only the value of the whole expression must be finite, and an infinity that arises on the way to it is lost when
something finite is divided by it. It is lost in no other way, and NaN never is. So a value that is found to be finite
has been made of finite values alone, but for what stands in a divisor that came to an infinity.
-/
namespace TalkingCalculator

namespace Grammar

def after (x : Except EvaluationError Float) (k : Float → List Float) : List Float :=
  match x with
  | .ok v => k v
  | .error _ => []

theorem forall_mem_append_after {P : Float → Prop} {as : List Float} {x : Except EvaluationError Float} {v : Float}
    {k : Float → List Float} (has : ∀ a ∈ as, P a) (hx : x = .ok v) (hk : ∀ a ∈ k v, P a) :
    ∀ a ∈ as ++ after x k, P a := by
  subst hx
  exact List.forall_mem_append.mpr ⟨has, hk⟩

section Values

variable (hides : Float → Bool)

mutual

/-- The values that an evaluation comes to, those of all subexpressions that it evaluates. Those of a divisor whose
own value `hides` them are left out. -/
def Sum.values : Sum → List Float
  | .mk p rest => p.values ++ after p.value rest.values

def Addends.values : Addends → Float → List Float
  | .nil, _ => []
  | .add p rest, v => p.values ++ after p.value fun x => (v + x) :: rest.values (v + x)
  | .subtract p rest, v => p.values ++ after p.value fun x => (v - x) :: rest.values (v - x)

def Product.values {signed : Bool} : Product signed → List Float
  | .mk o rest => o.values ++ after o.value rest.values

def Multipliers.values : Multipliers → Float → List Float
  | .nil, _ => []
  | .multiply o rest, v => o.values ++ after o.value fun x => (v * x) :: rest.values (v * x)
  | .divide o rest, v => (if o.value.toOption.any hides then [] else o.values) ++
      after o.value fun x => after (quotient v x) fun q => q :: rest.values q

def Operand.values {signed : Bool} : Operand signed → List Float
  | .plain f => f.values
  | .negated f => f.values ++ after f.value fun v => [-v]

def Factor.values : Factor → List Float
  | .number v => [v]
  | .paren s => s.values
  | .call f s => s.values ++ after s.value fun x => after (f.apply x) fun v => [v]

end

end Values

theorem eq_of_quotient {x y q : Float} (h : quotient x y = .ok q) : q = x / y := by
  unfold quotient at h
  split at h <;> cases h
  rfl

/-- Operations whose results have a property only if their operands have it, unless a divisor hides that it has not. -/
structure Inherited (hides : Float → Bool) (P : Float → Prop) : Prop where
  add {x y : Float} (h : P (x + y)) : P x ∧ P y
  sub {x y : Float} (h : P (x - y)) : P x ∧ P y
  mul {x y : Float} (h : P (x * y)) : P x ∧ P y
  div {x y : Float} (h : P (x / y)) : P x ∧ (hides y = false → P y)
  neg {x : Float} (h : P (-x)) : P x

def FunctionsInherit (P : Float → Prop) (ts : List Token) : Prop :=
  ∀ f, .function f ∈ ts → ∀ x v, f.apply x = .ok v → P v → P x

namespace FunctionsInherit

variable {P : Float → Prop} {ts us : List Token} {t : Token}

theorem left (h : FunctionsInherit P (ts ++ us)) : FunctionsInherit P ts :=
  fun f hf => h f (List.mem_append_left us hf)

theorem right (h : FunctionsInherit P (ts ++ us)) : FunctionsInherit P us :=
  fun f hf => h f (List.mem_append_right ts hf)

theorem tail (h : FunctionsInherit P (t :: ts)) : FunctionsInherit P ts :=
  fun f hf => h f (List.mem_cons_of_mem t hf)

end FunctionsInherit

section Inherited

variable {hides : Float → Bool} {P : Float → Prop}

mutual

theorem Sum.inherited (hP : Inherited hides P) : ∀ (s : Sum), FunctionsInherit P s.tokens → ∀ {v : Float},
    s.value = .ok v → P v → ∀ a ∈ s.values hides, P a
  | .mk p rest, hf, v, hv, hPv => by
    obtain ⟨x, hx, hrest⟩ := bind_eq_ok.mp hv
    obtain ⟨hPx, hvalues⟩ := Addends.inherited hP rest hf.right hrest hPv
    exact forall_mem_append_after (Product.inherited hP p hf.left hx hPx) hx hvalues
termination_by structural s => s

theorem Addends.inherited (hP : Inherited hides P) : ∀ (rest : Addends), FunctionsInherit P rest.tokens →
    ∀ {w v : Float}, rest.value w = .ok v → P v → P w ∧ ∀ a ∈ rest.values hides w, P a
  | .nil, hf, w, v, hv, hPv => by
    cases hv
    exact ⟨hPv, List.forall_mem_nil P⟩
  | .add p rest, hf, w, v, hv, hPv => by
    obtain ⟨x, hx, hrest⟩ := bind_eq_ok.mp hv
    obtain ⟨hPsum, hvalues⟩ := Addends.inherited hP rest hf.tail.right hrest hPv
    obtain ⟨hPw, hPx⟩ := hP.add hPsum
    exact ⟨hPw, forall_mem_append_after (Product.inherited hP p hf.tail.left hx hPx) hx
      (List.forall_mem_cons.mpr ⟨hPsum, hvalues⟩)⟩
  | .subtract p rest, hf, w, v, hv, hPv => by
    obtain ⟨x, hx, hrest⟩ := bind_eq_ok.mp hv
    obtain ⟨hPdifference, hvalues⟩ := Addends.inherited hP rest hf.tail.right hrest hPv
    obtain ⟨hPw, hPx⟩ := hP.sub hPdifference
    exact ⟨hPw, forall_mem_append_after (Product.inherited hP p hf.tail.left hx hPx) hx
      (List.forall_mem_cons.mpr ⟨hPdifference, hvalues⟩)⟩
termination_by structural rest => rest

theorem Product.inherited (hP : Inherited hides P) {signed : Bool} : ∀ (p : Product signed),
    FunctionsInherit P p.tokens → ∀ {v : Float}, p.value = .ok v → P v → ∀ a ∈ p.values hides, P a
  | .mk o rest, hf, v, hv, hPv => by
    obtain ⟨x, hx, hrest⟩ := bind_eq_ok.mp hv
    obtain ⟨hPx, hvalues⟩ := Multipliers.inherited hP rest hf.right hrest hPv
    exact forall_mem_append_after (Operand.inherited hP o hf.left hx hPx) hx hvalues
termination_by structural p => p

theorem Multipliers.inherited (hP : Inherited hides P) : ∀ (rest : Multipliers), FunctionsInherit P rest.tokens →
    ∀ {w v : Float}, rest.value w = .ok v → P v → P w ∧ ∀ a ∈ rest.values hides w, P a
  | .nil, hf, w, v, hv, hPv => by
    cases hv
    exact ⟨hPv, List.forall_mem_nil P⟩
  | .multiply o rest, hf, w, v, hv, hPv => by
    obtain ⟨x, hx, hrest⟩ := bind_eq_ok.mp hv
    obtain ⟨hPproduct, hvalues⟩ := Multipliers.inherited hP rest hf.tail.right hrest hPv
    obtain ⟨hPw, hPx⟩ := hP.mul hPproduct
    exact ⟨hPw, forall_mem_append_after (Operand.inherited hP o hf.tail.left hx hPx) hx
      (List.forall_mem_cons.mpr ⟨hPproduct, hvalues⟩)⟩
  | .divide o rest, hf, w, v, hv, hPv => by
    obtain ⟨x, hx, hq⟩ := bind_eq_ok.mp hv
    obtain ⟨q, hq, hrest⟩ := bind_eq_ok.mp hq
    obtain ⟨hPq, hvalues⟩ := Multipliers.inherited hP rest hf.tail.right hrest hPv
    obtain ⟨hPw, hPx⟩ := hP.div (eq_of_quotient hq ▸ hPq)
    refine ⟨hPw, forall_mem_append_after ?_ hx ?_⟩
    · -- the divisor shows its values only if it is none that hides them
      rw [hx]
      change ∀ a ∈ if hides x = true then [] else o.values hides, P a
      split_ifs with hhides
      · exact List.forall_mem_nil P
      · exact Operand.inherited hP o hf.tail.left hx (hPx (Bool.eq_false_of_not_eq_true hhides))
    · rw [hq]
      exact List.forall_mem_cons.mpr ⟨hPq, hvalues⟩
termination_by structural rest => rest

theorem Operand.inherited (hP : Inherited hides P) {signed : Bool} : ∀ (o : Operand signed),
    FunctionsInherit P o.tokens → ∀ {v : Float}, o.value = .ok v → P v → ∀ a ∈ o.values hides, P a
  | .plain f, hf, v, hv, hPv => Factor.inherited hP f hf hv hPv
  | .negated f, hf, v, hv, hPv => by
    obtain ⟨x, hx, hneg⟩ := bind_eq_ok.mp hv
    cases hneg
    exact forall_mem_append_after (Factor.inherited hP f hf.tail hx (hP.neg hPv)) hx
      (List.forall_mem_singleton.mpr hPv)
termination_by structural o => o

theorem Factor.inherited (hP : Inherited hides P) : ∀ (f : Factor), FunctionsInherit P f.tokens → ∀ {v : Float},
    f.value = .ok v → P v → ∀ a ∈ f.values hides, P a
  | .number w, hf, v, hv, hPv => by
    cases hv
    exact List.forall_mem_singleton.mpr hPv
  | .paren s, hf, v, hv, hPv => Sum.inherited hP s hf.tail.left hv hPv
  | .call f s, hf, v, hv, hPv => by
    obtain ⟨x, hx, hfx⟩ := bind_eq_ok.mp hv
    have hPx := hf f List.mem_cons_self x v hfx hPv
    refine forall_mem_append_after (Sum.inherited hP s hf.tail.tail.left hx hPx) hx ?_
    rw [hfx]
    exact List.forall_mem_singleton.mpr hPv
termination_by structural f => f

end

end Inherited

/-- NaN is no number for the functions among the tokens either. -/
def FunctionsKeepNaN (ts : List Token) : Prop :=
  ∀ f, .function f ∈ ts → ∀ x : Float, x.isNaN = true → (f.value x).isNaN = true

theorem eq_of_apply {f : Trig} {x v : Float} (h : f.apply x = .ok v) : x.isInf = false ∧ v = f.value x := by
  unfold Trig.apply at h
  split_ifs at h with hx
  cases h
  exact ⟨Bool.eq_false_of_not_eq_true hx, rfl⟩

namespace FunctionsKeepNaN

variable {ts : List Token} (h : FunctionsKeepNaN ts)

include h

theorem not_isNaN : FunctionsInherit (fun x => x.isNaN = false) ts := by
  intro f hf x v hv hvn
  obtain ⟨-, rfl⟩ := eq_of_apply hv
  by_contra hx
  have hnan := h f hf x (Bool.eq_true_of_not_eq_false hx)
  exact Bool.false_ne_true (hvn.symm.trans hnan)

/-- A function has no value at the infinities. -/
theorem isFinite : FunctionsInherit (fun x => x.isFinite = true) ts := by
  intro f hf x v hv hvf
  exact Binary.isFinite_iff.mpr ⟨(eq_of_apply hv).1, h.not_isNaN f hf x v hv (Binary.isNaN_of_isFinite hvf)⟩

end FunctionsKeepNaN

theorem inherited_isFinite : Inherited Float.isInf (fun x => x.isFinite = true) where
  add := Binary.isFinite_of_add
  sub := Binary.isFinite_of_sub
  mul := Binary.isFinite_of_mul
  div := Binary.isFinite_of_div
  neg := Binary.isFinite_of_neg

theorem inherited_not_isNaN : Inherited (fun _ => false) (fun x => x.isNaN = false) where
  add := Binary.isNaN_of_add
  sub := Binary.isNaN_of_sub
  mul := Binary.isNaN_of_mul
  div h := ⟨(Binary.isNaN_of_div h).1, fun _ => (Binary.isNaN_of_div h).2⟩
  neg := Binary.isNaN_of_neg

end Grammar

open Grammar

theorem value_of_evaluateTokens {s : Sum} {v : Float} (h : evaluateTokens s.tokens = .ok v) :
    s.value = .ok v ∧ v.isFinite = true := by
  obtain ⟨t, ht, htokens⟩ := exists_sum_of_evaluateTokens h
  cases Sum.tokens_inj htokens
  rw [evaluateTokens_tokens ht] at h
  obtain ⟨w, hw, hfinite⟩ := bind_eq_ok.mp h
  unfold finiteResult at hfinite
  split_ifs at hfinite with hwf
  cases hfinite
  exact ⟨hw, hwf⟩

/-- An expression has a value only if all values it is made of are finite, but for infinities in a divisor that comes
to an infinity itself. -/
theorem evaluateTokens_overflow (s : Sum) (hnan : FunctionsKeepNaN s.tokens) :
    ((∃ a ∈ s.values Float.isInf, a.isFinite = false) ∨ (∃ a ∈ s.values fun _ => false, a.isNaN = true) →
      ∃ e, evaluateTokens s.tokens = .error e) ∧
    ∀ v, evaluateTokens s.tokens = .ok v → v.isFinite = true ∧
      (∀ a ∈ s.values Float.isInf, a.isFinite = true) ∧ ∀ a ∈ s.values fun _ => false, a.isNaN = false := by
  have hfinite : ∀ v, evaluateTokens s.tokens = .ok v → v.isFinite = true ∧
      (∀ a ∈ s.values Float.isInf, a.isFinite = true) ∧ ∀ a ∈ s.values fun _ => false, a.isNaN = false := by
    intro v h
    obtain ⟨hv, hvf⟩ := value_of_evaluateTokens h
    exact ⟨hvf, s.inherited inherited_isFinite hnan.isFinite hv hvf,
      s.inherited inherited_not_isNaN hnan.not_isNaN hv (Binary.isNaN_of_isFinite hvf)⟩
  refine ⟨fun hbad => ?_, hfinite⟩
  cases h : evaluateTokens s.tokens with
  | error e => exact ⟨e, rfl⟩
  | ok v =>
    obtain ⟨-, hall, hnumbers⟩ := hfinite v h
    rcases hbad with ⟨a, ha, hbad⟩ | ⟨a, ha, hbad⟩
    · exact (Bool.false_ne_true (hbad.symm.trans (hall a ha))).elim
    · exact (Bool.false_ne_true ((hnumbers a ha).symm.trans hbad)).elim

def tooGreat : Factor :=
  .paren (.mk (.mk (.plain (.number 1e308)) (.multiply (.plain (.number 10.0)) .nil)) .nil)

/-- The difference of two such products is NaN, and one over such a product is zero. -/
theorem evaluateTokens_overflow_tooGreat :
    (FunctionsKeepNaN (tooGreat.combine .subtract tooGreat).tokens ∧
      (∃ a ∈ (tooGreat.combine .subtract tooGreat).values fun _ => false, a.isNaN = true) ∧
      ∃ e, evaluateTokens (tooGreat.combine .subtract tooGreat).tokens = .error e) ∧
    FunctionsKeepNaN ((Factor.number 1.0).combine .divide tooGreat).tokens ∧
      evaluateTokens ((Factor.number 1.0).combine .divide tooGreat).tokens = .ok 0.0 ∧
      ∀ a ∈ ((Factor.number 1.0).combine .divide tooGreat).values Float.isInf, a.isFinite = true := by
  have hsub : FunctionsKeepNaN (tooGreat.combine .subtract tooGreat).tokens := by
    intro f hf
    cases f <;> exact absurd hf (by decide)
  have hdiv : FunctionsKeepNaN ((Factor.number 1.0).combine .divide tooGreat).tokens := by
    intro f hf
    cases f <;> exact absurd hf (by decide)
  have hNaN : ∃ a ∈ (tooGreat.combine .subtract tooGreat).values fun _ => false, a.isNaN = true := by decide +kernel
  have hvalue : evaluateTokens ((Factor.number 1.0).combine .divide tooGreat).tokens = .ok 0.0 := by decide +kernel
  exact ⟨⟨hsub, hNaN, (evaluateTokens_overflow _ hsub).1 (Or.inr hNaN)⟩, hdiv, hvalue,
    ((evaluateTokens_overflow _ hdiv).2 _ hvalue).2.1⟩

/-- What is finite divided by an infinity is zero, and nothing tells that the divisor was too great. -/
theorem not_error_of_divisor : ¬ ∀ s : Sum, (∃ a ∈ s.values fun _ => false, a.isFinite = false) →
    ∃ e, evaluateTokens s.tokens = .error e := by
  intro h
  have hvalue : evaluateTokens ((Factor.number 1.0).combine .divide tooGreat).tokens = .ok 0.0 := by decide +kernel
  obtain ⟨e, he⟩ := h ((Factor.number 1.0).combine .divide tooGreat) (by decide +kernel)
  rw [hvalue] at he
  cases he

end TalkingCalculator
