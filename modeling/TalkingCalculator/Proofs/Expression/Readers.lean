import TalkingCalculator.Proofs.Expression.Grammar
import TalkingCalculator.Proofs.Expression.Recognition

/-!
# Readers recognise the grammar

Each reader of an evaluation reads the language of its trees if the reader of groups does, which by induction on
the nesting that is left it does.
-/

namespace TalkingCalculator

/-- What was read and what is left, without the bound on it. -/
def unbounded {bound : Nat} (x : Except EvaluationError (Reading bound)) :
    Except EvaluationError (Float × List Token) :=
  x.map fun r => (r.value, r.rest)

@[simp] theorem unbounded_ok {bound : Nat} (r : Reading bound) :
    unbounded (.ok r) = .ok (r.value, r.rest) := rfl

@[simp] theorem unbounded_error {bound : Nat} (e : EvaluationError) :
    unbounded (.error e : Except EvaluationError (Reading bound)) = .error e := rfl

namespace Reader

variable (total : Nat) (group : Reader)

theorem unbounded_factor_paren (ts : List Token) :
    unbounded (factor total group (.leftParen :: ts)) = unbounded (group ts) := by
  rw [factor]
  cases group ts <;> rfl

theorem unbounded_factor_call (f : Trig) (ts : List Token) :
    unbounded (factor total group (.function f :: .leftParen :: ts)) =
      unbounded (group ts) >>= fun r => f.apply r.1 >>= fun v => .ok (v, r.2) := by
  rw [factor]
  cases hg : group ts with
  | error e => rfl
  | ok r =>
    cases hv : f.apply r.value <;> simp [bind, Except.bind, hv]

theorem unbounded_operand_minus (ts : List Token) :
    unbounded (operand total group true (.operator .subtract :: ts)) =
      unbounded (factor total group ts) >>= fun r => .ok (-r.1, r.2) := by
  rw [operand, if_pos rfl]
  cases factor total group ts <;> rfl

theorem operand_of_ne (signed : Bool) (ts : List Token)
    (h : signed = true → ts.head? ≠ some (.operator .subtract)) :
    operand total group signed ts = factor total group ts := by
  unfold operand
  split
  · next rest =>
    cases signed with
    | false => rfl
    | true => exact (h rfl rfl).elim
  · rfl

theorem unbounded_products_multiply (v : Float) (ts : List Token) :
    unbounded (products total group v (.operator .multiply :: ts)) =
      unbounded (operand total group true ts) >>= fun r =>
        unbounded (products total group (v * r.1) r.2) := by
  rw [products]
  cases operand total group true ts with
  | error e => rfl
  | ok r =>
    simp only [bind, Except.bind, unbounded_ok]
    cases products total group (v * r.value) r.rest <;> rfl

theorem unbounded_products_divide (v : Float) (ts : List Token) :
    unbounded (products total group v (.operator .divide :: ts)) =
      unbounded (operand total group true ts) >>= fun r => quotient v r.1 >>= fun q =>
        unbounded (products total group q r.2) := by
  rw [products]
  cases operand total group true ts with
  | error e => rfl
  | ok r =>
    simp only [bind, Except.bind, unbounded_ok]
    cases quotient v r.value with
    | error e => rfl
    | ok q =>
      simp only []
      cases products total group q r.rest <;> rfl

theorem unbounded_products_end (v : Float) {ts : List Token} (h : Grammar.ProductEnds ts) :
    unbounded (products total group v ts) = .ok (v, ts) := by
  unfold products
  split
  · exact (h.ne_multiply rfl).elim
  · exact (h.ne_divide rfl).elim
  · rfl

theorem unbounded_product (signed : Bool) (ts : List Token) :
    unbounded (product total group signed ts) =
      unbounded (operand total group signed ts) >>= fun r =>
        unbounded (products total group r.1 r.2) := by
  rw [product]
  cases operand total group signed ts with
  | error e => rfl
  | ok r =>
    simp only [bind, Except.bind, unbounded_ok]
    cases products total group r.value r.rest <;> rfl

theorem unbounded_sums_add (v : Float) (ts : List Token) :
    unbounded (sums total group v (.operator .add :: ts)) =
      unbounded (product total group true ts) >>= fun r =>
        unbounded (sums total group (v + r.1) r.2) := by
  rw [sums]
  cases product total group true ts with
  | error e => rfl
  | ok r =>
    simp only [bind, Except.bind, unbounded_ok]
    cases sums total group (v + r.value) r.rest <;> rfl

theorem unbounded_sums_subtract (v : Float) (ts : List Token) :
    unbounded (sums total group v (.operator .subtract :: ts)) =
      unbounded (product total group false ts) >>= fun r =>
        unbounded (sums total group (v - r.1) r.2) := by
  rw [sums]
  cases product total group false ts with
  | error e => rfl
  | ok r =>
    simp only [bind, Except.bind, unbounded_ok]
    cases sums total group (v - r.value) r.rest <;> rfl

theorem unbounded_sums_end (v : Float) {ts : List Token} (ha : ts.head? ≠ some (.operator .add))
    (hs : ts.head? ≠ some (.operator .subtract)) : unbounded (sums total group v ts) = .ok (v, ts) := by
  unfold sums
  split
  · exact (ha rfl).elim
  · exact (hs rfl).elim
  · rfl

theorem unbounded_sum (ts : List Token) :
    unbounded (sum total group ts) =
      unbounded (product total group true ts) >>= fun r =>
        unbounded (sums total group r.1 r.2) := by
  rw [sum]
  cases product total group true ts with
  | error e => rfl
  | ok r =>
    simp only [bind, Except.bind, unbounded_ok]
    cases sums total group r.value r.rest <;> rfl

theorem unbounded_group_succ (room : Nat) (ts : List Token) (h : ts.head? ≠ some .rightParen) :
    unbounded (Reader.group total (room + 1) ts) =
      unbounded (sum total (Reader.group total room) ts) >>= fun r =>
        match r.2 with
        | .rightParen :: us => .ok (r.1, us)
        | _ => .error .unclosedParens := by
  rw [Reader.group]
  dsimp only
  split
  · exact (h rfl).elim
  · cases sum total (Reader.group total room) ts with
    | error e => rfl
    | ok r =>
      obtain ⟨v, rest, hr⟩ := r
      rcases rest with _ | ⟨t, us⟩
      · rfl
      · cases t <;> rfl

end Reader

open Grammar

def Sums (room : Nat) : Language :=
  fun us x => ∃ s : Sum, s.depth ≤ room ∧ s.tokens = us ∧ s.value = x

def Products (room : Nat) (signed : Bool) : Language :=
  fun us x => ∃ p : Product signed, p.depth ≤ room ∧ p.tokens = us ∧ p.value = x

def Operands (room : Nat) (signed : Bool) : Language :=
  fun us x => ∃ o : Operand signed, o.depth ≤ room ∧ o.tokens = us ∧ o.value = x

def Factors (room : Nat) : Language :=
  fun us x => ∃ f : Factor, f.depth ≤ room ∧ f.tokens = us ∧ f.value = x

/-- What stands between an opening parenthesis and the one that closes it, this one included. -/
def Groups (room : Nat) : Language :=
  fun us x => ∃ s : Sum, s.depth + 1 ≤ room ∧ s.tokens ++ [.rightParen] = us ∧ s.value = x

abbrev AnyEnd (_ : List Token) : Prop := True

variable {room : Nat} {g : Nat → Reader}

theorem factors_paren {us : List Token} {x : Except EvaluationError Float} (h : Groups room us x) :
    Factors room (.leftParen :: us) x := by
  obtain ⟨s, hd, rfl, rfl⟩ := h
  exact ⟨.paren s, hd, rfl, rfl⟩

theorem factors_call (f : Trig) {us : List Token} {x : Except EvaluationError Float} (h : Groups room us x) :
    Factors room (.function f :: .leftParen :: us) (x >>= f.apply) := by
  obtain ⟨s, hd, rfl, rfl⟩ := h
  exact ⟨.call f s, hd, rfl, rfl⟩

theorem factors_cases {us : List Token} {x : Except EvaluationError Float} (h : Factors room us x) :
    (∃ v, us = [.number v] ∧ x = .ok v) ∨ (∃ vs, us = .leftParen :: vs ∧ Groups room vs x) ∨
      ∃ f vs y, us = .function f :: .leftParen :: vs ∧ Groups room vs y ∧ x = y >>= f.apply := by
  obtain ⟨t, hd, rfl, rfl⟩ := h
  cases t with
  | number v => exact Or.inl ⟨v, rfl, rfl⟩
  | paren s => exact Or.inr (Or.inl ⟨_, rfl, s, hd, rfl, rfl⟩)
  | call f s => exact Or.inr (Or.inr ⟨f, _, _, rfl, ⟨s, hd, rfl, rfl⟩, rfl⟩)

/-- Where no factor begins, the tokens alone are to blame. -/
theorem factor_shape (total : Nat) (group : Reader) (ts : List Token) :
    (∃ v rest, ts = .number v :: rest) ∨ (∃ rest, ts = .leftParen :: rest) ∨
      (∃ f rest, ts = .function f :: .leftParen :: rest) ∨
      ∃ e, unbounded (Reader.factor total group ts) = .error e ∧ e.isStructural := by
  rcases ts with _ | ⟨t, ts⟩
  · exact Or.inr (Or.inr (Or.inr ⟨_, rfl, rfl⟩))
  cases t with
  | number v => exact Or.inl ⟨v, ts, rfl⟩
  | leftParen => exact Or.inr (Or.inl ⟨ts, rfl⟩)
  | function f =>
    rcases ts with _ | ⟨t, ts⟩
    · exact Or.inr (Or.inr (Or.inr ⟨_, rfl, rfl⟩))
    cases t with
    | leftParen => exact Or.inr (Or.inr (Or.inl ⟨f, ts, rfl⟩))
    | _ => exact Or.inr (Or.inr (Or.inr ⟨_, rfl, rfl⟩))
  | _ => exact Or.inr (Or.inr (Or.inr ⟨_, rfl, rfl⟩))

theorem factor_complete (hg : Reads (Groups room) AnyEnd fun total ts => unbounded (g total ts)) (total : Nat)
    {us : List Token} {x : Except EvaluationError Float} (h : Factors room us x) (rest : List Token) :
    unbounded (Reader.factor total (g total) (us ++ rest)) = x.map (·, rest) := by
  rcases factors_cases h with ⟨v, rfl, rfl⟩ | ⟨vs, rfl, hL⟩ | ⟨f, vs, y, rfl, hL, rfl⟩
  · rfl
  · rw [List.cons_append, Reader.unbounded_factor_paren]
    exact hg.complete total hL trivial
  · rw [List.cons_append, List.cons_append, Reader.unbounded_factor_call, hg.complete total hL trivial]
    cases y with
    | error e => rfl
    | ok v => cases hv : f.apply v <;> simp [bind, Except.bind, Except.map, hv]

theorem factor_sound (hg : Reads (Groups room) AnyEnd fun total ts => unbounded (g total ts)) {total : Nat}
    {ts : List Token} {v : Float} {rest : List Token}
    (h : unbounded (Reader.factor total (g total) ts) = .ok (v, rest)) :
    ∃ us, Factors room us (.ok v) ∧ us ++ rest = ts := by
  rcases factor_shape total (g total) ts with ⟨w, ts, rfl⟩ | ⟨ts, rfl⟩ | ⟨f, ts, rfl⟩ | ⟨e, he, -⟩
  · cases h
    exact ⟨[.number w], ⟨.number w, Nat.zero_le _, rfl, rfl⟩, rfl⟩
  · rw [Reader.unbounded_factor_paren] at h
    obtain ⟨us, hL, rfl, -⟩ := hg.sound h
    exact ⟨_, factors_paren hL, rfl⟩
  · rw [Reader.unbounded_factor_call] at h
    obtain ⟨⟨x, us⟩, hr, hbind⟩ := bind_eq_ok.mp h
    obtain ⟨w, hw, heq⟩ := bind_eq_ok.mp hbind
    cases heq
    obtain ⟨vs, hL, rfl, -⟩ := hg.sound hr
    have hcall := factors_call f hL
    rw [show (Except.ok x >>= f.apply) = .ok v from hw] at hcall
    exact ⟨_, hcall, rfl⟩
  · rw [he] at h
    cases h

theorem factor_failed (hg : Reads (Groups room) AnyEnd fun total ts => unbounded (g total ts)) {total : Nat}
    {ts : List Token} {e : EvaluationError} (h : unbounded (Reader.factor total (g total) ts) = .error e) :
    e.isStructural ∨ ∃ p, p ≠ [] ∧ p <+: ts ∧ (Factors room).Dooms p e ∧
      ∀ total us, unbounded (Reader.factor total (g total) (p ++ us)) = .error e := by
  rcases factor_shape total (g total) ts with ⟨w, ts, rfl⟩ | ⟨ts, rfl⟩ | ⟨f, ts, rfl⟩ | ⟨e', he', hstructural⟩
  · cases h
  · rw [Reader.unbounded_factor_paren] at h
    rcases hg.failed h with he | ⟨p, -, hp, hdoom, hall⟩
    · exact Or.inl he
    · refine Or.inr ⟨[.leftParen] ++ p, by simp, by simpa using hp,
        hdoom.prepend [.leftParen] fun _ => factors_paren, fun total us => ?_⟩
      rw [List.append_assoc, List.singleton_append, Reader.unbounded_factor_paren]
      exact hall total us
  · rw [Reader.unbounded_factor_call] at h
    rcases bind_eq_error.mp h with hr | ⟨⟨x, us⟩, hr, hbind⟩
    · rcases hg.failed hr with he | ⟨p, -, hp, hdoom, hall⟩
      · exact Or.inl he
      · refine Or.inr ⟨[.function f, .leftParen] ++ p, by simp, by simpa using hp,
          hdoom.prepend [.function f, .leftParen] fun _ => factors_call f, fun total us => ?_⟩
        rw [List.append_assoc, List.cons_append, List.singleton_append, Reader.unbounded_factor_call, hall total us]
        rfl
    · obtain ⟨vs, hL, rfl, -⟩ := hg.sound hr
      -- the function has no value at the value of its group, whatever comes after
      have hv : f.apply x = .error e := by
        rcases bind_eq_error.mp hbind with hv | ⟨w, -, hw⟩
        · exact hv
        · cases hw
      have hcall := factors_call f hL
      rw [show (Except.ok x >>= f.apply) = .error e from hv] at hcall
      exact Or.inr ⟨_, List.cons_ne_nil _ _, by simp, ⟨_, hcall, List.prefix_refl _⟩,
        fun total us => factor_complete hg total hcall us⟩
  · rw [he'] at h
    cases h
    exact Or.inl hstructural

theorem reads_factor (hg : Reads (Groups room) AnyEnd fun total ts => unbounded (g total ts)) :
    Reads (Factors room) AnyEnd fun total ts => unbounded (Reader.factor total (g total) ts) where
  complete total _ _ hL rest _ := factor_complete hg total hL rest
  sound h := by
    obtain ⟨us, hL, hts⟩ := factor_sound hg h
    exact ⟨us, hL, hts, trivial⟩
  failed h := factor_failed hg h

theorem operands_plain {signed : Bool} {us : List Token} {x : Except EvaluationError Float}
    (h : Factors room us x) : Operands room signed us x := by
  obtain ⟨f, hd, rfl, rfl⟩ := h
  exact ⟨.plain f, hd, rfl, rfl⟩

theorem operands_negated {us : List Token} {x : Except EvaluationError Float} (h : Factors room us x) :
    Operands room true (.operator .subtract :: us) (x >>= fun v => .ok (-v)) := by
  obtain ⟨f, hd, rfl, rfl⟩ := h
  exact ⟨.negated f, hd, rfl, rfl⟩

theorem head?_append_left {p ts : List Token} (hp : p <+: ts) (hne : p ≠ []) (us : List Token) :
    (p ++ us).head? = ts.head? := by
  obtain ⟨vs, rfl⟩ := hp
  rw [List.head?_append, List.head?_append]
  cases p with
  | nil => exact (hne rfl).elim
  | cons t p => rfl

/-- Whether an operand begins with its minus. -/
theorem operand_shape (signed : Bool) (ts : List Token) :
    (signed = true ∧ ∃ us, ts = .operator .subtract :: us) ∨
      (signed = true → ts.head? ≠ some (.operator .subtract)) := by
  by_cases hm : signed = true ∧ ts.head? = some (.operator .subtract)
  · obtain ⟨us, hus⟩ := List.head?_eq_some_iff.mp hm.2
    exact Or.inl ⟨hm.1, us, hus⟩
  · exact Or.inr fun hs hh => hm ⟨hs, hh⟩

theorem operand_complete (hg : Reads (Groups room) AnyEnd fun total ts => unbounded (g total ts)) (total : Nat)
    {signed : Bool} {us : List Token} {x : Except EvaluationError Float} (h : Operands room signed us x)
    (rest : List Token) :
    unbounded (Reader.operand total (g total) signed (us ++ rest)) = x.map (·, rest) := by
  obtain ⟨o, hd, rfl, rfl⟩ := h
  cases o with
  | plain f =>
    rw [Reader.operand_of_ne]
    · exact (reads_factor hg).complete total ⟨f, hd, rfl, rfl⟩ trivial
    · intro _ hh
      obtain ⟨ts, hts⟩ := List.head?_eq_some_iff.mp hh
      exact f.tokens_ne_operator .subtract rest ts hts
  | negated f =>
    rw [Operand.tokens, List.cons_append, Reader.unbounded_operand_minus,
      (reads_factor hg).complete total ⟨f, hd, rfl, rfl⟩ trivial, Operand.value]
    cases f.value <;> rfl

theorem operand_sound (hg : Reads (Groups room) AnyEnd fun total ts => unbounded (g total ts)) {total : Nat}
    {signed : Bool} {ts : List Token} {v : Float} {rest : List Token}
    (h : unbounded (Reader.operand total (g total) signed ts) = .ok (v, rest)) :
    ∃ us, Operands room signed us (.ok v) ∧ us ++ rest = ts := by
  rcases operand_shape signed ts with ⟨rfl, us, rfl⟩ | hne
  · rw [Reader.unbounded_operand_minus] at h
    obtain ⟨⟨w, us'⟩, hr, heq⟩ := bind_eq_ok.mp h
    cases heq
    obtain ⟨vs, hL, rfl, -⟩ := (reads_factor hg).sound hr
    exact ⟨_, operands_negated hL, rfl⟩
  · rw [Reader.operand_of_ne total _ signed ts hne] at h
    obtain ⟨us, hL, rfl, -⟩ := (reads_factor hg).sound h
    exact ⟨us, operands_plain hL, rfl⟩

theorem operand_failed (hg : Reads (Groups room) AnyEnd fun total ts => unbounded (g total ts)) {total : Nat}
    {signed : Bool} {ts : List Token} {e : EvaluationError}
    (h : unbounded (Reader.operand total (g total) signed ts) = .error e) :
    e.isStructural ∨ ∃ p, p ≠ [] ∧ p <+: ts ∧ (Operands room signed).Dooms p e ∧
      ∀ total us, unbounded (Reader.operand total (g total) signed (p ++ us)) = .error e := by
  rcases operand_shape signed ts with ⟨rfl, us, rfl⟩ | hne
  · rw [Reader.unbounded_operand_minus] at h
    have hr : unbounded (Reader.factor total (g total) us) = .error e := by
      rcases bind_eq_error.mp h with hr | ⟨r, -, hr⟩
      · exact hr
      · cases hr
    rcases (reads_factor hg).failed hr with he | ⟨p, -, hp, hdoom, hall⟩
    · exact Or.inl he
    · refine Or.inr ⟨[.operator .subtract] ++ p, by simp, by simpa using hp,
        hdoom.prepend [.operator .subtract] fun _ => operands_negated, fun total us => ?_⟩
      rw [List.append_assoc, List.singleton_append, Reader.unbounded_operand_minus, hall total us]
      rfl
  · rw [Reader.operand_of_ne total _ signed ts hne] at h
    rcases (reads_factor hg).failed h with he | ⟨p, hp0, hp, ⟨us, hL, hpu⟩, hall⟩
    · exact Or.inl he
    · refine Or.inr ⟨p, hp0, hp, ⟨us, operands_plain hL, hpu⟩, fun total us => ?_⟩
      rw [Reader.operand_of_ne total _ signed (p ++ us)]
      · exact hall total us
      · rwa [head?_append_left hp hp0]

theorem reads_operand (hg : Reads (Groups room) AnyEnd fun total ts => unbounded (g total ts))
    (signed : Bool) : Reads (Operands room signed) AnyEnd
      fun total ts => unbounded (Reader.operand total (g total) signed ts) where
  complete total _ _ hL rest _ := operand_complete hg total hL rest
  sound h := by
    obtain ⟨us, hL, hts⟩ := operand_sound hg h
    exact ⟨us, hL, hts, trivial⟩
  failed h := operand_failed hg h

def productChain (hg : Reads (Groups room) AnyEnd fun total ts => unbounded (g total ts)) : Chain where
  continues op := op = .multiply ∨ op = .divide
  items _ := Operands room true
  combine op v w := if op = .divide then quotient v w else .ok (v * w)
  tails us k := ∃ m : Multipliers, m.depth ≤ room ∧ m.tokens = us ∧ m.value = k
  Ends := AnyEnd
  readItem _ total ts := unbounded (Reader.operand total (g total) true ts)
  loop v total ts := unbounded (Reader.products total (g total) v ts)
  tails_nil := ⟨.nil, Nat.zero_le _, rfl, by funext v; rfl⟩
  tails_cons hop hx hk := by
    obtain ⟨o, hod, rfl, rfl⟩ := hx
    obtain ⟨m, hmd, rfl, rfl⟩ := hk
    rcases hop with rfl | rfl
    · exact ⟨.multiply o m, Nat.max_le.mpr ⟨hod, hmd⟩, rfl, by funext v; rfl⟩
    · exact ⟨.divide o m, Nat.max_le.mpr ⟨hod, hmd⟩, rfl, by funext v; rfl⟩
  tails_cases hk := by
    obtain ⟨m, hmd, rfl, rfl⟩ := hk
    cases m with
    | nil => exact Or.inl ⟨rfl, by funext v; rfl⟩
    | multiply o m =>
      obtain ⟨hod, hmd⟩ := Nat.max_le.mp hmd
      exact Or.inr ⟨.multiply, _, _, _, _, Or.inl rfl, ⟨o, hod, rfl, rfl⟩, ⟨m, hmd, rfl, rfl⟩, rfl,
        by funext v; rfl⟩
    | divide o m =>
      obtain ⟨hod, hmd⟩ := Nat.max_le.mp hmd
      exact Or.inr ⟨.divide, _, _, _, _, Or.inr rfl, ⟨o, hod, rfl, rfl⟩, ⟨m, hmd, rfl, rfl⟩, rfl,
        by funext v; rfl⟩
  ends_operator _ _ := trivial
  ends_of_error _ _ := trivial
  reads_item _ := reads_operand hg true
  loop_operator v total ts hop := by
    rcases hop with rfl | rfl
    · exact Reader.unbounded_products_multiply total (g total) v ts
    · exact Reader.unbounded_products_divide total (g total) v ts
  loop_stop v total ts h :=
    Reader.unbounded_products_end total (g total) v ⟨h .multiply (Or.inl rfl), h .divide (Or.inr rfl)⟩

theorem followedBy_multipliers (hg : Reads (Groups room) AnyEnd fun total ts => unbounded (g total ts))
    (signed : Bool) (us : List Token) (x : Except EvaluationError Float) :
    (Operands room signed).followedBy (productChain hg).tails us x ↔ Products room signed us x := by
  constructor
  · rintro ⟨vs, ws, y, k, ⟨o, hod, rfl, rfl⟩, ⟨m, hmd, rfl, rfl⟩, rfl, rfl⟩
    exact ⟨.mk o m, Nat.max_le.mpr ⟨hod, hmd⟩, rfl, rfl⟩
  · rintro ⟨⟨o, m⟩, hd, rfl, rfl⟩
    obtain ⟨hod, hmd⟩ := Nat.max_le.mp hd
    exact ⟨_, _, _, _, ⟨o, hod, rfl, rfl⟩, ⟨m, hmd, rfl, rfl⟩, rfl, rfl⟩

theorem reads_product (hg : Reads (Groups room) AnyEnd fun total ts => unbounded (g total ts))
    (signed : Bool) : Reads (Products room signed) ProductEnds
      fun total ts => unbounded (Reader.product total (g total) signed ts) := by
  apply ((productChain hg).reads_followedBy (reads_operand hg signed)).congr
  · exact followedBy_multipliers hg signed
  · intro ts
    constructor
    · exact fun h => ⟨h.2 .multiply (Or.inl rfl), h.2 .divide (Or.inr rfl)⟩
    · rintro ⟨hm, hd⟩
      refine ⟨trivial, ?_⟩
      rintro op (rfl | rfl)
      · exact hm
      · exact hd
  · intro total ts
    exact (Reader.unbounded_product total (g total) signed ts).symm

/-- The chain of products in a sum; one that is taken away may not begin with a minus. -/
def sumChain (hg : Reads (Groups room) AnyEnd fun total ts => unbounded (g total ts)) : Chain where
  continues op := op = .add ∨ op = .subtract
  items op := Products room (op = .add)
  combine op v w := .ok (if op = .add then v + w else v - w)
  tails us k := ∃ a : Addends, a.depth ≤ room ∧ a.tokens = us ∧ a.value = k
  Ends := ProductEnds
  readItem op total ts := unbounded (Reader.product total (g total) (op = .add) ts)
  loop v total ts := unbounded (Reader.sums total (g total) v ts)
  tails_nil := ⟨.nil, Nat.zero_le _, rfl, by funext v; rfl⟩
  tails_cons hop hx hk := by
    obtain ⟨p, hpd, rfl, rfl⟩ := hx
    obtain ⟨a, had, rfl, rfl⟩ := hk
    rcases hop with rfl | rfl
    · exact ⟨.add p a, Nat.max_le.mpr ⟨hpd, had⟩, rfl, by funext v; rfl⟩
    · exact ⟨.subtract p a, Nat.max_le.mpr ⟨hpd, had⟩, rfl, by funext v; rfl⟩
  tails_cases hk := by
    obtain ⟨a, had, rfl, rfl⟩ := hk
    cases a with
    | nil => exact Or.inl ⟨rfl, by funext v; rfl⟩
    | add p a =>
      obtain ⟨hpd, had⟩ := Nat.max_le.mp had
      exact Or.inr ⟨.add, _, _, _, _, Or.inl rfl, ⟨p, hpd, rfl, rfl⟩, ⟨a, had, rfl, rfl⟩, rfl,
        by funext v; rfl⟩
    | subtract p a =>
      obtain ⟨hpd, had⟩ := Nat.max_le.mp had
      exact Or.inr ⟨.subtract, _, _, _, _, Or.inr rfl, ⟨p, hpd, rfl, rfl⟩, ⟨a, had, rfl, rfl⟩, rfl,
        by funext v; rfl⟩
  ends_operator ts hop := by
    rcases hop with rfl | rfl <;> simp [ProductEnds]
  ends_of_error h := by cases h
  reads_item _ := reads_product hg _
  loop_operator v total ts hop := by
    rcases hop with rfl | rfl
    · exact Reader.unbounded_sums_add total (g total) v ts
    · exact Reader.unbounded_sums_subtract total (g total) v ts
  loop_stop v total ts h :=
    Reader.unbounded_sums_end total (g total) v (h .add (Or.inl rfl)) (h .subtract (Or.inr rfl))

theorem followedBy_addends (hg : Reads (Groups room) AnyEnd fun total ts => unbounded (g total ts))
    (us : List Token) (x : Except EvaluationError Float) :
    (Products room true).followedBy (sumChain hg).tails us x ↔ Sums room us x := by
  constructor
  · rintro ⟨vs, ws, y, k, ⟨p, hpd, rfl, rfl⟩, ⟨a, had, rfl, rfl⟩, rfl, rfl⟩
    exact ⟨.mk p a, Nat.max_le.mpr ⟨hpd, had⟩, rfl, rfl⟩
  · rintro ⟨⟨p, a⟩, hd, rfl, rfl⟩
    obtain ⟨hpd, had⟩ := Nat.max_le.mp hd
    exact ⟨_, _, _, _, ⟨p, hpd, rfl, rfl⟩, ⟨a, had, rfl, rfl⟩, rfl, rfl⟩

theorem reads_sum (hg : Reads (Groups room) AnyEnd fun total ts => unbounded (g total ts)) :
    Reads (Sums room) SumEnds fun total ts => unbounded (Reader.sum total (g total) ts) := by
  apply ((sumChain hg).reads_followedBy (reads_product hg true)).congr
  · exact followedBy_addends hg
  · intro ts
    constructor
    · rintro ⟨⟨hm, hd⟩, has⟩ op
      cases op with
      | add => exact has .add (Or.inl rfl)
      | subtract => exact has .subtract (Or.inr rfl)
      | multiply => exact hm
      | divide => exact hd
    · exact fun h => ⟨h.productEnds, fun op _ => h op⟩
  · intro total ts
    exact (Reader.unbounded_sum total (g total) ts).symm

variable (ih : Reads (Groups room) AnyEnd fun total ts => unbounded (Reader.group total room ts))

include ih

theorem group_complete (total : Nat) {us : List Token} {x : Except EvaluationError Float}
    (h : Groups (room + 1) us x) (rest : List Token) :
    unbounded (Reader.group total (room + 1) (us ++ rest)) = x.map (·, rest) := by
  obtain ⟨s, hd, rfl, rfl⟩ := h
  rw [List.append_assoc, Reader.unbounded_group_succ total room _ (s.head?_ne_rightParen _), List.singleton_append,
    (reads_sum ih).complete total ⟨s, by omega, rfl, rfl⟩ (sumEnds_rightParen rest)]
  cases s.value <;> rfl

theorem group_sound {total : Nat} {ts : List Token} {v : Float} {rest : List Token}
    (h : unbounded (Reader.group total (room + 1) ts) = .ok (v, rest)) :
    ∃ us, Groups (room + 1) us (.ok v) ∧ us ++ rest = ts := by
  by_cases hne : ts.head? = some .rightParen
  · obtain ⟨us, rfl⟩ := List.head?_eq_some_iff.mp hne
    cases h
  rw [Reader.unbounded_group_succ total room ts hne] at h
  obtain ⟨⟨w, us⟩, hr, hclose⟩ := bind_eq_ok.mp h
  obtain ⟨vs, ⟨s, hd, rfl, hs⟩, rfl, -⟩ := (reads_sum ih).sound hr
  rcases us with _ | ⟨t, us⟩
  · cases hclose
  · cases t with
    | rightParen =>
      cases hclose
      exact ⟨_, ⟨s, by omega, rfl, hs⟩, by simp⟩
    | _ => cases hclose

theorem group_failed {total : Nat} {ts : List Token} {e : EvaluationError}
    (h : unbounded (Reader.group total (room + 1) ts) = .error e) :
    e.isStructural ∨ ∃ p, p ≠ [] ∧ p <+: ts ∧ (Groups (room + 1)).Dooms p e ∧
      ∀ total us, unbounded (Reader.group total (room + 1) (p ++ us)) = .error e := by
  by_cases hne : ts.head? = some .rightParen
  · obtain ⟨us, rfl⟩ := List.head?_eq_some_iff.mp hne
    cases h
    exact Or.inl rfl
  rw [Reader.unbounded_group_succ total room ts hne] at h
  rcases bind_eq_error.mp h with hr | ⟨⟨w, us⟩, -, hclose⟩
  · rcases (reads_sum ih).failed hr with he | ⟨p, hp0, hp, ⟨us, ⟨s, hd, rfl, hs⟩, hpu⟩, hall⟩
    · exact Or.inl he
    · refine Or.inr ⟨p, hp0, hp, ⟨_, ⟨s, by omega, rfl, hs⟩, hpu.trans (List.prefix_append _ _)⟩,
        fun total us => ?_⟩
      rw [Reader.unbounded_group_succ total room, hall total us]
      · rfl
      · rwa [head?_append_left hp hp0]
  · rcases us with _ | ⟨t, us⟩
    · cases hclose
      exact Or.inl rfl
    · cases t <;> cases hclose <;> exact Or.inl rfl

omit ih

theorem reads_group (room : Nat) :
    Reads (Groups room) AnyEnd fun total ts => unbounded (Reader.group total room ts) := by
  induction room with
  | zero =>
    constructor
    · rintro total us x ⟨s, hd, -, -⟩ rest -
      omega
    · intro total ts v rest h
      cases h
    · intro total ts e h
      cases h
      exact Or.inl rfl
  | succ room ih =>
    constructor
    · intro total us x hL rest _
      exact group_complete ih total hL rest
    · intro total ts v rest h
      obtain ⟨us, hL, hts⟩ := group_sound ih h
      exact ⟨us, hL, hts, trivial⟩
    · intro total ts e h
      exact group_failed ih h

end TalkingCalculator
