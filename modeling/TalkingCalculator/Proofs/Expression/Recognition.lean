import TalkingCalculator.Expression.Evaluation

/-!
# Recognition of a language

A language is a set of rows of tokens with their outcomes. A reader reads a language if it takes exactly the rows
of it from the start of its tokens, with their outcomes, as far as nothing more can belong to them. When it stops
earlier with an error of arithmetic, the tokens up to there begin a row that has this error, and no tokens after
them can change it.

`Chain.reads_followedBy` is the one loop of an evaluation: items, each combined with the value before it by the
operator in front of it.
-/

namespace TalkingCalculator

abbrev Language := List Token → Except EvaluationError Float → Prop

/-- Every row that begins as a row of the language has this error, and some row of it does. -/
def Language.Dooms (L : Language) (p : List Token) (e : EvaluationError) : Prop :=
  ∃ us, L us (.error e) ∧ p <+: us

theorem Language.Dooms.prepend {L L' : Language} {p : List Token} {e : EvaluationError} (h : L.Dooms p e)
    (w : List Token) (hL : ∀ us, L us (.error e) → L' (w ++ us) (.error e)) : L'.Dooms (w ++ p) e := by
  obtain ⟨us, hus, hp⟩ := h
  exact ⟨w ++ us, hL us hus, (List.prefix_append_right_inj w).mpr hp⟩

theorem bind_eq_ok {α β : Type} {x : Except EvaluationError α} {f : α → Except EvaluationError β} {b : β} :
    x >>= f = .ok b ↔ ∃ a, x = .ok a ∧ f a = .ok b := by
  cases x <;> simp [bind, Except.bind]

theorem bind_eq_error {α β : Type} {x : Except EvaluationError α} {f : α → Except EvaluationError β}
    {e : EvaluationError} : x >>= f = .error e ↔ x = .error e ∨ ∃ a, x = .ok a ∧ f a = .error e := by
  cases x <;> simp [bind, Except.bind]

/-- `read`, which knows how many tokens the whole expression has, reads the rows of `L` from the start of its
tokens, as far as the rest may follow them. -/
structure Reads (L : Language) (Ends : List Token → Prop)
    (read : Nat → List Token → Except EvaluationError (Float × List Token)) : Prop where
  complete (total : Nat) {us : List Token} {x : Except EvaluationError Float} (hL : L us x)
    {rest : List Token} (hrest : Ends rest) : read total (us ++ rest) = x.map (·, rest)
  sound {total : Nat} {ts : List Token} {v : Float} {rest : List Token}
    (h : read total ts = .ok (v, rest)) : ∃ us, L us (.ok v) ∧ us ++ rest = ts ∧ Ends rest
  failed {total : Nat} {ts : List Token} {e : EvaluationError} (h : read total ts = .error e) :
    e.isStructural ∨ ∃ p, p ≠ [] ∧ p <+: ts ∧ L.Dooms p e ∧
      ∀ total us, read total (p ++ us) = .error e

theorem Reads.congr {L L' : Language} {Ends Ends' : List Token → Prop}
    {read read' : Nat → List Token → Except EvaluationError (Float × List Token)}
    (h : Reads L Ends read) (hL : ∀ us x, L us x ↔ L' us x) (hE : ∀ ts, Ends ts ↔ Ends' ts)
    (hr : ∀ total ts, read total ts = read' total ts) : Reads L' Ends' read' := by
  have hL' : L = L' := by
    funext us x
    exact propext (hL us x)
  have hE' : Ends = Ends' := by
    funext ts
    exact propext (hE ts)
  have hr' : read = read' := by
    funext total ts
    exact hr total ts
  subst hL' hE' hr'
  exact h

/-- Rows of tokens that go on with a value, each with the outcome it has from there. -/
abbrev Tails := List Token → (Float → Except EvaluationError Float) → Prop

def Language.followedBy (first : Language) (tails : Tails) : Language :=
  fun us x => ∃ vs ws y k, first vs y ∧ tails ws k ∧ vs ++ ws = us ∧ y >>= k = x

/-- A loop that reads items, each after an operator that combines it with the value before it. -/
structure Chain where
  continues : Operator → Prop
  items : Operator → Language
  combine : Operator → Float → Float → Except EvaluationError Float
  tails : Tails
  /-- What may follow an item. -/
  Ends : List Token → Prop
  readItem : Operator → Nat → List Token → Except EvaluationError (Float × List Token)
  loop : Float → Nat → List Token → Except EvaluationError (Float × List Token)
  tails_nil : tails [] .ok
  tails_cons {op : Operator} {us vs : List Token} {x : Except EvaluationError Float}
    {k : Float → Except EvaluationError Float} (hop : continues op) (hx : items op us x)
    (hk : tails vs k) :
    tails (.operator op :: (us ++ vs)) fun v => x >>= fun w => combine op v w >>= k
  tails_cases {us : List Token} {k : Float → Except EvaluationError Float} (hk : tails us k) :
    us = [] ∧ k = .ok ∨ ∃ op vs ws x k', continues op ∧ items op vs x ∧ tails ws k' ∧
      us = .operator op :: (vs ++ ws) ∧ k = fun v => x >>= fun w => combine op v w >>= k'
  ends_operator {op : Operator} (ts : List Token) (hop : continues op) : Ends (.operator op :: ts)
  ends_of_error {op : Operator} {v w : Float} {e : EvaluationError} (h : combine op v w = .error e)
    (ts : List Token) : Ends ts
  reads_item {op : Operator} (hop : continues op) : Reads (items op) Ends (readItem op)
  loop_operator {op : Operator} (v : Float) (total : Nat) (ts : List Token) (hop : continues op) :
    loop v total (.operator op :: ts) =
      readItem op total ts >>= fun r => combine op v r.1 >>= fun w => loop w total r.2
  loop_stop (v : Float) (total : Nat) {ts : List Token}
    (h : ∀ op, continues op → ts.head? ≠ some (.operator op)) : loop v total ts = .ok (v, ts)

namespace Chain

variable (c : Chain)

def Stops (ts : List Token) : Prop :=
  c.Ends ts ∧ ∀ op, c.continues op → ts.head? ≠ some (.operator op)

theorem ends_append {us rest : List Token} {k : Float → Except EvaluationError Float}
    (hk : c.tails us k) (hrest : c.Ends rest) : c.Ends (us ++ rest) := by
  rcases c.tails_cases hk with ⟨rfl, -⟩ | ⟨op, vs, ws, x, k', hop, -, -, rfl, -⟩
  · exact hrest
  · exact c.ends_operator _ hop

theorem stops_or_operator {ts : List Token} (h : c.Ends ts) :
    c.Stops ts ∨ ∃ op us, c.continues op ∧ ts = .operator op :: us := by
  by_cases hs : ∃ op, c.continues op ∧ ts.head? = some (.operator op)
  · obtain ⟨op, hop, ht⟩ := hs
    obtain ⟨us, rfl⟩ := List.head?_eq_some_iff.mp ht
    exact Or.inr ⟨op, us, hop, rfl⟩
  · exact Or.inl ⟨h, fun op hop ht => hs ⟨op, hop, ht⟩⟩

theorem loop_complete (total : Nat) {us : List Token} {k : Float → Except EvaluationError Float}
    (hk : c.tails us k) (v : Float) {rest : List Token} (hrest : c.Stops rest) :
    c.loop v total (us ++ rest) = (k v).map (·, rest) := by
  induction hn : us.length using Nat.strongRecOn generalizing us k v with
  | _ n ih =>
    rcases c.tails_cases hk with ⟨rfl, rfl⟩ | ⟨op, vs, ws, x, k', hop, hx, hk', rfl, rfl⟩
    · exact c.loop_stop v total hrest.2
    · rw [List.cons_append, c.loop_operator v total _ hop, List.append_assoc,
        (c.reads_item hop).complete total hx (c.ends_append hk' hrest.1)]
      cases x with
      | error e => rfl
      | ok w =>
        simp only [bind, Except.bind, Except.map]
        cases hq : c.combine op v w with
        | error e => rfl
        | ok q =>
          have hlt : ws.length < n := by
            simp only [List.length_cons, List.length_append] at hn
            omega
          exact ih ws.length hlt hk' q rfl

theorem loop_sound {total : Nat} {v : Float} {ts : List Token} (hts : c.Ends ts) {w : Float}
    {rest : List Token} (h : c.loop v total ts = .ok (w, rest)) :
    ∃ us k, c.tails us k ∧ k v = .ok w ∧ us ++ rest = ts ∧ c.Stops rest := by
  induction hn : ts.length using Nat.strongRecOn generalizing ts v with
  | _ n ih =>
    rcases c.stops_or_operator hts with hs | ⟨op, us, hop, rfl⟩
    · rw [c.loop_stop v total hs.2] at h
      cases h
      exact ⟨[], _, c.tails_nil, rfl, rfl, hs⟩
    · rw [c.loop_operator v total us hop] at h
      obtain ⟨⟨x, us'⟩, hr, hbind⟩ := bind_eq_ok.mp h
      obtain ⟨q, hq, hloop⟩ := bind_eq_ok.mp hbind
      obtain ⟨vs, hx, rfl, hend⟩ := (c.reads_item hop).sound hr
      have hlt : us'.length < n := by
        simp only [List.length_cons, List.length_append] at hn
        omega
      obtain ⟨ws, k, hk, hkq, rfl, hstop⟩ := ih us'.length hlt hend hloop rfl
      refine ⟨_, _, c.tails_cons hop hx hk, ?_, by simp, hstop⟩
      exact bind_eq_ok.mpr ⟨x, rfl, bind_eq_ok.mpr ⟨q, hq, hkq⟩⟩

/-- A chain that fails has begun with an operator, and so does every row that fails with it. -/
theorem loop_failed {total : Nat} {v : Float} {ts : List Token} (hts : c.Ends ts)
    {e : EvaluationError} (h : c.loop v total ts = .error e) :
    e.isStructural ∨ ∃ p, p ≠ [] ∧ p <+: ts ∧ (∃ us k, c.tails us k ∧ k v = .error e ∧ p <+: us) ∧
      (∀ us, c.Ends (p ++ us)) ∧ ∀ total us, c.loop v total (p ++ us) = .error e := by
  induction hn : ts.length using Nat.strongRecOn generalizing ts v with
  | _ n ih =>
    rcases c.stops_or_operator hts with hs | ⟨op, us, hop, rfl⟩
    · rw [c.loop_stop v total hs.2] at h
      cases h
    · rw [c.loop_operator v total us hop] at h
      rcases bind_eq_error.mp h with hr | ⟨⟨x, us'⟩, hr, hbind⟩
      · rcases (c.reads_item hop).failed hr with he | ⟨p, -, hp, ⟨vs, hL, hpv⟩, hall⟩
        · exact Or.inl he
        · refine Or.inr ⟨.operator op :: p, by simp, by simpa using hp,
            ⟨_, _, c.tails_cons hop hL c.tails_nil, rfl, by simpa using hpv⟩,
            fun _ => c.ends_operator _ hop, fun total us => ?_⟩
          rw [List.cons_append, c.loop_operator v total _ hop, hall total us]
          rfl
      obtain ⟨vs, hx, rfl, hend⟩ := (c.reads_item hop).sound hr
      rcases bind_eq_error.mp hbind with hq | ⟨q, hq, hloop⟩
      · have hfree := c.ends_of_error hq
        refine Or.inr ⟨.operator op :: vs, by simp, by simp,
          ⟨_, _, c.tails_cons hop hx c.tails_nil, ?_, by simp⟩,
          fun _ => c.ends_operator _ hop, fun total us => ?_⟩
        · exact bind_eq_error.mpr (Or.inr ⟨x, rfl, bind_eq_error.mpr (Or.inl hq)⟩)
        · rw [List.cons_append, c.loop_operator v total _ hop,
            (c.reads_item hop).complete total hx (hfree us)]
          exact bind_eq_error.mpr (Or.inr ⟨_, rfl, bind_eq_error.mpr (Or.inl hq)⟩)
      · have hlt : us'.length < n := by
          simp only [List.length_cons, List.length_append] at hn
          omega
        rcases ih us'.length hlt hend hloop rfl with he | ⟨p, -, hp, ⟨ws, k, hk, hkq, hpw⟩, hends, hall⟩
        · exact Or.inl he
        · refine Or.inr ⟨.operator op :: (vs ++ p), by simp, by simpa using hp,
            ⟨_, _, c.tails_cons hop hx hk, ?_, by simpa using hpw⟩,
            fun _ => c.ends_operator _ hop, fun total us => ?_⟩
          · exact bind_eq_error.mpr (Or.inr ⟨x, rfl, bind_eq_error.mpr (Or.inr ⟨q, hq, hkq⟩)⟩)
          · rw [List.cons_append, c.loop_operator v total _ hop, List.append_assoc,
              (c.reads_item hop).complete total hx (hends us)]
            exact bind_eq_error.mpr (Or.inr ⟨_, rfl, bind_eq_error.mpr (Or.inr ⟨q, hq, hall total us⟩)⟩)

/-- An item and the chain after it. -/
theorem reads_followedBy {first : Language}
    {readFirst : Nat → List Token → Except EvaluationError (Float × List Token)}
    (hfirst : Reads first c.Ends readFirst) :
    Reads (first.followedBy c.tails) c.Stops
      fun total ts => readFirst total ts >>= fun r => c.loop r.1 total r.2 where
  complete total us x hL rest hrest := by
    obtain ⟨vs, ws, y, k, hy, hk, rfl, rfl⟩ := hL
    rw [List.append_assoc, hfirst.complete total hy (c.ends_append hk hrest.1)]
    cases y with
    | error e => rfl
    | ok v => exact c.loop_complete total hk v hrest
  sound {total ts w rest} h := by
    obtain ⟨⟨v, ts'⟩, hr, hloop⟩ := bind_eq_ok.mp h
    obtain ⟨us, hL, rfl, hend⟩ := hfirst.sound hr
    obtain ⟨ws, k, hk, hkv, rfl, hstop⟩ := c.loop_sound hend hloop
    exact ⟨us ++ ws, ⟨us, ws, _, k, hL, hk, rfl, hkv⟩, by simp, hstop⟩
  failed {total ts e} h := by
    rcases bind_eq_error.mp h with hr | ⟨⟨v, ts'⟩, hr, hloop⟩
    · rcases hfirst.failed hr with he | ⟨p, hne, hp, ⟨us, hL, hpu⟩, hall⟩
      · exact Or.inl he
      · refine Or.inr ⟨p, hne, hp, ⟨us, ⟨us, [], _, _, hL, c.tails_nil, by simp, rfl⟩, hpu⟩,
          fun total us => ?_⟩
        rw [hall total us]
        rfl
    · obtain ⟨us, hL, rfl, hend⟩ := hfirst.sound hr
      rcases c.loop_failed hend hloop with he | ⟨p, hne, hp, ⟨ws, k, hk, hkv, hpw⟩, hends, hall⟩
      · exact Or.inl he
      · refine Or.inr ⟨us ++ p, by simp [hne], by simpa using hp,
          ⟨us ++ ws, ⟨us, ws, _, k, hL, hk, rfl, hkv⟩, by simpa using hpw⟩, fun total vs => ?_⟩
        rw [List.append_assoc, hfirst.complete total hL (hends vs)]
        exact hall total vs

end Chain

end TalkingCalculator
