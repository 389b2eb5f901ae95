import TalkingCalculator.Proofs.Expression.Progress

/-!
# Calls of the parser

A call of a procedure reads what its reader reads, whoever waits for it. If it succeeds, it leaves as many parentheses
open as it found, has taken a token, and has not gone behind the end; every turn of a loop takes two tokens at least. The
parentheses that are open are limited, and with them the expressions that are read at the same time.
-/
namespace TalkingCalculator

open Relation

namespace Routine

def isLoop : Routine → Bool
  | sums _ | products _ => true
  | expression | term _ | unary _ | factor | parenthesized => false

def phrase : Routine → Phrase
  | expression | sums _ => .expression
  | term _ | products _ => .term
  | unary _ => .operand
  | factor | parenthesized => .factor

/-- What an evaluation reads where the routine runs, when `room` levels of nesting are left. -/
def read (room : Nat) (r : Routine) : Recogniser := fun total ts =>
  match r with
  | expression => unbounded (Reader.sum total (Reader.group total room) ts)
  | sums v => unbounded (Reader.sums total (Reader.group total room) v ts)
  | term allowMinus => unbounded (Reader.product total (Reader.group total room) allowMinus ts)
  | products v => unbounded (Reader.products total (Reader.group total room) v ts)
  | unary allowMinus => unbounded (Reader.operand total (Reader.group total room) allowMinus ts)
  | factor => unbounded (Reader.factor total (Reader.group total room) ts)
  | parenthesized => unbounded (Reader.group total room ts)

theorem exists_follows {r : Routine} (tokens : List Token) (room : Nat) (hr : r.isLoop = false) :
    ∃ L, Follows tokens room L (r.read room) r := by
  have hg : Follows tokens room (Groups room) _ .parenthesized := follows_group room
  cases r with
  | expression => exact ⟨_, follows_sum (reads_group room) hg⟩
  | term allowMinus => exact ⟨_, follows_product (reads_group room) hg allowMinus⟩
  | unary allowMinus => exact ⟨_, follows_operand allowMinus hg⟩
  | factor => exact ⟨_, follows_factor hg⟩
  | parenthesized => exact ⟨_, hg⟩
  | sums v | products v => cases hr

end Routine

namespace Pending

def gives : Pending → Phrase
  | sums | add _ | subtract _ => .expression
  | products | multiply _ | divide _ => .term
  | negate => .operand
  | apply _ | close => .factor

def opened : Pending → Nat
  | close => 1
  | _ => 0

end Pending

namespace Control

/-- Whether a value has been read that the call goes on with or returns. -/
def hasValue : Control → Bool
  | run r => r.isLoop
  | value _ => true

end Control

/-- In a call that reads `phrase` from the depth `depth` on and returns to `base`, the calls of a list wait for another
phrase, at another depth. -/
inductive Awaits (base : List Pending) (phrase : Phrase) (depth : Nat) : Phrase → Nat → List Pending → Prop
  | base : Awaits base phrase depth phrase depth base
  | wait {f l d ps} (hf : f.takes = l) (h : Awaits base phrase depth f.gives d ps) :
    Awaits base phrase depth l (d + f.opened) (f :: ps)
  | plain {d ps} (h : Awaits base phrase depth .operand d ps) : Awaits base phrase depth .factor d ps

namespace Pending

variable {f : Pending}

theorem gives_of_takes_term (h : f.takes = .term) : f.gives = .expression ∧ f.opened = 0 := by
  cases f with
  | sums | add | subtract => exact ⟨rfl, rfl⟩
  | _ => cases h

theorem gives_of_takes_operand (h : f.takes = .operand) : f.gives = .term ∧ f.opened = 0 := by
  cases f with
  | products | multiply | divide => exact ⟨rfl, rfl⟩
  | _ => cases h

theorem opened_of_takes_factor (h : f.takes = .factor) : f.opened = 0 := by
  cases f with
  | negate | apply => rfl
  | _ => cases h

end Pending

namespace Awaits

variable {base ps : List Pending} {phrase l : Phrase} {depth d : Nat} {f : Pending}

theorem suffix (h : Awaits base phrase depth l d ps) : base <:+ ps := by
  induction h with
  | base => exact List.suffix_refl base
  | @wait f _ _ _ _ _ ih => exact ih.trans (List.suffix_cons f _)
  | plain _ ih => exact ih

/-- When nothing waits but the calls before, the depth is that of the start. -/
theorem depth_eq (h : Awaits base phrase depth l d base) : d = depth := by
  have hlength : ∀ {l d ps}, Awaits base phrase depth l d ps → d = depth ∨ base.length < ps.length := by
    intro l d ps h
    induction h with
    | base => exact Or.inl rfl
    | wait _ h _ => exact Or.inr (Nat.lt_succ_of_le h.suffix.length_le)
    | plain _ ih => exact ih
  exact (hlength h).resolve_right (Nat.lt_irrefl _)

/-- A call that opens no parenthesis waits at the depth at which it will return. -/
theorem push {l' : Phrase} (h : Awaits base phrase depth l' d ps) (hgives : f.gives = l') (htakes : f.takes = l)
    (hopened : f.opened = 0) : Awaits base phrase depth l d (f :: ps) := by
  subst hgives
  have hwait := wait htakes h
  rwa [hopened] at hwait

/-- What the last call will return is what the others wait for. -/
theorem pop (h : Awaits base phrase depth l d (f :: ps)) (hne : f :: ps ≠ base) :
    ∃ d', d = d' + f.opened ∧ Awaits base phrase depth f.gives d' ps := by
  generalize hqs : f :: ps = qs at h
  induction h with
  | base => exact absurd hqs hne
  | wait _ h _ =>
    cases hqs
    exact ⟨_, rfl, h⟩
  | plain _ ih => exact ih hqs

theorem pop_plain {l' : Phrase} (h : Awaits base phrase depth l d (f :: ps)) (hne : f :: ps ≠ base)
    (hgives : f.gives = l') (hopened : f.opened = 0) : Awaits base phrase depth l' d ps := by
  obtain ⟨d', hd, h'⟩ := h.pop hne
  rw [hopened, Nat.add_zero] at hd
  rwa [hd, ← hgives]

/-- As many expressions wait for a term as parentheses are open, and one more between parentheses. -/
theorem count_term (h : Awaits [] .expression 0 l d ps) :
    ps.countP (fun f => f.takes = .term) = d + if l = .expression then 0 else 1 := by
  induction h with
  | base => rfl
  | @wait f l d ps hf _ ih =>
    subst hf
    rw [List.countP_cons, ih]
    cases f <;> simp [Pending.takes, Pending.gives, Pending.opened]
  | plain _ ih => exact ih

end Awaits

def Parsing.frame (base : List Pending) (p : Parsing) : Parsing :=
  { p with pending := p.pending ++ base }

def Transition.frame (base : List Pending) : Transition → Transition
  | next p => next (p.frame base)
  | stop result c => stop result c

namespace Parsing

section Frames

variable {tokens : List Token} (c : Cursor) (ps base : List Pending)

theorem call_append (r : Routine) : call tokens c (ps ++ base) r = (call tokens c ps r).frame base := by
  cases r with
  | expression | term allowMinus => rfl
  | sums v | products v | unary allowMinus =>
    simp only [call]
    split <;> rfl
  | factor =>
    simp only [call]
    split
    case h_3 => split <;> rfl
    all_goals rfl
  | parenthesized =>
    simp only [call]
    split
    · rfl
    · split <;> rfl

theorem resume_append (v : Float) (f : Pending) :
    resume tokens c v (f :: ps ++ base) = (resume tokens c v (f :: ps)).frame base := by
  cases f with
  | sums | add w | subtract w | products | multiply w | negate => rfl
  | divide w | apply f | close =>
    simp only [List.cons_append, resume]
    split <;> rfl

end Frames

section Calls

variable {tokens : List Token} {base : List Pending} {phrase : Phrase} {start c : Cursor} {p q : Parsing} {n : Nat}

def Returned (base : List Pending) (p : Parsing) : Prop :=
  p.pending = base ∧ ∃ v, p.control = .value v

/-- A step of a call that has not returned to `base` yet. -/
def CallStep (tokens : List Token) (base : List Pending) (p q : Parsing) : Prop :=
  ¬ Returned base p ∧ step tokens p = .next q

def During (tokens : List Token) (base : List Pending) : Parsing → Parsing → Prop :=
  ReflTransGen (CallStep tokens base)

/-- The state belongs to a call that reads `phrase` from `start` on and returns to `base`. -/
structure Inside (base : List Pending) (phrase : Phrase) (start : Cursor) (p : Parsing) : Prop where
  awaits : ∃ l, Awaits base phrase start.depth l p.cursor.depth p.pending ∧ ∀ r, p.control = .run r → r.phrase = l
  depth_le : p.cursor.depth ≤ maxNesting

theorem Inside.run {r : Routine} {ps : List Pending} (h : Awaits base phrase start.depth r.phrase c.depth ps)
    (hd : c.depth ≤ maxNesting) : Inside base phrase start ⟨.run r, c, ps⟩ := by
  refine ⟨⟨_, h, ?_⟩, hd⟩
  rintro _ ⟨⟩
  rfl

theorem Inside.value {v : Float} {l : Phrase} {ps : List Pending} (h : Awaits base phrase start.depth l c.depth ps)
    (hd : c.depth ≤ maxNesting) : Inside base phrase start ⟨.value v, c, ps⟩ :=
  ⟨⟨l, h, nofun⟩, hd⟩

theorem Inside.step (h : Inside base phrase start p) (hopen : ¬ Returned base p) (hmoves : Moves tokens p q) :
    Inside base phrase start q := by
  obtain ⟨⟨l, hl, hphrase⟩, hd⟩ := h
  have hne : ∀ {v c ps}, p = ⟨.value v, c, ps⟩ → ps ≠ base := by
    rintro v c ps rfl hbase
    exact hopen ⟨hbase, v, rfl⟩
  cases hmoves with
  | expression =>
    cases hphrase _ rfl
    exact .run (hl.push rfl rfl rfl) hd
  | sum _ hf =>
    cases hphrase _ rfl
    obtain ⟨hgives, hopened⟩ := Pending.gives_of_takes_term hf
    exact .run (hl.push hgives hf hopened) hd
  | sumsEnd | productsEnd | number => exact .value hl hd
  | term =>
    cases hphrase _ rfl
    exact .run (hl.push rfl rfl rfl) hd
  | product _ hf =>
    cases hphrase _ rfl
    obtain ⟨hgives, hopened⟩ := Pending.gives_of_takes_operand hf
    exact .run (hl.push hgives hf hopened) hd
  | minus =>
    cases hphrase _ rfl
    exact .run (hl.push rfl rfl rfl) hd
  | plain =>
    cases hphrase _ rfl
    exact .run (.plain hl) hd
  | paren =>
    cases hphrase _ rfl
    exact .run hl hd
  | function =>
    cases hphrase _ rfl
    exact .run (hl.push rfl rfl rfl) hd
  | @inside c ps hdepth =>
    cases hphrase _ rfl
    exact .run (.wait (f := .close) rfl hl) hdepth
  | added hf =>
    obtain ⟨hgives, hopened⟩ := Pending.gives_of_takes_term hf
    exact .run (hl.pop_plain (hne rfl) hgives hopened) hd
  | multiplied hf =>
    obtain ⟨hgives, hopened⟩ := Pending.gives_of_takes_operand hf
    exact .run (hl.pop_plain (hne rfl) hgives hopened) hd
  | changed hf => exact .value (hl.pop_plain (hne rfl) rfl (Pending.opened_of_takes_factor hf)) hd
  | @closed v c ps =>
    obtain ⟨d, hdepth, h⟩ := hl.pop (hne rfl)
    have hleft : c.depth - 1 = d := by rw [hdepth]; rfl
    exact .value (c := .advance { c with depth := c.depth - 1 }) (hleft ▸ h) (Nat.le_trans (Nat.sub_le _ _) hd)

/-- The cursor is at `n` or behind, and where there is a value a token was taken for it. -/
structure Ahead (tokens : List Token) (n : Nat) (p : Parsing) : Prop where
  le : n ≤ p.cursor.position
  lt : p.control.hasValue = true → n < p.cursor.position ∧ p.cursor.position ≤ tokens.length

theorem Ahead.step (h : Ahead tokens n p) (hmoves : Moves tokens p q) : Ahead tokens n q := by
  obtain ⟨hle, hlt⟩ := h
  cases hmoves with
  | expression | term | plain | inside => exact ⟨hle, nofun⟩
  | sum | product | minus | paren => exact ⟨Nat.le_succ_of_le hle, nofun⟩
  | function => exact ⟨Nat.le_succ_of_le (Nat.le_succ_of_le hle), nofun⟩
  | sumsEnd | productsEnd | added | multiplied | changed => exact ⟨hle, fun _ => hlt rfl⟩
  | number ht | closed ht => exact ⟨Nat.le_succ_of_le hle, fun _ => ⟨Nat.lt_succ_of_le hle, ht⟩⟩

theorem During.inside (h : During tokens base p q) (hp : Inside base phrase start p) : Inside base phrase start q := by
  induction h with
  | refl => exact hp
  | tail _ hstep ih => exact ih.step hstep.1 (moves_of_step hstep.2)

theorem During.ahead (h : During tokens base p q) (hp : Ahead tokens n p) : Ahead tokens n q := by
  induction h with
  | refl => exact hp
  | tail _ hstep ih => exact ih.step (moves_of_step hstep.2)

variable {result : Except EvaluationError Float}

theorem error_of_call {d : Cursor} {ps : List Pending} {r : Routine} (h : call tokens d ps r = .stop result c) :
    ∃ e, result = .error e := by
  cases r <;> simp only [call] at h <;> repeat' split at h
  all_goals cases h <;> exact ⟨_, rfl⟩

theorem error_of_resume {d : Cursor} {v : Float} {f : Pending} {ps : List Pending}
    (h : resume tokens d v (f :: ps) = .stop result c) : ∃ e, result = .error e := by
  cases f <;> simp only [resume] at h <;> repeat' split at h
  all_goals cases h <;> exact ⟨_, rfl⟩

/-- Only a value that no call waits for ends a parsing well. -/
theorem stop_cases (h : step tokens p = .stop result c) : (∃ e, result = .error e) ∨ Returned [] p := by
  obtain ⟨control, d, ps⟩ := p
  cases control with
  | run r => exact Or.inl (error_of_call h)
  | value v =>
    cases ps with
    | nil => exact Or.inr ⟨rfl, v, rfl⟩
    | cons f ps => exact Or.inl (error_of_resume h)

/-- A call comes to an end: it returns, or it stops the parsing with an error. -/
theorem exists_end (hp : Inside base phrase start p) :
    ∃ q, During tokens base p q ∧ (Returned base q ∨ ∃ e c, step tokens q = .stop (.error e) c) := by
  induction hn : measure tokens p using Nat.strongRecOn generalizing p with
  | ind n ih =>
    by_cases hreturned : Returned base p
    · exact ⟨p, .refl, Or.inl hreturned⟩
    cases hstep : step tokens p with
    | next q =>
      have hmoves := moves_of_step hstep
      obtain ⟨r, hr, hend⟩ := ih _ (hn ▸ measure_lt hmoves) (hp.step hreturned hmoves) rfl
      exact ⟨r, .head ⟨hreturned, hstep⟩ hr, hend⟩
    | stop result c =>
      rcases stop_cases hstep with ⟨e, rfl⟩ | ⟨hnil, hvalue⟩
      · exact ⟨p, .refl, Or.inr ⟨e, c, hstep⟩⟩
      · obtain ⟨l, hl, -⟩ := hp.awaits
        have hbase : base = [] := List.suffix_nil.mp (hnil ▸ hl.suffix)
        exact absurd ⟨hnil.trans hbase.symm, hvalue⟩ hreturned

/-- Nothing goes on from the value of the whole. -/
theorem Reaches.during (h : Reaches tokens p q) : During tokens [] p q := by
  refine ReflTransGen.mono ?_ _ _ h
  rintro ⟨control, c, ps⟩ q hstep
  refine ⟨?_, hstep⟩
  rintro ⟨rfl, v, rfl⟩
  cases moves_of_step hstep

theorem During.reaches (h : During tokens base p q) : Reaches tokens p q :=
  ReflTransGen.mono (fun _ _ hstep => hstep.2) _ _ h

theorem returned_frame (h : Returned base (p.frame base)) : Returned [] p :=
  ⟨List.append_left_eq_self.mp h.1, h.2⟩

theorem step_frame (h : ¬ Returned [] p) (base : List Pending) :
    step tokens (p.frame base) = (step tokens p).frame base := by
  obtain ⟨control, c, ps⟩ := p
  cases control with
  | run r => exact call_append c ps base r
  | value v =>
    cases ps with
    | nil => exact absurd ⟨rfl, v, rfl⟩ h
    | cons f ps => exact resume_append c ps base v f

theorem During.frame (h : During tokens [] p q) (base : List Pending) :
    During tokens base (p.frame base) (q.frame base) := by
  refine ReflTransGen.lift (Parsing.frame base) ?_ _ _ h
  rintro p q ⟨hopen, hstep⟩
  exact ⟨fun hreturned => hopen (returned_frame hreturned), by rw [step_frame hopen, hstep]; rfl⟩

/-- A parsing goes one way only. -/
theorem Stops.of_reaches {d : Cursor} (h : Stops tokens p result d) (hq : Reaches tokens p q) :
    Stops tokens q result d := by
  induction hq with
  | refl => exact h
  | tail _ hstep ih =>
    obtain ⟨r, hr, hstop⟩ := ih
    rcases hr.cases_head with rfl | ⟨r', hstep', hr'⟩
    · cases hstep.symm.trans hstop
    · cases hstep.symm.trans hstep'
      exact ⟨r, hr', hstop⟩

/-- What remains unread is blamed otherwise after the whole than in a parenthesis. -/
theorem stops_close_ne {v : Float} {e : EvaluationError} {d d' : Cursor}
    (h : step tokens ⟨.value v, c, []⟩ = .stop (.error e) d) :
    ¬ Stops tokens ⟨.value v, c, [.close]⟩ (.error e) d' := by
  simp only [step, resume] at h
  split at h <;> cases h
  rintro ⟨q, hq, hstop⟩
  rcases hq.cases_head with rfl | ⟨q', hstep, hq'⟩
  · simp only [step, resume] at hstop
    split at hstop <;> cases hstop
  simp only [step, resume] at hstep
  split at hstep <;> cases hstep
  rcases hq'.cases_head with rfl | ⟨q'', hstep', -⟩
  · -- the parenthesis has been closed, so what is blamed stands one further
    simp only [step, resume, Cursor.advance] at hstop
    split at hstop
    · simp at hstop
    · cases hstop
  · cases moves_of_step hstep'

def ComesTo (tokens : List Token) (base : List Pending) (d : Nat) (p : Parsing) :
    Except EvaluationError (Float × List Token) → Prop
  | .ok (v, rest) => During tokens base p ⟨.value v, .before tokens rest d, base⟩
  | .error e => ∃ q c, During tokens base p q ∧ step tokens q = .stop (.error e) c

theorem comesTo_read {r : Routine} {d room : Nat} {ts : List Token} (hr : r.isLoop = false)
    (hd : d + room = maxNesting) (hts : ts <:+ tokens) (base : List Pending) :
    ComesTo tokens base d ⟨.run r, .before tokens ts d, base⟩ (r.read room tokens.length ts) := by
  obtain ⟨L, hfollows⟩ := r.exists_follows tokens room hr
  have hwhole := hfollows ts d [] hts hd
  have hparen := hfollows ts d [.close] hts hd
  cases hread : r.read room tokens.length ts with
  | ok x =>
    rw [hread] at hwhole
    cases hwhole with
    | ok hreaches => exact hreaches.during.frame base
  | error e =>
    rw [hread] at hwhole hparen
    cases hwhole with
    | @error _ c hstops =>
    cases hparen with
    | error hclose =>
    obtain ⟨q, hq, hstop⟩ := hstops
    have hopen : ¬ Returned [] q := by
      obtain ⟨control, c', ps⟩ := q
      rintro ⟨rfl, v, rfl⟩
      exact stops_close_ne hstop (hclose.of_reaches (hq.during.frame [.close]).reaches)
    exact ⟨q.frame base, c, hq.during.frame base, by rw [step_frame hopen, hstop]; rfl⟩

theorem Returned.eq_of_during (h : Returned base p) (hq : During tokens base p q) : q = p := by
  induction hq with
  | refl => rfl
  | tail _ hstep ih => exact absurd (ih ▸ h) hstep.1

/-- From one turn of a loop to a later one two tokens are taken at least. -/
theorem two_tokens {r r' : Routine} {c' : Cursor} (hr : r.isLoop = true) (hr' : r'.isLoop = true)
    (h : TransGen (CallStep tokens base) ⟨.run r, c, base⟩ ⟨.run r', c', base⟩) :
    c.position + 2 ≤ c'.position ∧ c'.position ≤ tokens.length := by
  obtain ⟨q, ⟨-, hstep⟩, hrest⟩ := TransGen.head'_iff.mp h
  have hdone : ∀ v, q ≠ ⟨.value v, c, base⟩ := by
    rintro v rfl
    cases Returned.eq_of_during (p := ⟨.value v, c, base⟩) ⟨rfl, v, rfl⟩ hrest
  have hahead : Ahead tokens (c.position + 1) q := by
    cases moves_of_step hstep with
    | sum | product => exact ⟨Nat.le_refl _, nofun⟩
    | sumsEnd | productsEnd => exact absurd rfl (hdone _)
    | _ => cases hr
  exact (During.ahead hrest hahead).lt hr'

/-- The expressions that are being read: those that wait for a term, and the one that runs. -/
def activations (p : Parsing) : Nat :=
  p.pending.countP (fun f => f.takes = .term) +
    match p.control with
    | .run r => if r.phrase = .expression then 1 else 0
    | .value _ => 0

theorem Inside.activations_le (h : Inside [] .expression ⟨0, 0⟩ p) : p.activations ≤ p.cursor.depth + 1 := by
  obtain ⟨l, hl, hphrase⟩ := h.awaits
  have hcount := hl.count_term
  unfold activations
  cases hcontrol : p.control with
  | run r =>
    cases hphrase r hcontrol
    dsimp only
    by_cases hexpression : r.phrase = .expression
    · rw [if_pos hexpression] at hcount ⊢
      omega
    · rw [if_neg hexpression] at hcount ⊢
      omega
  | value v =>
    have hone : (if l = .expression then 0 else 1) ≤ 1 := by split <;> omega
    dsimp only
    omega

end Calls

/-- A call of a procedure, wherever it starts and whoever waits for it, comes to an end, and to what is read. All along
no more parentheses are open than may be, and if it returns, as many are open as at its start, and it has taken a token
and none that is not there. From turn to turn a loop takes two tokens at least. Parsing ends after steps in proportion
to the tokens, and one expression more than parentheses may be open is all that is ever read at the same time. -/
theorem calls_progress (tokens : List Token) :
    (∀ (r : Routine) (c : Cursor) (base : List Pending), r.isLoop = false → c.depth ≤ maxNesting →
      (∀ q, During tokens base ⟨.run r, c, base⟩ q → q.cursor.depth ≤ maxNesting ∧
        (Returned base q → q.cursor.depth = c.depth ∧ c.position < q.cursor.position ∧
          q.cursor.position ≤ tokens.length)) ∧
      ∃ q, During tokens base ⟨.run r, c, base⟩ q ∧
        (Returned base q ∨ ∃ e c', step tokens q = .stop (.error e) c')) ∧
    (∀ (r : Routine) (d room : Nat) (ts : List Token) (base : List Pending), r.isLoop = false →
      d + room = maxNesting → ts <:+ tokens →
      ComesTo tokens base d ⟨.run r, .before tokens ts d, base⟩ (r.read room tokens.length ts)) ∧
    (∀ (r r' : Routine) (c c' : Cursor) (base : List Pending), r.isLoop = true → r'.isLoop = true →
      TransGen (CallStep tokens base) ⟨.run r, c, base⟩ ⟨.run r', c', base⟩ →
      c.position + 2 ≤ c'.position ∧ c'.position ≤ tokens.length) ∧
    (∃ c, ∀ n, 10 * tokens.length + 8 ≤ n → parse tokens n = some (evaluateAll tokens, c)) ∧
    ∀ q, Reaches tokens ⟨.run .expression, ⟨0, 0⟩, []⟩ q → q.activations ≤ maxNesting + 1 := by
  refine ⟨fun r c base hr hd => ?_, fun r d room ts base hr hd hts => comesTo_read hr hd hts base,
    fun r r' c c' base hr hr' h => two_tokens hr hr' h, exists_parse_linear tokens, fun q hq => ?_⟩
  · have hinside : Inside base r.phrase c ⟨.run r, c, base⟩ := .run .base hd
    have hahead : Ahead tokens c.position ⟨.run r, c, base⟩ :=
      ⟨Nat.le_refl _, fun h => absurd (hr.symm.trans h) nofun⟩
    refine ⟨fun q hq => ⟨(During.inside hq hinside).depth_le, ?_⟩, exists_end hinside⟩
    rintro ⟨hbase, v, hvalue⟩
    obtain ⟨l, hl, -⟩ := (During.inside hq hinside).awaits
    refine ⟨(hbase ▸ hl).depth_eq, (During.ahead hq hahead).lt ?_⟩
    rw [hvalue]
    rfl
  · have hstart : Inside [] .expression ⟨0, 0⟩ ⟨.run .expression, ⟨0, 0⟩, []⟩ := .run .base (Nat.zero_le _)
    have hinside := During.inside hq.during hstart
    exact Nat.le_trans hinside.activations_le (Nat.succ_le_succ hinside.depth_le)

end Parsing

end TalkingCalculator
