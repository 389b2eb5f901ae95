import TalkingCalculator.Program
import TalkingCalculator.Proofs.Session.Refinement

/-!
# Turns

A run takes one turn after another: it draws a frame, waits, and handles the key if one was pressed. The first turn whose
frame cannot be drawn or whose wait quits, interrupts or fails is the last one, and the windows are closed after it
however it ended. So the calculator of a run is what the codes before the last turn make of it.
-/
namespace TalkingCalculator

namespace Wait

/-- What is handled after a wait: the low eight bits of a code, but nothing when no key was pressed. -/
def key? : Wait → Option Int
  | code n => if n = -1 then none else some (KeyCode.masked n)
  | interrupt | failure _ => none

def ending? : Wait → Option Ending
  | code n =>
    if n ≠ -1 ∧ (KeyCode.masked n = KeyCode.escape ∨ KeyCode.masked n = KeyCode.quit) then some .quit else none
  | interrupt => some .interrupted
  | failure message => some (.failed message)

end Wait

/-- The turns of a run: those that are given, and then for ever one whose frame is drawn as in `e` and whose key is
escape. -/
def Turn.thenEscape (e : Exposure) (turns : List Turn) (i : Nat) : Turn :=
  turns.getD i ⟨e, .code KeyCode.escape, ⟨false, []⟩⟩

namespace Action

def onWindow : Action → Bool
  | openWindow _ | draw _ | wait _ | closeWindows => true
  | tell _ => false

theorem filter_onWindow_tell {α : Type} (notice : α → Notice) (told : List α) :
    (told.map fun a => tell (notice a)).filter onWindow = [] :=
  List.filter_eq_nil_iff.mpr (List.forall_mem_map.mpr fun _ _ => Bool.false_ne_true)

end Action

namespace Session

variable (canvas : Canvas) (s : Session)

def exposed (e : Exposure) : Session :=
  match s.expose canvas e with
  | .ok (_, next) => next
  | .error _ => s

theorem exposed_drawn (now : Float) : s.exposed canvas (.drawn now) = s.draw canvas now := by
  unfold exposed expose draw
  dsimp only
  cases s.render now canvas <;> rfl

theorem calculator_exposed (e : Exposure) : (s.exposed canvas e).calculator = s.calculator := by
  cases e with
  | drawn now =>
    rw [exposed_drawn]
    exact s.calculator_draw canvas now
  | failure message => rfl

def turnActions (t : Turn) : List Action :=
  match s.expose canvas t.exposure with
  | .ok (frame, _) => [.draw frame, .wait t.wait]
  | .error _ => []

theorem filter_turnActions (t : Turn) :
    (s.turnActions canvas t).filter Action.onWindow = s.turnActions canvas t := by
  unfold turnActions
  split <;> rfl

def ending? (t : Turn) : Option Ending :=
  match s.expose canvas t.exposure with
  | .ok _ => t.wait.ending?
  | .error message => some (.failed message)

theorem turn_of_expose_ok {t : Turn} {frame : Frame} {next : Session}
    (h : s.expose canvas t.exposure = .ok (frame, next)) :
    s.turnActions canvas t = [.draw frame, .wait t.wait] ∧ s.ending? canvas t = t.wait.ending? ∧
      s.exposed canvas t.exposure = next := by
  unfold turnActions ending? exposed
  rw [h]
  exact ⟨rfl, rfl, rfl⟩

theorem turn_of_expose_error {t : Turn} {message : String} (h : s.expose canvas t.exposure = .error message) :
    s.turnActions canvas t = [] ∧ s.ending? canvas t = some (.failed message) ∧ s.exposed canvas t.exposure = s := by
  unfold turnActions ending? exposed
  rw [h]
  exact ⟨rfl, rfl, rfl⟩

def turn (t : Turn) : Session :=
  t.wait.key?.elim (s.exposed canvas t.exposure) ((s.exposed canvas t.exposure).press t.playback)

def turns (ts : Nat → Turn) : Nat → Session
  | 0 => s
  | i + 1 => (turns ts i).turn canvas (ts i)

def turnsActions (ts : Nat → Turn) (last : Nat) : List Action :=
  (List.range (last + 1)).flatMap fun i => (s.turns canvas ts i).turnActions canvas (ts i)

theorem filter_turnActions_zero (ts : Nat → Turn) :
    (s.turnActions canvas (ts 0)).filter Action.onWindow = s.turnsActions canvas ts 0 := by
  rw [filter_turnActions]
  exact (List.append_nil _).symm

theorem turns_cons (e : Exposure) (t : Turn) (ts : List Turn) (i : Nat) :
    s.turns canvas (Turn.thenEscape e (t :: ts)) (i + 1) =
      (s.turn canvas t).turns canvas (Turn.thenEscape e ts) i := by
  induction i with
  | zero => rfl
  | succ i ih =>
    rw [turns, ih]
    rfl

theorem turnsActions_cons (e : Exposure) (t : Turn) (ts : List Turn) (last : Nat) :
    s.turnsActions canvas (Turn.thenEscape e (t :: ts)) (last + 1) =
      s.turnActions canvas t ++ (s.turn canvas t).turnsActions canvas (Turn.thenEscape e ts) last := by
  unfold turnsActions
  rw [List.range_succ_eq_map, List.flatMap_cons, List.flatMap_map]
  simp only [turns_cons]
  rfl

theorem isSome_press? (p : Playback) {code : Int} (h : ¬ (code = KeyCode.escape ∨ code = KeyCode.quit)) :
    (s.press? p code).isSome = true := by
  unfold press?
  rw [if_neg h]
  split
  · rfl
  · split <;> rfl

theorem calculator_press_congr {s t : Session} (h : s.calculator = t.calculator) (p q : Playback) (code : Int) :
    (s.press p code).calculator = (t.press q code).calculator := by
  rw [calculator_press, calculator_press, h]

/-- Neither the frames nor the waits without a key nor what is heard change the calculator. -/
theorem calculator_turns (p : Playback) (ts : Nat → Turn) (n : Nat) :
    (s.turns canvas ts n).calculator =
      ((((List.range n).map ts).filterMap fun t => t.wait.key?).foldl (press p) s).calculator := by
  induction n with
  | zero => rfl
  | succ n ih =>
    have hdrawn := ((s.turns canvas ts n).calculator_exposed canvas (ts n).exposure).trans ih
    rw [List.range_succ, List.map_append, List.filterMap_append, List.foldl_append, turns, turn]
    cases hkey : (ts n).wait.key? with
    | none => simpa [hkey] using hdrawn
    | some code => simpa [hkey] using calculator_press_congr hdrawn (ts n).playback p code

end Session

namespace Run

variable (canvas : Canvas) (e : Exposure) (s : Session) (ts : List Turn)

/-- A turn ends the run, or the run goes on from the session after it. -/
theorem loop_cases :
    (∃ ending left, s.ending? canvas (Turn.thenEscape e ts 0) = some ending ∧
        loop canvas e s ts = ⟨s.turnActions canvas (Turn.thenEscape e ts 0), ending,
          s.exposed canvas (Turn.thenEscape e ts 0).exposure, left⟩) ∨
      ∃ t rest, ∃ told : List Notice, ts = t :: rest ∧ s.ending? canvas t = none ∧
        loop canvas e s ts = (loop canvas e (s.turn canvas t) rest).after (s.turnActions canvas t ++ told.map .tell) := by
  cases ts with
  | nil =>
    refine Or.inl ?_
    have hfirst : Turn.thenEscape e [] 0 = ⟨e, .code KeyCode.escape, ⟨false, []⟩⟩ := rfl
    rw [hfirst, loop]
    cases hexpose : s.expose canvas e with
    | error message =>
      obtain ⟨hactions, hending, hexposed⟩ := s.turn_of_expose_error canvas (t := ⟨e, _, _⟩) hexpose
      exact ⟨.failed message, [], hending, by rw [hactions, hexposed]⟩
    | ok drawn =>
      obtain ⟨hactions, hending, hexposed⟩ := s.turn_of_expose_ok canvas (t := ⟨e, _, _⟩) hexpose
      exact ⟨.quit, [], hending, by rw [hactions, hexposed]⟩
  | cons t rest =>
    have hfirst : Turn.thenEscape e (t :: rest) 0 = t := rfl
    rw [hfirst, loop]
    cases hexpose : s.expose canvas t.exposure with
    | error message =>
      obtain ⟨hactions, hending, hexposed⟩ := s.turn_of_expose_error canvas hexpose
      exact Or.inl ⟨.failed message, t :: rest, hending, by rw [hactions, hexposed]⟩
    | ok drawn =>
      obtain ⟨frame, next⟩ := drawn
      obtain ⟨hactions, hending, hexposed⟩ := s.turn_of_expose_ok canvas hexpose
      cases hwait : t.wait with
      | interrupt =>
        rw [hwait] at hactions hending
        exact Or.inl ⟨.interrupted, rest, hending, by rw [hactions, hexposed]⟩
      | failure message =>
        rw [hwait] at hactions hending
        exact Or.inl ⟨.failed message, rest, hending, by rw [hactions, hexposed]⟩
      | code n =>
        rw [hwait] at hactions hending
        by_cases hnone : n = -1
        · refine Or.inr ⟨t, rest, [], rfl, ?_⟩
          rw [hending, hactions, Session.turn, hexposed, hwait]
          simp [hnone, Wait.ending?, Wait.key?]
        · by_cases hquit : KeyCode.masked n = KeyCode.escape ∨ KeyCode.masked n = KeyCode.quit
          · refine Or.inl ⟨.quit, rest, ?_⟩
            rw [hending, hactions, hexposed]
            simp [hnone, hquit, Wait.ending?, Session.press?]
          · refine Or.inr ⟨t, rest, next.pressNotices t.playback (KeyCode.masked n), rfl, ?_⟩
            obtain ⟨after, hafter⟩ := Option.isSome_iff_exists.mp (next.isSome_press? t.playback hquit)
            rw [hending, hactions, Session.turn, hexposed, hwait]
            simp [hnone, hquit, Wait.ending?, Wait.key?, Session.press, hafter]

/-- A session takes the turns up to the one with the number `last`, which is the first one that ends a run. -/
structure Takes (r : Run) (canvas : Canvas) (s : Session) (ts : Nat → Turn) (last : Nat) : Prop where
  goes_on : ∀ i < last, (s.turns canvas ts i).ending? canvas (ts i) = none
  ends : (s.turns canvas ts last).ending? canvas (ts last) = some r.ending
  session : r.session = (s.turns canvas ts last).exposed canvas (ts last).exposure

variable {canvas e s ts}

theorem takes_zero {ending : Ending} {actions : List Action} {left : List Turn}
    (hends : s.ending? canvas (Turn.thenEscape e ts 0) = some ending) :
    Takes ⟨actions, ending, s.exposed canvas (Turn.thenEscape e ts 0).exposure, left⟩ canvas s
      (Turn.thenEscape e ts) 0 :=
  ⟨fun i hi => absurd hi (Nat.not_lt_zero i), hends, rfl⟩

theorem Takes.cons {r : Run} {t : Turn} {last : Nat} (ht : s.ending? canvas t = none)
    (h : Takes r canvas (s.turn canvas t) (Turn.thenEscape e ts) last) (actions : List Action) :
    Takes (r.after actions) canvas s (Turn.thenEscape e (t :: ts)) (last + 1) := by
  refine ⟨fun i hi => ?_, ?_, ?_⟩
  · cases i with
    | zero => exact ht
    | succ i =>
      rw [Session.turns_cons]
      exact h.goes_on i (Nat.lt_of_succ_lt_succ hi)
  · rw [Session.turns_cons]
    exact h.ends
  · rw [Session.turns_cons]
    exact h.session

variable (canvas e s ts)

theorem exists_takes :
    ∃ last ≤ ts.length, Takes (loop canvas e s ts) canvas s (Turn.thenEscape e ts) last ∧
      (loop canvas e s ts).actions.filter Action.onWindow = s.turnsActions canvas (Turn.thenEscape e ts) last := by
  induction ts generalizing s with
  | nil =>
    obtain ⟨ending, left, hends, hloop⟩ | ⟨t, rest, told, hts, -⟩ := loop_cases canvas e s []
    · rw [hloop]
      exact ⟨0, Nat.le_refl 0, takes_zero hends, s.filter_turnActions_zero canvas _⟩
    · cases hts
  | cons t ts ih =>
    obtain ⟨ending, left, hends, hloop⟩ | ⟨t, rest, told, hts, hgoes, hloop⟩ := loop_cases canvas e s (t :: ts)
    · rw [hloop]
      exact ⟨0, Nat.zero_le _, takes_zero hends, s.filter_turnActions_zero canvas _⟩
    · cases hts
      obtain ⟨last, hlast, htakes, hactions⟩ := ih (s.turn canvas t)
      rw [hloop]
      refine ⟨last + 1, Nat.succ_le_succ hlast, htakes.cons hgoes _, ?_⟩
      have htold : (told.map Action.tell).filter Action.onWindow = [] := Action.filter_onWindow_tell id told
      rw [Session.turnsActions_cons, ← hactions]
      change (s.turnActions canvas t ++ told.map Action.tell ++ _).filter Action.onWindow = _
      rw [List.filter_append, List.filter_append, Session.filter_turnActions, htold, List.append_nil]

theorem filter_opening : (opening s).filter Action.onWindow = [.openWindow windowName] := by
  rw [opening, List.filter_append, Action.filter_onWindow_tell]
  rfl

theorem filter_closing (ending : Ending) : (closing ending).filter Action.onWindow = [.closeWindows] := by
  rw [closing, List.filter_cons_of_pos rfl, Action.filter_onWindow_tell]

/-- A program that finished a run ran a session from its start. -/
theorem exists_ofSession {before : Journal} {args : List String} {offer : Engine.Offer} {r : Run} {journal : Journal}
    (h : Program.runTurns before args offer canvas e ts = .finished r journal) :
    ∃ settings, r = ofSession canvas e (.start settings offer) ts := by
  unfold Program.runTurns at h
  split at h
  · cases h
  · rename_i c _
    split at h
    · cases h
    · cases h
      exact ⟨c.settings, rfl⟩

/-- A run draws one frame before each wait, up to the first turn that ends it: the first frame that cannot be drawn, the
first wait that interrupts or fails, or the first code that stands for escape or `q`; there is one since escape comes
after all turns. Its calculator is what the codes before that make of it, however they are played back, and at every end
the windows are closed once, after everything else. A program that ran a session reports a failure when the run ended
with an error, and only then. -/
theorem ofSession_turns :
    (∃ last ≤ ts.length, Takes (ofSession canvas e s ts) canvas s (Turn.thenEscape e ts) last ∧
      (ofSession canvas e s ts).actions.filter Action.onWindow =
        .openWindow windowName :: s.turnsActions canvas (Turn.thenEscape e ts) last ++ [.closeWindows] ∧
      ∀ p, (ofSession canvas e s ts).session.calculator = ((((List.range last).map (Turn.thenEscape e ts)).filterMap
        fun t => t.wait.key?).foldl (Session.press p) s).calculator) ∧
    ∀ before args offer r journal, Program.runTurns before args offer canvas e ts = .finished r journal →
      (∃ settings, r = ofSession canvas e (.start settings offer) ts) ∧
        ((Program.runTurns before args offer canvas e ts).status = 1 ↔ ∃ message, r.ending = .failed message) ∧
        ((Program.runTurns before args offer canvas e ts).status = 0 ↔ r.ending = .quit ∨ r.ending = .interrupted) := by
  refine ⟨?_, fun before args offer r journal hrun => ⟨exists_ofSession canvas e ts hrun, ?_⟩⟩
  · obtain ⟨last, hlast, htakes, hactions⟩ := exists_takes canvas e s ts
    refine ⟨last, hlast, ⟨htakes.goes_on, htakes.ends, htakes.session⟩, ?_, fun p => ?_⟩
    · unfold ofSession
      rw [List.filter_append, List.filter_append, filter_opening, hactions, filter_closing]
      rfl
    · rw [← s.calculator_turns canvas p, ← (s.turns canvas (Turn.thenEscape e ts) last).calculator_exposed canvas
        (Turn.thenEscape e ts last).exposure]
      exact congrArg Session.calculator htakes.session
  · rw [hrun, Program.Result.status]
    cases hending : r.ending <;> simp [Program.exitStatus]

end Run

end TalkingCalculator
