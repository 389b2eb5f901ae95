import Mathlib.Data.List.Basic
import TalkingCalculator.Proofs.Voice.Rounds
import TalkingCalculator.Proofs.Voice.Workers

/-!
# Schedules

The operations of an announcer are schedules of moves. A turn of a worker starts it if need be, takes a text at
the lock and plays it; a worker that runs to its end, and a call whose worker is run at once, are rows of turns.
What holds after all moves thus holds after all operations.
-/
namespace TalkingCalculator

namespace Announcer

inductive Operation where
  | speak (p : Playback) (s : Settings) (text : String)
  | turn (p : Playback)
  | runWorkers (p : Playback)

def Operation.call? : Operation → Option (Settings × String)
  | .speak _ s text => some (s, text)
  | .turn _ | .runWorkers _ => none

def perform (a : Announcer) : Operation → Announcer
  | .speak p s text => a.speak p s text
  | .turn p => a.turn p
  | .runWorkers p => a.runWorkers p

theorem Idle.turn {a : Announcer} (h : a.Idle) (p : Playback) : a.turn p = a := by
  obtain ⟨engine, queue, speaking, workers, spoken, failed⟩ := a
  obtain ⟨rfl, rfl, rfl⟩ := h
  rfl

end Announcer

def Move.call? : Move → Option (Settings × String)
  | .speak s text => some (s, text)
  | .start _ | .take _ | .play _ _ => none

namespace Crew

structure Rested (c : Crew) : Prop where
  orderly : c.Orderly
  free : c.workers = [] ∨ c.workers = [.created] ∨ c.workers = [.running]

def turnMoves (p : Playback) : List Move :=
  [.start 0, .take 0, .play 0 p]

theorem run_turnMoves (c : Crew) (p : Playback) : c.run (turnMoves p) = ((c.start 0).take 0).play 0 p :=
  rfl

/-- Without a worker nothing waits. -/
theorem Orderly.idle {c : Crew} (h : c.Orderly) (hw : c.workers = []) : c.announcer.Idle := by
  have hspeaking := h.workers_eq_nil_iff.mp hw
  exact ⟨h.attended hspeaking, hspeaking, by rw [h.counted, hw, List.length_nil]⟩

/-- A worker that comes to the lock ends there, or takes a text and plays it. -/
theorem turn_of_running {c : Crew} (hw : c.workers = [.running]) (p : Playback) :
    ((c.take 0).play 0 p).announcer = c.announcer.turn p ∧
      (((c.take 0).play 0 p).workers = [] ∨ ((c.take 0).play 0 p).workers = [.running]) := by
  have hqueue := c.queue_eq
  rw [Announcer.turn_eq]
  cases hwaiting : c.waiting with
  | nil =>
    rw [hwaiting] at hqueue
    simp [take, play, hw, hwaiting, Worker.leaveLock, Announcer.take, hqueue]
  | cons e rest =>
    rw [hwaiting] at hqueue
    simp [take, play, hw, hwaiting, Worker.leaveLock, Announcer.take, hqueue]

theorem Rested.turn {c : Crew} (h : c.Rested) (p : Playback) :
    (c.run (turnMoves p)).Rested ∧ (c.run (turnMoves p)).announcer = c.announcer.turn p := by
  have horderly : (c.run (turnMoves p)).Orderly := h.orderly.run _
  rcases h.free with hnone | hsome
  · have hrun : c.run (turnMoves p) = c := by simp [run_turnMoves, start, take, play, hnone]
    rw [hrun, (h.orderly.idle hnone).turn]
    exact ⟨h, rfl⟩
  · have hstart : (c.start 0).workers = [.running] ∧ (c.start 0).announcer = c.announcer := by
      rcases hsome with hw | hw <;> simp [start, hw]
    obtain ⟨hannouncer, hworkers⟩ := turn_of_running hstart.1 p
    rw [run_turnMoves] at horderly ⊢
    exact ⟨⟨horderly, hworkers.imp_right Or.inr⟩, by rw [hannouncer, hstart.2]⟩

theorem Rested.speak {c : Crew} (h : c.Rested) (s : Settings) (text : String) :
    (c.step (.speak s text)).Rested ∧
      (c.step (.speak s text)).announcer = if c.announcer.accepts s then c.announcer.post text else c.announcer := by
  have horderly : (c.step (.speak s text)).Orderly := h.orderly.step _
  simp only [step] at horderly ⊢
  split
  · rename_i haccepts
    rw [if_pos haccepts] at horderly
    refine ⟨⟨horderly, ?_⟩, rfl⟩
    cases hspeaking : c.announcer.speaking with
    | false => simp [Crew.post, hspeaking, h.orderly.workers_eq_nil_iff.mpr hspeaking]
    | true => simpa [Crew.post, hspeaking] using h.free
  · exact ⟨h, rfl⟩

def Scheduled (c : Crew) (calls : List (Settings × String)) (a : Announcer) : Prop :=
  ∃ moves, moves.filterMap Move.call? = calls ∧ (c.run moves).Rested ∧ (c.run moves).announcer = a

namespace Scheduled

variable {c : Crew} {calls : List (Settings × String)} {a : Announcer}

theorem turn (h : c.Scheduled calls a) (p : Playback) : c.Scheduled calls (a.turn p) := by
  obtain ⟨moves, rfl, hrested, rfl⟩ := h
  refine ⟨moves ++ turnMoves p, ?_, ?_⟩
  · rw [List.filterMap_append]
    exact List.append_nil _
  · rw [run_append]
    exact hrested.turn p

theorem runWorkers (h : c.Scheduled calls a) (p : Playback) : c.Scheduled calls (a.runWorkers p) :=
  Announcer.runWorkers_keeps (fun _ hb => hb.turn p) h

theorem post (h : c.Scheduled calls a) (s : Settings) (text : String) :
    c.Scheduled (calls ++ [(s, text)]) (if a.accepts s then a.post text else a) := by
  obtain ⟨moves, rfl, hrested, rfl⟩ := h
  refine ⟨moves ++ [.speak s text], ?_, ?_⟩
  · rw [List.filterMap_append]
    rfl
  · rw [run_snoc]
    exact hrested.speak s text

theorem speak (h : c.Scheduled calls a) (p : Playback) (s : Settings) (text : String) :
    c.Scheduled (calls ++ [(s, text)]) (a.speak p s text) := by
  have hpost := h.post s text
  unfold Announcer.speak
  cases haccepts : a.accepts s with
  | false => rwa [haccepts] at hpost
  | true =>
    rw [haccepts] at hpost
    cases hdeferred : p.deferred with
    | false => exact hpost.runWorkers p
    | true => exact hpost

theorem perform (h : c.Scheduled calls a) (op : Announcer.Operation) :
    c.Scheduled (calls ++ op.call?.toList) (a.perform op) := by
  cases op with
  | speak p s text => exact h.speak p s text
  | turn p => exact (List.append_nil calls).symm ▸ h.turn p
  | runWorkers p => exact (List.append_nil calls).symm ▸ h.runWorkers p

theorem operations (h : c.Scheduled calls a) (ops : List Announcer.Operation) :
    c.Scheduled (calls ++ ops.filterMap Announcer.Operation.call?) (ops.foldl Announcer.perform a) := by
  induction ops generalizing calls a with
  | nil => rwa [List.filterMap_nil, List.append_nil]
  | cons op ops ih =>
    rw [List.filterMap_eq_flatMap_toList, List.flatMap_cons, ← List.filterMap_eq_flatMap_toList, ← List.append_assoc]
    exact ih (h.perform op)

end Scheduled

theorem rested_fresh (s : Settings) (offer : Engine.Offer) : (fresh s offer).Rested :=
  ⟨.fresh s offer, Or.inl rfl⟩

/-- Operations come to what some moves with the same calls come to. -/
theorem exists_moves (s : Settings) (offer : Engine.Offer) (ops : List Announcer.Operation) :
    ∃ moves, moves.filterMap Move.call? = ops.filterMap Announcer.Operation.call? ∧
      ((fresh s offer).run moves).announcer = ops.foldl Announcer.perform (.start s offer) := by
  have hstart : (fresh s offer).Scheduled [] (.start s offer) := ⟨[], rfl, rested_fresh s offer, rfl⟩
  obtain ⟨moves, hcalls, -, hannouncer⟩ := hstart.operations ops
  exact ⟨moves, hcalls, hannouncer⟩

end Crew

/-- What is known of an announcer when `live` workers have been created and have not ended. -/
structure Announcer.Attended (a : Announcer) (live : Nat) : Prop where
  speaking_iff : a.speaking = true ↔ live = 1
  at_most_one : live ≤ 1
  counted : a.workers = live
  speaking_of_queue : a.queue ≠ [] → a.speaking = true
  bounded : a.queue.length ≤ 5

theorem Crew.Orderly.attended_announcer {c : Crew} (h : c.Orderly) : c.announcer.Attended c.workers.length := by
  have hone := h.one_worker
  refine ⟨?_, ?_, h.counted, ?_, h.bounded⟩
  · rw [hone]
    split <;> simp_all
  · rw [hone]
    split <;> decide
  · intro hqueue
    cases hs : c.announcer.speaking with
    | false => exact absurd (h.attended hs) hqueue
    | true => rfl

/-- The flag is on exactly while one worker has not ended, there is never a second one, no text waits without a
worker, and no more than five texts wait: after any moves, and so after any operations. -/
theorem Announcer.attended_always (s : Settings) (offer : Engine.Offer) :
    (∀ moves, let c := (Crew.fresh s offer).run moves; c.announcer.Attended c.workers.length) ∧
      ∀ ops : List Operation, let a := ops.foldl perform (start s offer); a.Attended a.workers := by
  have hmoves (moves : List Move) := ((Crew.Orderly.fresh s offer).run moves).attended_announcer
  refine ⟨hmoves, ?_⟩
  intro ops a
  obtain ⟨moves, -, hannouncer⟩ := Crew.exists_moves s offer ops
  have h := hmoves moves
  rw [← h.counted, hannouncer] at h
  exact h

end TalkingCalculator
