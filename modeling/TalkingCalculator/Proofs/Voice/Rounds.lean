import TalkingCalculator.Voice.Announcer

/-!
# Rounds

When workers are put aside, calls come first and the workers run later. Such a round says the last five of the
texts that it has accepted, in the order of the calls, and leaves nothing behind for the next one.
-/
namespace TalkingCalculator

namespace Announcer

structure Idle (a : Announcer) : Prop where
  queue : a.queue = []
  speaking : a.speaking = false
  workers : a.workers = 0

theorem idle_start (s : Settings) (offer : Engine.Offer) : (start s offer).Idle :=
  ⟨rfl, rfl, rfl⟩

def acceptedOf (a : Announcer) (calls : List (Settings × String)) : List String :=
  (calls.filter fun call => a.accepts call.1).map Prod.snd

def latest (texts : List String) : List String :=
  texts.drop (texts.length - queueCapacity)

theorem enqueue_latest (texts : List String) (text : String) :
    enqueue (latest texts) text = latest (texts ++ [text]) := by
  unfold enqueue latest queueCapacity
  have hdrop : texts.drop (texts.length - 5) ++ [text] = (texts ++ [text]).drop (texts.length - 5) := by
    rw [List.drop_append_of_le_length (Nat.sub_le _ _)]
  rw [hdrop, List.drop_drop, List.length_drop, List.length_append, List.length_singleton]
  congr 1
  omega

/-- What calls leave behind that have accepted these texts, while the workers are put aside. -/
structure Posted (a : Announcer) (texts : List String) (b : Announcer) : Prop where
  engine : b.engine = a.engine
  spoken : b.spoken = a.spoken
  queue : b.queue = latest texts
  speaking : b.speaking = !texts.isEmpty
  workers : b.workers = if texts.isEmpty then 0 else 1

theorem Posted.post {a b : Announcer} {texts : List String} (h : a.Posted texts b) (text : String) :
    a.Posted (texts ++ [text]) (b.post text) := by
  refine ⟨h.engine, h.spoken, ?_, by simp [Announcer.post], ?_⟩
  · change enqueue b.queue text = _
    rw [h.queue, enqueue_latest]
  · change (if b.speaking then b.workers else b.workers + 1) = _
    rw [h.speaking, h.workers]
    cases texts <;> rfl

variable {a : Announcer} (failing : List String)

theorem posted_calls (h : a.Idle) (calls : List (Settings × String)) :
    a.Posted (a.acceptedOf calls) (calls.foldl (fun b call => b.speak ⟨true, failing⟩ call.1 call.2) a) := by
  suffices ∀ texts b, a.Posted texts b → a.Posted (texts ++ a.acceptedOf calls)
      (calls.foldl (fun b call => b.speak ⟨true, failing⟩ call.1 call.2) b) from
    this [] a ⟨rfl, rfl, h.queue, h.speaking, h.workers⟩
  induction calls with
  | nil =>
    intro texts b hb
    rw [show a.acceptedOf [] = [] from rfl, List.append_nil]
    exact hb
  | cons call calls ih =>
    intro texts b hb
    have haccepts : b.accepts call.1 = a.accepts call.1 := by
      unfold accepts
      rw [hb.engine]
    rw [List.foldl_cons, speak, haccepts]
    cases hcall : a.accepts call.1 with
    | false =>
      rw [show a.acceptedOf (call :: calls) = a.acceptedOf calls by simp [acceptedOf, hcall]]
      exact ih texts b hb
    | true =>
      rw [show a.acceptedOf (call :: calls) = call.2 :: a.acceptedOf calls by simp [acceptedOf, hcall],
        List.append_cons]
      exact ih (texts ++ [call.2]) (b.post call.2) (hb.post call.2)

theorem repeat_keeps {P : Announcer → Prop} {f : Announcer → Announcer} (hf : ∀ b, P b → P (f b)) {a : Announcer}
    (ha : P a) (n : Nat) : P (Nat.repeat f n a) := by
  induction n with
  | zero => exact ha
  | succ n ih => exact hf _ ih

/-- What every turn keeps, all turns of all workers keep. -/
theorem runWorkers_keeps {P : Announcer → Prop} {p : Playback} (hturn : ∀ b : Announcer, P b → P (b.turn p))
    {a : Announcer} (ha : P a) : P (a.runWorkers p) := by
  have hfinish : ∀ b : Announcer, P b → P (b.finish p) := fun b hb => repeat_keeps (P := P) hturn hb _
  exact repeat_keeps (P := P) hfinish ha _

structure Finished (a b : Announcer) : Prop where
  engine : b.engine = a.engine
  spoken : b.spoken = a.spoken ++ a.queue
  queue : b.queue = []
  speaking : b.speaking = false
  workers : b.workers = a.workers - 1

theorem repeat_succ_turn (p : Playback) (n : Nat) (a : Announcer) :
    Nat.repeat (turn p) (n + 1) a = Nat.repeat (turn p) n (a.turn p) := by
  induction n with
  | zero => rfl
  | succ n ih => exact congrArg (turn p) ih

theorem finished_finish (p : Playback) (a : Announcer) : a.Finished (a.finish p) := by
  unfold finish
  induction hqueue : a.queue generalizing a with
  | nil =>
    have hturn : a.turn p = { a with speaking := false, workers := a.workers - 1 } := by rw [turn, hqueue]
    change a.Finished (a.turn p)
    rw [hturn]
    exact ⟨rfl, by rw [hqueue, List.append_nil], hqueue, rfl, rfl⟩
  | cons text queue ih =>
    have hturn : a.turn p = { a with
        queue := queue
        spoken := a.spoken ++ [text]
        failed := if p.failing.contains text then a.failed ++ [text] else a.failed } := by rw [turn, hqueue]
    rw [List.length_cons, repeat_succ_turn]
    have hrest := ih (a.turn p) (by rw [hturn])
    refine ⟨hrest.engine.trans (by rw [hturn]), hrest.spoken.trans ?_, hrest.queue, hrest.speaking,
      hrest.workers.trans (by rw [hturn])⟩
    rw [hturn, hqueue]
    exact (List.append_cons a.spoken text queue).symm

/-- Calls, and after them the workers that they have put aside. -/
def round (a : Announcer) (failing : List String) (calls : List (Settings × String)) : Announcer :=
  (calls.foldl (fun b call => b.speak ⟨true, failing⟩ call.1 call.2) a).runWorkers ⟨true, failing⟩

theorem round_spec (h : a.Idle) (calls : List (Settings × String)) :
    (a.round failing calls).Idle ∧ (a.round failing calls).engine = a.engine ∧
      (a.round failing calls).spoken = a.spoken ++ latest (a.acceptedOf calls) := by
  have hposted := posted_calls failing h calls
  unfold round
  generalize calls.foldl (fun b call => b.speak ⟨true, failing⟩ call.1 call.2) a = b at hposted ⊢
  have hworkers := hposted.workers
  unfold runWorkers
  cases htexts : a.acceptedOf calls with
  | nil =>
    rw [htexts] at hposted hworkers
    rw [hworkers]
    exact ⟨⟨hposted.queue, hposted.speaking, hworkers⟩, hposted.engine, hposted.spoken.trans (List.append_nil _).symm⟩
  | cons text texts =>
    rw [htexts] at hposted hworkers
    have hfinished := finished_finish ⟨true, failing⟩ b
    rw [hworkers]
    refine ⟨⟨hfinished.queue, hfinished.speaking, ?_⟩, hfinished.engine.trans hposted.engine, ?_⟩
    · exact hfinished.workers.trans (by rw [hworkers]; rfl)
    · refine hfinished.spoken.trans ?_
      rw [hposted.spoken, hposted.queue]

theorem spoken_rounds (h : a.Idle) (rounds : List (List String × List (Settings × String))) :
    (rounds.foldl (fun b r => b.round r.1 r.2) a).spoken =
      a.spoken ++ rounds.flatMap fun r => latest (a.acceptedOf r.2) := by
  induction rounds generalizing a with
  | nil => exact (List.append_nil _).symm
  | cons r rounds ih =>
    obtain ⟨hidle, hengine, hspoken⟩ := round_spec r.1 h r.2
    have haccepted : (a.round r.1 r.2).acceptedOf = a.acceptedOf := by
      unfold acceptedOf accepts
      rw [hengine]
    rw [List.foldl_cons, ih hidle, hspoken, haccepted, List.flatMap_cons, List.append_assoc]

end Announcer

end TalkingCalculator
