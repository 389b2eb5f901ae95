import TalkingCalculator.Voice.Announcer

/-!
# Workers

Callers post texts and workers say them, each at its own pace. What is done at the lock of the queue is done at
once: a call joins its text to the queue and, if nobody speaks, creates a worker; a worker takes the oldest text,
or ends if there is none. Away from the lock a worker starts, and hands the text that it holds to the engine,
whose playback may fail. These are the moves of a crew. They come in any order, and a move that cannot be made
changes nothing.

The announcer counts as speaking exactly while one worker has not ended. There is never a second worker, and no
text waits without one.
-/
namespace TalkingCalculator

namespace Announcer

def take (a : Announcer) : Announcer × Option String :=
  match a.queue with
  | [] => ({ a with speaking := false, workers := a.workers - 1 }, none)
  | text :: queue => ({ a with queue }, some text)

def play (p : Playback) (a : Announcer) (text : String) : Announcer :=
  { a with
    spoken := a.spoken ++ [text]
    failed := if p.failing.contains text then a.failed ++ [text] else a.failed }

theorem turn_eq (p : Playback) (a : Announcer) :
    a.turn p = match a.take with
      | (b, none) => b
      | (b, some text) => b.play p text := by
  unfold turn take
  cases a.queue <;> rfl

theorem queue_take (a : Announcer) : a.take.1.queue = a.queue.tail := by
  unfold take
  split
  · rename_i hqueue
    rw [hqueue, List.tail_nil]
  · rename_i hqueue
    rw [hqueue, List.tail_cons]

theorem spoken_take (a : Announcer) : a.take.1.spoken = a.spoken := by
  unfold take
  split <;> rfl

theorem take_of_nil {a : Announcer} (h : a.queue = []) :
    a.take.1 = { a with speaking := false, workers := a.workers - 1 } := by
  unfold take
  rw [h]

theorem take_of_cons {a : Announcer} {text : String} {queue : List String} (h : a.queue = text :: queue) :
    a.take.1 = { a with queue } := by
  unfold take
  rw [h]

end Announcer

structure Entry where
  number : Nat
  text : String
deriving DecidableEq, Repr

/-- Where a worker stands that has not ended. -/
inductive Worker where
  | created
  /-- On its way to the lock. -/
  | running
  /-- Has taken a text and not handed it to the engine. -/
  | holding (entry : Entry)
deriving DecidableEq, Repr

/-- The workers after the one at place `i` has taken an entry, or has ended because there was none. -/
def Worker.leaveLock (workers : List Worker) (i : Nat) : Option Entry → List Worker
  | none => workers.eraseIdx i
  | some e => workers.set i (.holding e)

/-- An announcer with its workers that have not ended, and the history of its texts. -/
@[ext]
structure Crew where
  announcer : Announcer
  workers : List Worker
  /-- The accepted texts in the order of the calls. -/
  accepted : List String
  /-- The texts of the queue. -/
  waiting : List Entry
  /-- The texts handed to the engine. -/
  said : List Entry
  queue_eq : announcer.queue = waiting.map Entry.text
  spoken_eq : announcer.spoken = said.map Entry.text

inductive Move where
  /-- A call finds the settings as they are at its time. -/
  | speak (s : Settings) (text : String)
  /-- The worker at place `i` starts. -/
  | start (i : Nat)
  /-- The running worker at place `i` comes to the lock. -/
  | take (i : Nat)
  /-- The worker at place `i` hands its text to the engine. -/
  | play (i : Nat) (p : Playback)

namespace Crew

def fresh (s : Settings) (offer : Engine.Offer) : Crew :=
  ⟨.start s offer, [], [], [], [], rfl, rfl⟩

def post (c : Crew) (text : String) : Crew where
  announcer := c.announcer.post text
  workers := if c.announcer.speaking then c.workers else c.workers ++ [.created]
  accepted := c.accepted ++ [text]
  waiting := (c.waiting ++ [Entry.mk c.accepted.length text]).drop (c.waiting.length + 1 - queueCapacity)
  said := c.said
  queue_eq := by
    change Announcer.enqueue c.announcer.queue text = _
    simp [Announcer.enqueue, c.queue_eq, List.map_drop]
  spoken_eq := c.spoken_eq

def start (c : Crew) (i : Nat) : Crew :=
  if c.workers[i]? = some .created then { c with workers := c.workers.set i .running } else c

def take (c : Crew) (i : Nat) : Crew :=
  if c.workers[i]? = some .running then
    { c with
      announcer := c.announcer.take.1
      workers := Worker.leaveLock c.workers i c.waiting.head?
      waiting := c.waiting.tail
      queue_eq := by rw [Announcer.queue_take, c.queue_eq, List.map_tail]
      spoken_eq := c.announcer.spoken_take.trans c.spoken_eq }
  else c

def play (c : Crew) (i : Nat) (p : Playback) : Crew :=
  match c.workers[i]? with
  | some (.holding e) =>
    { c with
      announcer := c.announcer.play p e.text
      workers := c.workers.set i .running
      said := c.said ++ [e]
      queue_eq := c.queue_eq
      spoken_eq := by simp [Announcer.play, c.spoken_eq] }
  | _ => c

def step (c : Crew) : Move → Crew
  | .speak s text => if c.announcer.accepts s then c.post text else c
  | .start i => c.start i
  | .take i => c.take i
  | .play i p => c.play i p

def run (c : Crew) (moves : List Move) : Crew :=
  moves.foldl step c

theorem run_append (c : Crew) (moves rest : List Move) : c.run (moves ++ rest) = (c.run moves).run rest :=
  List.foldl_append

theorem run_snoc (c : Crew) (moves : List Move) (m : Move) : c.run (moves ++ [m]) = (c.run moves).step m :=
  c.run_append moves [m]

structure Orderly (c : Crew) : Prop where
  counted : c.announcer.workers = c.workers.length
  one_worker : c.workers.length = if c.announcer.speaking then 1 else 0
  attended : c.announcer.speaking = false → c.announcer.queue = []
  bounded : c.announcer.queue.length ≤ queueCapacity

namespace Orderly

variable {c : Crew}

theorem fresh (s : Settings) (offer : Engine.Offer) : (Crew.fresh s offer).Orderly :=
  ⟨rfl, rfl, fun _ => rfl, Nat.zero_le _⟩

/-- The only place is the first one. -/
theorem workers_eq (h : c.Orderly) {i : Nat} {w : Worker} (hw : c.workers[i]? = some w) :
    i = 0 ∧ c.workers = [w] ∧ c.announcer.speaking = true := by
  have hlt : i < c.workers.length := (List.getElem?_eq_some_iff.mp hw).1
  have hone := h.one_worker
  cases hs : c.announcer.speaking with
  | false =>
    simp only [hs, Bool.false_eq_true, if_false] at hone
    omega
  | true =>
    simp only [hs, if_true] at hone
    obtain ⟨v, hv⟩ := List.length_eq_one_iff.mp hone
    have hi : i = 0 := by omega
    subst hi
    rw [hv] at hw
    cases hw
    exact ⟨rfl, hv, rfl⟩

theorem workers_eq_nil_iff (h : c.Orderly) : c.workers = [] ↔ c.announcer.speaking = false := by
  rw [← List.length_eq_zero_iff, h.one_worker]
  cases c.announcer.speaking <;> simp

theorem post (h : c.Orderly) (text : String) : (c.post text).Orderly := by
  cases hspeaking : c.announcer.speaking with
  | false =>
    have hworkers := h.workers_eq_nil_iff.mpr hspeaking
    refine ⟨?_, ?_, nofun, Announcer.length_enqueue_le _ _⟩
    · simp [Crew.post, Announcer.post, hspeaking, h.counted, hworkers]
    · simp [Crew.post, Announcer.post, hspeaking, hworkers]
  | true =>
    refine ⟨?_, ?_, nofun, Announcer.length_enqueue_le _ _⟩
    · simpa [Crew.post, Announcer.post, hspeaking] using h.counted
    · simpa [Crew.post, Announcer.post, hspeaking] using h.one_worker

theorem start (h : c.Orderly) (i : Nat) : (c.start i).Orderly := by
  unfold Crew.start
  split
  · exact ⟨by simpa using h.counted, by simpa using h.one_worker, h.attended, h.bounded⟩
  · exact h

theorem take (h : c.Orderly) (i : Nat) : (c.take i).Orderly := by
  unfold Crew.take
  split
  · rename_i hw
    obtain ⟨rfl, hworkers, hspeaking⟩ := h.workers_eq hw
    by_cases hwaiting : c.waiting = []
    · have hqueue : c.announcer.queue = [] := by rw [c.queue_eq, hwaiting, List.map_nil]
      have htake := Announcer.take_of_nil hqueue
      refine ⟨?_, ?_, ?_, ?_⟩
      · simp [htake, h.counted, hworkers, hwaiting, Worker.leaveLock]
      · simp [htake, hworkers, hwaiting, Worker.leaveLock]
      · simp [htake, hqueue]
      · simp [htake, hqueue]
    · obtain ⟨e, rest, hwaiting⟩ := List.exists_cons_of_ne_nil hwaiting
      have hqueue : c.announcer.queue = e.text :: rest.map Entry.text := by
        rw [c.queue_eq, hwaiting, List.map_cons]
      have htake := Announcer.take_of_cons hqueue
      have hbound := h.bounded
      rw [hqueue, List.length_cons] at hbound
      refine ⟨?_, ?_, ?_, ?_⟩
      · simp [htake, h.counted, hworkers, hwaiting, Worker.leaveLock]
      · simp [htake, hspeaking, hworkers, hwaiting, Worker.leaveLock]
      · simp [htake, hspeaking]
      · simpa only [htake] using Nat.le_of_succ_le hbound
  · exact h

theorem play (h : c.Orderly) (i : Nat) (p : Playback) : (c.play i p).Orderly := by
  unfold Crew.play
  split
  · refine ⟨?_, ?_, h.attended, h.bounded⟩
    · exact h.counted.trans (List.length_set ..).symm
    · exact (List.length_set ..).trans h.one_worker
  · exact h

theorem step (h : c.Orderly) (m : Move) : (c.step m).Orderly := by
  cases m with
  | speak s text =>
    simp only [Crew.step]
    split
    · exact h.post text
    · exact h
  | start i => exact h.start i
  | take i => exact h.take i
  | play i p => exact h.play i p

theorem run (h : c.Orderly) (moves : List Move) : (c.run moves).Orderly := by
  induction moves generalizing c with
  | nil => exact h
  | cons m moves ih => exact ih (h.step m)

end Orderly

end Crew

end TalkingCalculator
