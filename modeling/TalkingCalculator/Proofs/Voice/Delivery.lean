import Mathlib.Data.List.Induction
import TalkingCalculator.Proofs.Voice.Schedules

/-!
# Delivery

Accepted texts are numbered in the order of the calls. They are said in this order and none of them twice. A text
that is not said still waits, or a worker holds it, or it gave way: five later texts were accepted while it
waited, and the last of them took its place. A playback that fails changes nothing but the record of failures.
-/
namespace TalkingCalculator

theorem Announcer.engine_take (a : Announcer) : a.take.1.engine = a.engine := by
  unfold take
  split <;> rfl

def Announcer.unfailed (a : Announcer) : Announcer :=
  { a with failed := [] }

theorem Announcer.unfailed_take (a : Announcer) : a.unfailed.take.1 = a.take.1.unfailed := by
  unfold take unfailed
  split <;> simp_all

def Worker.entry? : Worker → Option Entry
  | .holding e => some e
  | .created | .running => none

def Move.unfailing : Move → Move
  | .play i p => .play i { p with failing := [] }
  | m => m

namespace Crew

def held (c : Crew) : List Entry :=
  c.workers.filterMap Worker.entry?

/-- The entries that have not given way. -/
def entries (c : Crew) : List Entry :=
  c.said ++ c.held ++ c.waiting

theorem entries_start {c : Crew} (h : c.Orderly) (i : Nat) : (c.start i).entries = c.entries := by
  unfold start
  split
  · rename_i hw
    obtain ⟨rfl, hworkers, -⟩ := h.workers_eq hw
    simp only [entries, held, hworkers]
    rfl
  · rfl

theorem entries_take {c : Crew} (h : c.Orderly) (i : Nat) : (c.take i).entries = c.entries := by
  unfold take
  split
  · rename_i hw
    obtain ⟨rfl, hworkers, -⟩ := h.workers_eq hw
    by_cases hwaiting : c.waiting = []
    · simp only [entries, held, hworkers, hwaiting]
      rfl
    · obtain ⟨e, rest, hwaiting⟩ := List.exists_cons_of_ne_nil hwaiting
      simp only [entries, held, hworkers, hwaiting, List.append_assoc]
      rfl
  · rfl

theorem entries_play {c : Crew} (h : c.Orderly) (i : Nat) (p : Playback) :
    (c.play i p).entries = c.entries := by
  unfold play
  split
  · rename_i e hw
    obtain ⟨rfl, hworkers, -⟩ := h.workers_eq hw
    simp only [entries, held, hworkers, List.append_assoc]
    rfl
  · rfl

theorem held_post (c : Crew) (text : String) : (c.post text).held = c.held := by
  unfold held post
  split
  · rfl
  · exact (List.filterMap_append ..).trans (List.append_nil _)

theorem accepted_start (c : Crew) (i : Nat) : (c.start i).accepted = c.accepted := by
  unfold start
  split <;> rfl

theorem accepted_take (c : Crew) (i : Nat) : (c.take i).accepted = c.accepted := by
  unfold take
  split <;> rfl

theorem accepted_play (c : Crew) (i : Nat) (p : Playback) : (c.play i p).accepted = c.accepted := by
  unfold play
  split <;> rfl

/-- A move accepts a text, or it accepts nothing and loses nothing. -/
theorem step_cases {c : Crew} (h : c.Orderly) (m : Move) :
    (∃ s text, m = .speak s text ∧ c.step m = c.post text) ∨
      (c.step m).entries = c.entries ∧ (c.step m).accepted = c.accepted := by
  cases m with
  | speak s text =>
    simp only [step]
    split
    · exact Or.inl ⟨s, text, rfl, rfl⟩
    · exact Or.inr ⟨rfl, rfl⟩
  | start i => exact Or.inr ⟨entries_start h i, accepted_start c i⟩
  | take i => exact Or.inr ⟨entries_take h i, accepted_take c i⟩
  | play i p => exact Or.inr ⟨entries_play h i p, accepted_play c i p⟩

structure Ledger (c : Crew) : Prop where
  ordered : (c.entries.map Entry.number).Pairwise (· < ·)
  known : ∀ e ∈ c.entries, c.accepted[e.number]? = some e.text
  latest : ∀ i e, c.waiting[i]? = some e → e.number + c.waiting.length = c.accepted.length + i

namespace Ledger

variable {c : Crew}

theorem number_lt (h : c.Ledger) {e : Entry} (he : e ∈ c.entries) : e.number < c.accepted.length :=
  (List.getElem?_eq_some_iff.mp (h.known e he)).1

/-- A move that accepts nothing and loses nothing. -/
theorem of_entries_eq (h : c.Ledger) {d : Crew} (hentries : d.entries = c.entries)
    (haccepted : d.accepted = c.accepted)
    (hlatest : ∀ i e, d.waiting[i]? = some e → e.number + d.waiting.length = d.accepted.length + i) : d.Ledger := by
  refine ⟨?_, ?_, hlatest⟩
  · rw [hentries]
    exact h.ordered
  · rw [hentries, haccepted]
    exact h.known

/-- A text that is accepted joins the entries, and the oldest of six that wait leaves them. -/
theorem sublist_post (c : Crew) (text : String) :
    (c.post text).entries.Sublist (c.entries ++ [⟨c.accepted.length, text⟩]) := by
  unfold entries
  rw [held_post, List.append_assoc _ c.waiting]
  exact (List.Sublist.refl _).append (List.drop_sublist _ _)

theorem post (h : c.Ledger) (hc : c.Orderly) (text : String) : (c.post text).Ledger := by
  have hsub := sublist_post c text
  refine ⟨?_, ?_, ?_⟩
  · refine List.Pairwise.sublist (hsub.map _) ?_
    rw [List.map_append, List.pairwise_append]
    refine ⟨h.ordered, List.pairwise_singleton _ _, ?_⟩
    intro n hn m hm
    obtain ⟨e, he, rfl⟩ := List.mem_map.mp hn
    cases List.mem_singleton.mp hm
    exact h.number_lt he
  · intro e he
    change (c.accepted ++ [text])[e.number]? = some e.text
    rcases List.mem_append.mp (hsub.subset he) with hold | hnew
    · rw [List.getElem?_append_left (h.number_lt hold)]
      exact h.known e hold
    · cases List.mem_singleton.mp hnew
      exact List.getElem?_concat_length
  · intro i e he
    have hlen : c.waiting.length ≤ queueCapacity := by
      have := hc.bounded
      rwa [c.queue_eq, List.length_map] at this
    simp only [Crew.post, List.getElem?_drop, List.length_drop, List.length_append, List.length_singleton] at he ⊢
    unfold queueCapacity at *
    rcases Nat.lt_or_ge (c.waiting.length + 1 - 5 + i) c.waiting.length with hlt | hge
    · rw [List.getElem?_append_left hlt] at he
      have := h.latest _ e he
      omega
    · rw [List.getElem?_append_right hge] at he
      have hi := (List.getElem?_eq_some_iff.mp he).1
      simp only [List.length_singleton] at hi
      rw [show c.waiting.length + 1 - 5 + i - c.waiting.length = 0 by omega] at he
      cases he
      simp only
      omega

theorem start (h : c.Ledger) (hc : c.Orderly) (i : Nat) : (c.start i).Ledger := by
  refine h.of_entries_eq (entries_start hc i) (accepted_start c i) ?_
  unfold Crew.start
  split <;> exact h.latest

theorem take (h : c.Ledger) (hc : c.Orderly) (i : Nat) : (c.take i).Ledger := by
  refine h.of_entries_eq (entries_take hc i) (accepted_take c i) ?_
  unfold Crew.take
  split
  · intro j e he
    simp only [List.getElem?_tail, List.length_tail] at he ⊢
    have hj := (List.getElem?_eq_some_iff.mp he).1
    have := h.latest _ e he
    omega
  · exact h.latest

theorem play (h : c.Ledger) (hc : c.Orderly) (i : Nat) (p : Playback) : (c.play i p).Ledger := by
  refine h.of_entries_eq (entries_play hc i p) (accepted_play c i p) ?_
  unfold Crew.play
  split <;> exact h.latest

theorem step (h : c.Ledger) (hc : c.Orderly) (m : Move) : (c.step m).Ledger := by
  cases m with
  | speak s text =>
    simp only [Crew.step]
    split
    · exact h.post hc text
    · exact h
  | start i => exact h.start hc i
  | take i => exact h.take hc i
  | play i p => exact h.play hc i p

theorem fresh (s : Settings) (offer : Engine.Offer) : (Crew.fresh s offer).Ledger :=
  ⟨.nil, nofun, nofun⟩

theorem run (h : c.Ledger) (hc : c.Orderly) (moves : List Move) : (c.run moves).Ledger := by
  induction moves generalizing c with
  | nil => exact h
  | cons m moves ih => exact ih (h.step hc m) (hc.step m)

/-- The said texts are some of the accepted ones, in the order of the calls. -/
theorem spoken_eq (h : c.Ledger) :
    c.announcer.spoken.map some = c.said.map fun e => c.accepted[e.number]? := by
  rw [c.spoken_eq, List.map_map]
  refine List.map_congr_left fun e he => ?_
  exact (h.known e (List.mem_append_left _ (List.mem_append_left _ he))).symm

theorem said_ordered (h : c.Ledger) : (c.said.map Entry.number).Pairwise (· < ·) := by
  refine h.ordered.sublist (List.Sublist.map _ ?_)
  unfold entries
  rw [List.append_assoc]
  exact List.sublist_append_left ..

end Ledger

theorem engine_step (c : Crew) (m : Move) : (c.step m).announcer.engine = c.announcer.engine := by
  cases m with
  | speak s text =>
    simp only [step]
    split <;> rfl
  | start i =>
    simp only [step, start]
    split <;> rfl
  | take i =>
    simp only [step, take]
    split
    · exact c.announcer.engine_take
    · rfl
  | play i p =>
    simp only [step, play]
    split <;> rfl

/-- The texts that are accepted are those of the calls that find the voice on. -/
theorem accepted_run (c : Crew) (moves : List Move) :
    (c.run moves).accepted = c.accepted ++ c.announcer.acceptedOf (moves.filterMap Move.call?) := by
  induction moves generalizing c with
  | nil => exact (List.append_nil _).symm
  | cons m moves ih =>
    have haccepts : (c.step m).announcer.acceptedOf = c.announcer.acceptedOf := by
      unfold Announcer.acceptedOf Announcer.accepts
      rw [c.engine_step m]
    change ((c.step m).run moves).accepted = _
    rw [ih, haccepts]
    cases m with
    | speak s text =>
      cases hs : c.announcer.accepts s with
      | true => simp [step, post, Announcer.acceptedOf, Move.call?, hs]
      | false => simp [step, Announcer.acceptedOf, Move.call?, hs]
    | start i => exact congrArg (· ++ _) (accepted_start c i)
    | take i => exact congrArg (· ++ _) (accepted_take c i)
    | play i p => exact congrArg (· ++ _) (accepted_play c i p)

def Numbered (n : Nat) (entries : List Entry) : Prop :=
  ∃ e ∈ entries, e.number = n

theorem numbered_append {n : Nat} {entries rest : List Entry} :
    Numbered n (entries ++ rest) ↔ Numbered n entries ∨ Numbered n rest := by
  unfold Numbered
  simp only [List.mem_append, or_and_right, exists_or]

/-- The text with the number `n` was in the queue until a later one was accepted, at least the fifth after it. -/
def GaveWay (c : Crew) (moves : List Move) (n : Nat) : Prop :=
  ∃ before s text, before ++ [.speak s text] <+: moves ∧ Numbered n (c.run before).waiting ∧
    ¬ Numbered n (c.run (before ++ [.speak s text])).waiting ∧
      n + 5 < (c.run (before ++ [.speak s text])).accepted.length

theorem GaveWay.snoc {c : Crew} {moves : List Move} {n : Nat} (h : c.GaveWay moves n) (m : Move) :
    c.GaveWay (moves ++ [m]) n := by
  obtain ⟨before, s, text, hprefix, hwaits, hgone, hlater⟩ := h
  exact ⟨before, s, text, hprefix.trans (List.prefix_append _ _), hwaits, hgone, hlater⟩

/-- The last of the texts that wait are those that have room beside a new one. -/
theorem numbered_waiting_post {c : Crew} (text : String) {i : Nat} {e : Entry} (he : c.waiting[i]? = some e)
    (hi : c.waiting.length + 1 - queueCapacity ≤ i) : Numbered e.number (c.post text).waiting := by
  have hlt := (List.getElem?_eq_some_iff.mp he).1
  refine ⟨e, List.mem_of_getElem? (i := i - (c.waiting.length + 1 - queueCapacity)) ?_, rfl⟩
  rw [post, List.getElem?_drop, Nat.add_sub_cancel' hi, List.getElem?_append_left hlt]
  exact he

/-- When a text is accepted, an older one stays or gives way. -/
theorem numbered_post_or_gaveWay {c : Crew} {moves : List Move} (h : (c.run moves).Ledger) (s : Settings)
    {text : String} (hstep : (c.run moves).step (.speak s text) = (c.run moves).post text) {n : Nat}
    (hn : Numbered n (c.run moves).entries) :
    Numbered n ((c.run moves).post text).entries ∨ c.GaveWay (moves ++ [.speak s text]) n := by
  rcases numbered_append.mp hn with hsaid | ⟨e, hwaiting, rfl⟩
  · left
    refine numbered_append.mpr (Or.inl ?_)
    rwa [held_post]
  by_cases hwaits : Numbered e.number ((c.run moves).post text).waiting
  · left
    exact numbered_append.mpr (Or.inr hwaits)
  · right
    obtain ⟨i, hi⟩ := List.getElem?_of_mem hwaiting
    have hoverflow : i < (c.run moves).waiting.length + 1 - 5 := by
      by_contra hroom
      exact hwaits (numbered_waiting_post text hi (Nat.le_of_not_lt hroom))
    have hnumber := h.latest i e hi
    refine ⟨moves, s, text, List.prefix_rfl, ⟨e, hwaiting, rfl⟩, ?_, ?_⟩
    · rwa [run_snoc, hstep]
    · rw [run_snoc, hstep]
      change e.number + 5 < ((c.run moves).accepted ++ [text]).length
      rw [List.length_append, List.length_singleton]
      omega

/-- The text that is accepted last is kept. -/
theorem numbered_post_last (c : Crew) (text : String) : Numbered c.accepted.length (c.post text).entries := by
  refine ⟨⟨c.accepted.length, text⟩, List.mem_append_right _ ?_, rfl⟩
  change _ ∈ (c.waiting ++ [Entry.mk c.accepted.length text]).drop (c.waiting.length + 1 - queueCapacity)
  rw [List.drop_append_of_le_length (by unfold queueCapacity; omega)]
  exact List.mem_append_right _ (List.mem_singleton.mpr rfl)

/-- Every accepted text is kept or gave way. -/
theorem numbered_or_gaveWay (s : Settings) (offer : Engine.Offer) (moves : List Move) {n : Nat}
    (hn : n < ((fresh s offer).run moves).accepted.length) :
    Numbered n ((fresh s offer).run moves).entries ∨ (fresh s offer).GaveWay moves n := by
  induction moves using List.reverseRecOn with
  | nil => cases hn
  | append_singleton moves m ih =>
    have hledger := (Ledger.fresh s offer).run (Orderly.fresh s offer) moves
    have horderly := (Orderly.fresh s offer).run moves
    rw [run_snoc] at hn ⊢
    rcases step_cases horderly m with ⟨s', text, rfl, hstep⟩ | ⟨hentries, haccepted⟩
    · rw [hstep] at hn ⊢
      have hlen : n < ((fresh s offer).run moves).accepted.length + 1 := by
        simpa [post] using hn
      rcases Nat.lt_succ_iff_lt_or_eq.mp hlen with hold | rfl
      · rcases ih hold with hkept | hgone
        · exact numbered_post_or_gaveWay hledger s' hstep hkept
        · exact Or.inr (hgone.snoc _)
      · exact Or.inl (numbered_post_last _ text)
    · rw [haccepted] at hn
      rw [hentries]
      exact (ih hn).imp_right fun hgone => hgone.snoc m

def unfailed (c : Crew) : Crew :=
  { c with announcer := c.announcer.unfailed, queue_eq := c.queue_eq, spoken_eq := c.spoken_eq }

theorem unfailed_start (c : Crew) (i : Nat) : (c.start i).unfailed = c.unfailed.start i := by
  have hworkers : c.unfailed.workers = c.workers := rfl
  unfold start
  rw [hworkers]
  split <;> rfl

theorem unfailed_take (c : Crew) (i : Nat) : (c.take i).unfailed = c.unfailed.take i := by
  by_cases hw : c.workers[i]? = some .running
  · rw [take, if_pos hw, take, if_pos (show c.unfailed.workers[i]? = _ from hw)]
    ext1
    · exact c.announcer.unfailed_take.symm
    all_goals rfl
  · rw [take, if_neg hw, take, if_neg (show ¬ c.unfailed.workers[i]? = _ from hw)]

theorem unfailed_play (c : Crew) (i : Nat) (p : Playback) :
    (c.play i p).unfailed = c.unfailed.play i { p with failing := [] } := by
  have hworkers : c.unfailed.workers = c.workers := rfl
  unfold play
  rw [hworkers]
  split <;> rfl

theorem unfailed_step (c : Crew) (m : Move) : (c.step m).unfailed = c.unfailed.step m.unfailing := by
  cases m with
  | speak s text =>
    change (if c.announcer.accepts s then c.post text else c).unfailed =
      if c.announcer.accepts s then c.unfailed.post text else c.unfailed
    split <;> rfl
  | start i => exact c.unfailed_start i
  | take i => exact c.unfailed_take i
  | play i p => exact c.unfailed_play i p

/-- A failed playback changes nothing but the record of failures. -/
theorem unfailed_run (c : Crew) (moves : List Move) :
    (c.run moves).unfailed = c.unfailed.run (moves.map Move.unfailing) := by
  induction moves generalizing c with
  | nil => rfl
  | cons m moves ih => exact (ih (c.step m)).trans (by rw [unfailed_step]; rfl)

/-- Without a worker every entry that has not given way is said. -/
theorem entries_of_no_worker {c : Crew} (h : c.Orderly) (hw : c.workers = []) : c.entries = c.said := by
  have hwaiting : c.waiting = [] := by
    have hqueue := (h.idle hw).queue
    rwa [c.queue_eq, List.map_eq_nil_iff] at hqueue
  simp [entries, held, hw, hwaiting]

/-- Texts are said in the order of the calls, none twice and none that was not accepted. An accepted text that is
not said waits, or a worker holds it, or it gave way; without a worker it gave way. Failures do not matter. When
workers are put aside, every round says the last five of the texts that it has accepted. -/
theorem delivered_in_order (s : Settings) (offer : Engine.Offer) :
    (∀ moves, let c := (fresh s offer).run moves
      c.accepted = (Announcer.start s offer).acceptedOf (moves.filterMap Move.call?) ∧
      c.announcer.spoken.map some = c.said.map (fun e => c.accepted[e.number]?) ∧
      (c.said.map Entry.number).Pairwise (· < ·) ∧
      (∀ n < c.accepted.length,
        Numbered n c.said ∨ Numbered n c.held ∨ Numbered n c.waiting ∨ (fresh s offer).GaveWay moves n) ∧
      (c.workers = [] → ∀ n < c.accepted.length, Numbered n c.said ∨ (fresh s offer).GaveWay moves n) ∧
      c.unfailed = (fresh s offer).run (moves.map Move.unfailing)) ∧
    (∀ ops : List Announcer.Operation, ∃ moves,
      moves.filterMap Move.call? = ops.filterMap Announcer.Operation.call? ∧
      ((fresh s offer).run moves).announcer = ops.foldl Announcer.perform (.start s offer)) ∧
    ∀ rounds : List (List String × List (Settings × String)),
      (rounds.foldl (fun a r => a.round r.1 r.2) (Announcer.start s offer)).spoken = rounds.flatMap fun r =>
        let texts := (Announcer.start s offer).acceptedOf r.2
        texts.drop (texts.length - 5) := by
  refine ⟨?_, exists_moves s offer, Announcer.spoken_rounds (Announcer.idle_start s offer)⟩
  intro moves c
  have hledger : c.Ledger := (Ledger.fresh s offer).run (Orderly.fresh s offer) moves
  have horderly : c.Orderly := (Orderly.fresh s offer).run moves
  refine ⟨accepted_run _ moves, hledger.spoken_eq, hledger.said_ordered, ?_, ?_, unfailed_run _ moves⟩
  · intro n hn
    rcases numbered_or_gaveWay s offer moves hn with hkept | hgone
    · rcases numbered_append.mp hkept with hsaid | hwaiting
      · exact (numbered_append.mp hsaid).imp_right Or.inl
      · exact Or.inr (Or.inr (Or.inl hwaiting))
    · exact Or.inr (Or.inr (Or.inr hgone))
  · intro hworkers n hn
    have hkept := numbered_or_gaveWay s offer moves hn
    rwa [entries_of_no_worker horderly hworkers] at hkept

end Crew

end TalkingCalculator
