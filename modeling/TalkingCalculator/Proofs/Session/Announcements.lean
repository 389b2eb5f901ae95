import Mathlib.Data.List.Induction
import TalkingCalculator.Proofs.Session.Procedures
import TalkingCalculator.Proofs.Session.Refinement
import TalkingCalculator.Proofs.Voice.Audible
import TalkingCalculator.Proofs.Voice.Rounds

/-!
# Announcements

What the engine is given to say was handed to the announcer by a step before: it is what is said for a key, that the
voice is on, or a text from elsewhere. All that a session says of its own accord is audible but for one key. When
keys are read, the opening parenthesis is announced with an empty text.
-/
namespace TalkingCalculator

namespace Announcer

variable (p : Playback) (a : Announcer) {text said : String}

/-- The texts that the engine was given and those that wait. -/
def texts (a : Announcer) : List String :=
  a.spoken ++ a.queue

theorem texts_turn : (a.turn p).texts = a.texts := by
  unfold turn texts
  cases a.queue with
  | nil => rfl
  | cons text queue => exact List.append_cons _ _ _ |>.symm

/-- However many turns workers take, the texts are the same. -/
theorem texts_runWorkers : (a.runWorkers p).texts = a.texts :=
  runWorkers_keeps (P := fun b => b.texts = a.texts) (fun b hb => (texts_turn p b).trans hb) rfl

theorem mem_texts_post (h : text ∈ (a.post said).texts) : text ∈ a.texts ∨ text = said := by
  have hsubset : (a.post said).texts ⊆ a.spoken ++ (a.queue ++ [said]) :=
    List.append_subset.mpr ⟨List.subset_append_left _ _,
      List.Subset.trans (List.drop_subset _ _) (List.subset_append_right _ _)⟩
  have hmem := hsubset h
  rw [← List.append_assoc] at hmem
  exact (List.mem_append.mp hmem).imp_right List.mem_singleton.mp

theorem mem_texts_speak {s : Settings} (h : text ∈ (a.speak p s said).texts) : text ∈ a.texts ∨ text = said := by
  unfold speak at h
  split at h
  · split at h
    · exact a.mem_texts_post h
    · rw [texts_runWorkers] at h
      exact a.mem_texts_post h
  · exact Or.inl h

end Announcer

namespace Reaction

variable {s : Settings} {c : Calculator} {key : Key} {piece text : String}

theorem said_of_piece (hpiece : key.piece? = some piece) :
    (ofKey s c key).said = if s.speakKeys then some (Spoken.key piece) else none := by
  cases key with
  | digit | point | operator | function | openParen | closeParen =>
    cases hpiece
    rfl
  | clear | delete | toggleMode | cycleFocus | focus | commit => cases hpiece

theorem said_committed (o : Outcome) : (committed s o).said = some (Spoken.result o.text) := by
  unfold committed
  split <;> rfl

theorem audible_key_piece (hpiece : key.piece? = some piece) (hkey : key ≠ .openParen) :
    Audible (Spoken.key piece).toList := by
  refine Spoken.audible_key ?_
  cases key with
  | digit d =>
    cases hpiece
    revert d
    decide
  | operator op =>
    cases hpiece
    cases op <;> decide
  | function f =>
    cases hpiece
    cases f <;> decide
  | point | closeParen =>
    cases hpiece
    decide
  | openParen => exact absurd rfl hkey
  | clear | delete | toggleMode | cycleFocus | focus | commit => cases hpiece

/-- What is said for a key is audible, unless it is the opening parenthesis. -/
theorem audible_said (h : (ofKey s c key).said = some text) :
    Audible text.toList ∨ text = "" ∧ key = .openParen ∧ s.speakKeys = true := by
  cases hpiece : key.piece? with
  | some piece =>
    rw [said_of_piece hpiece] at h
    split at h
    · rename_i hkeys
      cases h
      by_cases hkey : key = .openParen
      · subst hkey
        cases hpiece
        exact Or.inr ⟨Spoken.key_openParen, rfl, hkeys⟩
      · exact Or.inl (audible_key_piece hpiece hkey)
    · cases h
  | none =>
    left
    cases key with
    | digit | point | operator | function | openParen | closeParen => cases hpiece
    | delete | cycleFocus | focus => cases h
    | clear =>
      cases h
      decide
    | toggleMode =>
      unfold ofKey at h
      cases hmode : c.mode <;> rw [hmode] at h <;> cases h <;> decide
    | commit =>
      change (committed s c.outcome).said = some text at h
      rw [said_committed] at h
      cases h
      exact Spoken.audible_result _

end Reaction

namespace KeyCode

def openParen : Int := '('.toNat

theorem eq_openParen_of_bound? {code : Int} (h : bound? code = some .openParen) : code = openParen := by
  have hbindings : ∀ b ∈ bindings, b.2 = .openParen → b.1 = openParen := by decide
  unfold bound? at h
  split at h
  · cases h
  · obtain ⟨before, after, hcodes, -⟩ := List.lookup_eq_some_iff.mp h
    refine hbindings (code, .openParen) ?_ rfl
    rw [hcodes]
    exact List.mem_append_right _ List.mem_cons_self

end KeyCode

namespace Session

variable {s : Session} {step : Step} {text : String}

inductive Says (s : Session) : Step → String → Prop
  | key {p : Playback} {code : Int} {key : Key} {text : String} (hkey : KeyCode.bound? code = some key)
      (hsaid : (Reaction.ofKey s.settings s.calculator key).said = some text) : Says s (.key p code) text
  | voice {p : Playback} (hoff : s.settings.voiceEnabled = false) : Says s (.key p KeyCode.voice) "voz activada"
  | speak {p : Playback} {text : String} : Says s (.speak p text) text

theorem announcer_process (p : Playback) (s : Session) (key : Key) :
    (s.process p key.event).1.announcer =
      (Reaction.ofKey s.settings s.calculator key).said.elim s.announcer (s.announcer.speak p s.settings) := by
  rw [process_key]
  cases key with
  | digit | point => exact congrArg announcer (showDigit_eq p _ _)
  | operator | function | openParen | closeParen => exact congrArg announcer (showSign_eq p _ _)
  | commit => exact congrArg announcer (showOutcome_eq p _ _)
  | toggleMode =>
    obtain ⟨settings, size, ⟨mode, display, coefficients, active⟩, feedback, announcer⟩ := s
    cases mode <;> rfl
  | clear | delete | cycleFocus | focus => rfl

theorem announcer_toggleVoice (p : Playback) (s : Session) :
    (s.toggleVoice p).announcer = s.announcer ∨ s.settings.voiceEnabled = false ∧
      ∃ settings, (s.toggleVoice p).announcer = s.announcer.speak p settings "voz activada" := by
  unfold toggleVoice
  cases hvoice : s.settings.voiceEnabled with
  | true => exact Or.inl rfl
  | false => exact Or.inr ⟨rfl, _, rfl⟩

theorem announcer_draw (s : Session) (canvas : Canvas) (now : Float) : (s.draw canvas now).announcer = s.announcer := by
  unfold draw render
  cases Screen.render s.settings s.size now s.feedback s.calculator.view canvas <;> rfl

theorem says_of_mem_press {p : Playback} {code : Int} (h : text ∈ (s.press p code).announcer.texts) :
    text ∈ s.announcer.texts ∨ s.Says (.key p code) text := by
  rcases s.press_cases p code with ⟨key, hkey, hpress⟩ | ⟨-, ⟨rfl, hpress⟩ | hpress⟩
  · rw [hpress, announcer_process] at h
    cases hsaid : (Reaction.ofKey s.settings s.calculator key).said with
    | none =>
      rw [hsaid] at h
      exact Or.inl h
    | some said =>
      rw [hsaid] at h
      refine (s.announcer.mem_texts_speak p h).imp_right ?_
      rintro rfl
      exact .key hkey hsaid
  · rw [hpress] at h
    rcases s.announcer_toggleVoice p with hsame | ⟨hoff, settings, hspeak⟩
    · rw [hsame] at h
      exact Or.inl h
    · rw [hspeak] at h
      refine (s.announcer.mem_texts_speak p h).imp_right ?_
      rintro rfl
      exact .voice hoff
  · rw [hpress] at h
    exact Or.inl h

/-- A step adds no text but what it says. -/
theorem says_of_mem_step (h : text ∈ (s.step step).announcer.texts) :
    text ∈ s.announcer.texts ∨ s.Says step text := by
  cases step with
  | key p code => exact says_of_mem_press h
  | draw canvas now =>
    change text ∈ (s.draw canvas now).announcer.texts at h
    rw [announcer_draw] at h
    exact Or.inl h
  | speak p said =>
    refine (s.announcer.mem_texts_speak p h).imp_right ?_
    rintro rfl
    exact .speak
  | turn p =>
    change text ∈ (s.announcer.turn p).texts at h
    rw [Announcer.texts_turn] at h
    exact Or.inl h
  | runWorkers p =>
    change text ∈ (s.announcer.runWorkers p).texts at h
    rw [Announcer.texts_runWorkers] at h
    exact Or.inl h
  | configure settings => exact Or.inl h

theorem run_snoc (s : Session) (steps : List Step) (step : Step) :
    s.run (steps ++ [step]) = (s.run steps).step step :=
  List.foldl_concat _ _ _ _

/-- Every text of a run was handed to the announcer by one of its steps. -/
theorem says_of_mem_run {steps : List Step} (h : text ∈ (s.run steps).announcer.texts) :
    text ∈ s.announcer.texts ∨
      ∃ before step, before ++ [step] <+: steps ∧ (s.run before).Says step text := by
  induction steps using List.reverseRecOn with
  | nil => exact Or.inl h
  | append_singleton steps step ih =>
    -- The last step has said the text, or it was there before.
    rw [run_snoc] at h
    rcases says_of_mem_step h with hbefore | hsays
    · refine (ih hbefore).imp_right ?_
      rintro ⟨before, step', hprefix, hsays⟩
      exact ⟨before, step', hprefix.trans (List.prefix_append _ _), hsays⟩
    · exact Or.inr ⟨steps, step, List.prefix_rfl, hsays⟩

/-- What a step says of its own accord is audible, unless it is the key of the opening parenthesis. -/
theorem Says.audible (h : s.Says step text) :
    Audible text.toList ∨ (∃ p, step = .speak p text) ∨
      text = "" ∧ s.settings.speakKeys = true ∧ ∃ p, step = .key p KeyCode.openParen := by
  cases h with
  | key hkey hsaid =>
    rcases Reaction.audible_said hsaid with haudible | ⟨hempty, rfl, hkeys⟩
    · exact Or.inl haudible
    · rw [KeyCode.eq_openParen_of_bound? hkey]
      exact Or.inr (Or.inr ⟨hempty, hkeys, _, rfl⟩)
  | voice =>
    left
    decide
  | speak => exact Or.inr (Or.inl ⟨_, rfl⟩)

theorem press_openParen (p : Playback) (s : Session) (hkeys : s.settings.speakKeys = true) :
    (s.press p KeyCode.openParen).announcer = s.announcer.speak p s.settings "" := by
  have hbound : KeyCode.bound? KeyCode.openParen = some .openParen := by decide
  have hsaid : (Reaction.ofKey s.settings s.calculator .openParen).said = some "" := by
    rw [Reaction.said_of_piece rfl, if_pos hkeys, Spoken.key_openParen]
  rcases s.press_cases p KeyCode.openParen with ⟨key, hkey, hpress⟩ | ⟨hnone, -⟩
  · cases hbound.symm.trans hkey
    rw [hpress, announcer_process, hsaid]
    rfl
  · cases hbound.symm.trans hnone

/-- Every text that the engine is given is audible or was handed in from elsewhere, but for the empty one that the key
of the opening parenthesis announces when keys are read. -/
theorem audible_or_openParen (settings : Settings) (offer : Engine.Offer) (steps : List Step) :
    (∀ text ∈ ((start settings offer).run steps).announcer.spoken,
      Audible text.toList ∨ (∃ p, .speak p text ∈ steps) ∨
        text = "" ∧ ∃ before p, before ++ [.key p KeyCode.openParen] <+: steps ∧
          ((start settings offer).run before).settings.speakKeys = true) ∧
    ∀ (s : Session) (p : Playback), s.settings.speakKeys = true →
      (s.press p KeyCode.openParen).announcer = s.announcer.speak p s.settings "" := by
  refine ⟨fun text htext => ?_, fun s p => press_openParen p s⟩
  have htexts : text ∈ ((start settings offer).run steps).announcer.texts := List.mem_append_left _ htext
  rcases says_of_mem_run htexts with hstart | ⟨before, step, hprefix, hsays⟩
  · cases hstart
  · rcases hsays.audible with haudible | ⟨p, rfl⟩ | ⟨hempty, hkeys, p, rfl⟩
    · exact Or.inl haudible
    · exact Or.inr (Or.inl ⟨p, hprefix.subset (List.mem_append_right _ List.mem_cons_self)⟩)
    · exact Or.inr (Or.inr ⟨hempty, before, p, hprefix, hkeys⟩)

/-- The engine is given an empty text for the opening parenthesis. -/
theorem not_audible_openParen :
    ¬ ∀ (settings : Settings) (offer : Engine.Offer) (p : Playback) (codes : List Int),
      ∀ text ∈ ((start settings offer).run (codes.map (.key p))).announcer.spoken, Audible text.toList := by
  intro h
  have hspoken : ((start { Settings.standard with speakKeys := true } (.ok [])).run
      ([KeyCode.openParen].map (.key ⟨false, []⟩))).announcer.spoken = [""] := by
    decide +kernel
  have haudible := h { Settings.standard with speakKeys := true } (.ok []) ⟨false, []⟩ [KeyCode.openParen] ""
  rw [hspoken] at haudible
  exact absurd (haudible List.mem_cons_self) (by decide)

end Session

end TalkingCalculator
