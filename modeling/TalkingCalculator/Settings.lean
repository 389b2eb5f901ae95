/-!
# Settings

What the user chooses before a session, and a few things that change during one.
-/
namespace TalkingCalculator

structure Settings where
  voiceEnabled : Bool
  /-- From 0 to 1. -/
  voiceVolume : Float
  /-- In words a minute. -/
  voiceRate : Int
  voiceLanguage : String
  /-- Whether keys are read aloud, and not results alone. -/
  speakKeys : Bool
  windowWidth : Int
  windowHeight : Int
  largeText : Bool
  showKeyGuide : Bool
  /-- For how many frames a message is shown. -/
  feedbackFrames : Int
  /-- From 0 to 1. -/
  guideOpacity : Float
deriving DecidableEq

namespace Settings

def standard : Settings where
  voiceEnabled := true
  voiceVolume := 0.8
  voiceRate := 150
  voiceLanguage := "es"
  speakKeys := false
  windowWidth := 1000
  windowHeight := 640
  largeText := false
  showKeyGuide := true
  feedbackFrames := 40
  guideOpacity := 0.9

/-- The scale of a text that is drawn at `base` when letters are not enlarged. -/
def fontScale (s : Settings) (base : Float) : Float :=
  base * if s.largeText then 1.3 else 1.0

end Settings

end TalkingCalculator
