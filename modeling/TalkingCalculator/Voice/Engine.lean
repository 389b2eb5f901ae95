import TalkingCalculator.Journal
import TalkingCalculator.Settings
import TalkingCalculator.Text.Lowercase
import TalkingCalculator.Text.Replace

/-!
# Speech engines

An engine offers voices, and the first one of the chosen language is taken. An engine that does not start
turns the voice off.
-/
namespace TalkingCalculator

structure Voice where
  id : String
  name : String
  languages : List String
deriving DecidableEq, Repr

/-- Whether the language, in small letters, is part of the identifier or of a language of the voice. -/
def Voice.speaks (v : Voice) (language : String) : Bool :=
  (v.id :: v.languages).any fun l =>
    Text.occursIn language.toList (Text.lowercase l).toList

structure Engine where
  volume : Float
  rate : Int
  voice : Option String
deriving DecidableEq

namespace Engine

/-- What the system has to speak with: voices, or the reason why it has none. -/
abbrev Offer := Except String (List Voice)

def choose (s : Settings) (voices : List Voice) : Option Voice :=
  voices.find? (·.speaks (Text.lowercase s.voiceLanguage))

def start (s : Settings) : Offer → Option Engine
  | .error _ => none
  | .ok voices => some ⟨s.voiceVolume, s.voiceRate, (choose s voices).map (·.id)⟩

def startRecords (s : Settings) : Offer → List Record
  | .error reason => [⟨.voice, .warning, "No se pudo inicializar el sistema de voz: " ++ reason⟩]
  | .ok voices =>
    (match choose s voices with
    | some v => [⟨.voice, .info, "Voz seleccionada: " ++ v.name⟩]
    | none => [⟨.voice, .warning, "No se encontró voz para '" ++ Text.lowercase s.voiceLanguage ++
        "'. Usando voz predeterminada."⟩]) ++
    [⟨.voice, .info, "Sistema de voz inicializado correctamente"⟩]

end Engine

end TalkingCalculator
