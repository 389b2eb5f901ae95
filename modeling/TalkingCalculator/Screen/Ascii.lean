/-!
# Texts that can be drawn

The screen draws ASCII alone, so the signs of the display have ASCII stand-ins.
-/
namespace TalkingCalculator

def asciiChar : Char → Char
  | '×' => 'x'
  | '÷' => '/'
  | '−' => '-'
  | '₁' => '1'
  | '₂' => '2'
  | c => c

def toAscii (text : String) : String :=
  String.ofList (text.toList.map asciiChar)

end TalkingCalculator
