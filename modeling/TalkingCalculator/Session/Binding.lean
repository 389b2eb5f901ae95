import TalkingCalculator.Calculator.Key

/-!
# Key codes

The codes that a window reports, and the keys of the calculator that they stand for. Three codes are kept for
the session itself: two to quit, and one to turn the voice on and off.
-/
namespace TalkingCalculator

namespace KeyCode

def escape : Int := 27

def quit : Int := 'q'.toNat

def voice : Int := 'v'.toNat

/-- The digit keys in order of their codes, then the others. -/
def bindings : List (Int × Key) :=
  ((List.finRange 10).map fun d => (('0'.toNat + d.val : Int), Key.digit d)) ++
  [('.', Key.point), ('+', .operator .add), ('-', .operator .subtract), ('*', .operator .multiply),
    ('/', .operator .divide), ('(', .openParen), (')', .closeParen), ('s', .function .sin),
    ('c', .function .cos), ('t', .function .tan), ('x', .clear), ('m', .toggleMode), ('\t', .cycleFocus),
    ('A', .focus .a), ('B', .focus .b), ('C', .focus .c), ('\r', .commit), ('\n', .commit), ('=', .commit),
    ('\x08', .delete), ('\x7f', .delete)].map fun (c, key) => ((c.toNat : Int), key)

def key? (code : Int) : Option Key :=
  bindings.lookup code

/-- The low eight bits of a code, which is all that a key is told by. -/
def masked (code : Int) : Int :=
  code % 256

end KeyCode

end TalkingCalculator
