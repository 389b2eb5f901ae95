import TalkingCalculator.Decimal.Reading
import TalkingCalculator.Text.ByteCount

/-!
# Canvases

A frame is drawn on a canvas of the size of its window, with three bytes for each pixel. What the canvas says of the
widths of texts and of sizes is not for the screen to decide. A size may be refused: for a side that is negative or no
machine number, for more bytes than a machine number counts, or for more than there is memory for.
-/
namespace TalkingCalculator

structure WindowSize where
  width : Int
  height : Int
deriving DecidableEq, Repr

inductive CanvasError where
  /-- A side is no signed number of 64 bits. -/
  | side
  | negative
  /-- The bytes are more than a signed number of 64 bits counts. -/
  | uncountable
  | memory (size : WindowSize)
deriving DecidableEq, Repr

/-- The greatest signed number of 64 bits. -/
def greatestWord : Int := 9223372036854775807

def isWord (n : Int) : Bool :=
  -greatestWord - 1 ≤ n && n ≤ greatestWord

namespace WindowSize

/-- The bytes of the pixels, for which memory is needed. -/
def bytes (s : WindowSize) : Int :=
  s.height * s.width * 3

/-- The bytes that are counted, where a side of zero counts like a side of one. -/
def countedBytes (s : WindowSize) : Int :=
  (if s.height = 0 then 1 else s.height) * (if s.width = 0 then 1 else s.width) * 3

/-- Why there is no canvas of this size where `memory` bytes are left, if there is none. -/
def fault? (memory : Int) (s : WindowSize) : Option CanvasError :=
  if !(isWord s.height && isWord s.width) then some .side
  else if s.height < 0 ∨ s.width < 0 then some .negative
  else if greatestWord < s.countedBytes then some .uncountable
  else if memory < s.bytes then some (.memory s)
  else none

end WindowSize

def CanvasError.message : CanvasError → String
  | side => "Maximum allowed dimension exceeded"
  | negative => "negative dimensions are not allowed"
  | uncountable =>
    "array is too big; `arr.size * arr.dtype.itemsize` is larger than the maximum possible size."
  | memory s => "Unable to allocate " ++ Text.byteCount s.bytes.toNat ++ " for an array with shape (" ++
      toString s.height ++ ", " ++ toString s.width ++ ", 3) and data type uint8"

/-- What a screen asks of the library that it draws with. -/
structure Canvas where
  /-- The width of a text at a scale. -/
  width (text : String) (scale : Float) : Int
  /-- Why a size is refused, if it is. -/
  refusal? (size : WindowSize) : Option CanvasError

/-- Every character is twenty pixels wide at the scale one, and there is memory for sixteen gibibytes. -/
def Canvas.plain : Canvas where
  width text scale := wholePart (Float.ofNat (text.length * 20) * scale)
  refusal? := WindowSize.fault? 17179869184

end TalkingCalculator
