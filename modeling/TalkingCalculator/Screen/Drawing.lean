/-!
# Drawing commands

A frame is drawn by commands on the image or on a copy of it, the overlay, which is then blended into the
image. Coordinates are pixels from the upper left corner.
-/
namespace TalkingCalculator

structure Colour where
  blue : Int
  green : Int
  red : Int
deriving DecidableEq, Repr

inductive Face where
  | simplex
  | duplex
deriving DecidableEq, Repr

inductive Layer where
  | image
  | overlay
deriving DecidableEq, Repr

inductive Drawing where
  /-- A negative thickness fills the rectangle. -/
  | rectangle (layer : Layer) (x₁ y₁ x₂ y₂ : Int) (colour : Colour) (thickness : Int)
  | line (x₁ y₁ x₂ y₂ : Int) (colour : Colour) (thickness : Int)
  | text (content : String) (x y : Int) (face : Face) (scale : Float) (colour : Colour) (thickness : Int)
  /-- Blends the overlay into the image, with the weights of the two. -/
  | blend (overlay image : Float)
deriving DecidableEq

/-- The text of a command that draws one. -/
def Drawing.content? : Drawing → Option String
  | text content .. => some content
  | _ => none

end TalkingCalculator
