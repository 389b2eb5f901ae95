/-!
# Blanks

The code points that separate words: the white space of Unicode 14 together with the four separators of
the control block. Splitting at blanks loses them, however many stand together.
-/
namespace TalkingCalculator.Text

/-- The ranges of blanks, ends included. -/
def blankRanges : List (Nat × Nat) :=
  [
   (0x9, 0xd), (0x1c, 0x20), (0x85, 0x85), (0xa0, 0xa0), (0x1680, 0x1680), (0x2000, 0x200a),
   (0x2028, 0x2029), (0x202f, 0x202f), (0x205f, 0x205f), (0x3000, 0x3000)
  ]

def isBlank (c : Char) : Bool :=
  blankRanges.any fun r => r.1 ≤ c.toNat && c.toNat ≤ r.2

/-- The words of a text, none of them empty. -/
def words (cs : List Char) : List (List Char) :=
  go [] cs
where
  /-- `word` holds the letters of the current word, last one first. -/
  go (word : List Char) : List Char → List (List Char)
    | [] => if word.isEmpty then [] else [word.reverse]
    | c :: cs =>
      if isBlank c then
        if word.isEmpty then go [] cs else word.reverse :: go [] cs
      else go (c :: word) cs

end TalkingCalculator.Text
