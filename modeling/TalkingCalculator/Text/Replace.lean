/-!
# Substitution in a text

Every occurrence of a part, taken from the left and without overlap, gives way to another text.
-/
namespace TalkingCalculator.Text

def replaceAll (part new : List Char) : List Char → List Char
  | [] => []
  | c :: cs =>
    if part ≠ [] ∧ part.isPrefixOf (c :: cs) then
      new ++ replaceAll part new (cs.drop (part.length - 1))
    else c :: replaceAll part new cs
termination_by cs => cs.length
decreasing_by
  · simp only [List.length_drop, List.length_cons]; omega
  · simp

/-- Whether a text occurs in another. -/
def occursIn (part : List Char) : List Char → Bool
  | [] => part.isEmpty
  | c :: cs => part.isPrefixOf (c :: cs) || occursIn part cs

end TalkingCalculator.Text
