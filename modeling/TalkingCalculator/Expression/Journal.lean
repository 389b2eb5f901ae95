import TalkingCalculator.Expression.Evaluation
import TalkingCalculator.Journal

/-!
# Records of an evaluation

A text that splits into tokens leaves a record, and one that also has a value leaves a second.
-/
namespace TalkingCalculator

def tokenizeRecords (text : String) : List Record :=
  match tokenize text with
  | .error _ => []
  | .ok tokens =>
    [⟨.tokens, .debug, "Tokenizado " ++ Text.quote text ++ s!" -> {tokens.length} tokens"⟩]

def evaluateRecords (text : String) : List Record :=
  tokenizeRecords text ++ match evaluate text with
    | .error _ => []
    | .ok v => [⟨.evaluation, .debug, "Evaluado " ++ Text.quote text ++ " = " ++ reportStyle.write v⟩]

end TalkingCalculator
