import TalkingCalculator.Main
import TalkingCalculator.Proofs.Expression.Readers
import TalkingCalculator.Proofs.Expression.Evaluation
import TalkingCalculator.Proofs.Binary.Packing
import TalkingCalculator.Proofs.Binary.Rounding
import TalkingCalculator.Proofs.Binary.Shifting
import TalkingCalculator.Proofs.Binary.Arithmetic
import TalkingCalculator.Proofs.Binary.Nearest
import TalkingCalculator.Proofs.Decimal.Reading
import TalkingCalculator.Proofs.Decimal.Shortest
import TalkingCalculator.Proofs.Decimal.Literal
import TalkingCalculator.Proofs.Decimal.Layout
import TalkingCalculator.Proofs.Expression.Lexing
import TalkingCalculator.Proofs.Expression.Display
import TalkingCalculator.Proofs.Calculator.Commit
import TalkingCalculator.Proofs.Voice.Rounds
import TalkingCalculator.Proofs.Voice.Workers
import TalkingCalculator.Proofs.Voice.Schedules
import TalkingCalculator.Proofs.Voice.Delivery
import TalkingCalculator.Proofs.Binary.Comparison
import TalkingCalculator.Proofs.Calculator.Faults
import TalkingCalculator.Proofs.Calculator.Outcome
import TalkingCalculator.Proofs.Calculator.Keys
import TalkingCalculator.Proofs.Session.Refinement
import TalkingCalculator.Proofs.Calculator.Parts
import TalkingCalculator.Proofs.Calculator.Runs
import TalkingCalculator.Proofs.Calculator.Modes
import TalkingCalculator.Proofs.Calculator.Refusals
import TalkingCalculator.Proofs.Calculator.Procedures
import TalkingCalculator.Proofs.Calculator.Texts
import TalkingCalculator.Proofs.Equation.Coefficient
import TalkingCalculator.Proofs.Calculator.Fields
import TalkingCalculator.Proofs.Screen.Ascii
import TalkingCalculator.Proofs.Screen.Painting
import TalkingCalculator.Proofs.Session.Ascii
import TalkingCalculator.Proofs.Binary.Signs
import TalkingCalculator.Proofs.Binary.Difference
import TalkingCalculator.Proofs.Binary.Products
import TalkingCalculator.Proofs.Decimal.Fixed
import TalkingCalculator.Proofs.Equation.Discriminant
import TalkingCalculator.Proofs.Equation.Conjugates
import TalkingCalculator.Proofs.Expression.Nesting
import TalkingCalculator.Proofs.Expression.Composition
import TalkingCalculator.Proofs.Session.Procedures
import TalkingCalculator.Proofs.Expression.Rendering
import TalkingCalculator.Proofs.Equation.Agreement
import TalkingCalculator.Proofs.Calculator.Typing
import TalkingCalculator.Proofs.Calculator.Continuation
import TalkingCalculator.Proofs.Session.Announcements
import TalkingCalculator.Proofs.Session.Labels
import TalkingCalculator.Proofs.Equation.Operations
import TalkingCalculator.Proofs.Decimal.Mantissa
import TalkingCalculator.Proofs.Equation.Longest
import TalkingCalculator.Proofs.Calculator.Deletion
import TalkingCalculator.Proofs.Binary.Opposites
import TalkingCalculator.Proofs.Calculator.LeadingMinus
import TalkingCalculator.Proofs.Binary.Propagation
import TalkingCalculator.Proofs.Expression.Finiteness
import TalkingCalculator.Proofs.Expression.Parsing
import TalkingCalculator.Proofs.Expression.Viability
import TalkingCalculator.Proofs.Text.Substitution
import TalkingCalculator.Proofs.Voice.Reading
import TalkingCalculator.Proofs.Equation.Symmetries
import TalkingCalculator.Proofs.Binary.Exactness
import TalkingCalculator.Proofs.Equation.IntegerRoots
import TalkingCalculator.Proofs.Binary.Order
import TalkingCalculator.Proofs.Equation.FourPlaces
import TalkingCalculator.Proofs.Expression.Progress
import TalkingCalculator.Proofs.Expression.Calls
import TalkingCalculator.Proofs.Screen.Shrinking
import TalkingCalculator.Proofs.Session.Turns
import TalkingCalculator.Proofs.Decimal.Grids
import TalkingCalculator.Proofs.Decimal.Readings
import TalkingCalculator.Proofs.Expression.Printing
