import Sift.Token
import Sift.Resolution.State

/-!
# Errors of a match

A match fails on a document that is not as JSON should be, as far as it is read. It also fails
when it is asked for out of turn, and when the plan is not one that compiling makes: such a plan is
reported as a `Defect`.
-/

namespace Sift

/-- What may come next in a document. -/
inductive Expected
  | value | key | colon | memberEnd | elementEnd
  deriving DecidableEq, Repr

/-- How it is named in messages. -/
def Expected.text : Expected → String
  | .value => "a value"
  | .key => "an object key"
  | .colon => "':'"
  | .memberEnd => "',' or '\x7d'"
  | .elementEnd => "',' or ']'"

/-- What can be wrong with a plan. -/
inductive Defect
  /-- Two tests or loops have the same bucket. -/
  | doubleMark (d : Resolution.DoubleMark)
  /-- A bucket is asked for that there is none of. -/
  | noBucket (bucket : Nat)
  /-- A slot is asked for that there is none of. -/
  | noSlot (slot : Nat)
  /-- A part of the document is asked for that there is none of. -/
  | noSpan (offset stop : Nat)
  /-- A loop that waits has an array that is not captured. -/
  | notCaptured
  /-- Reading goes on past any number of tokens that the document could have. -/
  | endless
  deriving DecidableEq, Repr

/-- What is said of a defect. -/
def Defect.message : Defect → String
  | .doubleMark d => d.message
  | .noBucket bucket => s!"there is no bucket {bucket}"
  | .noSlot slot => s!"there is no slot {slot}"
  | .noSpan offset stop => s!"the document has no bytes from {offset} to {stop}"
  | .notCaptured => "a loop that waits has an array that is not captured"
  | .endless => "the plan has no end"

/-- Why a document cannot be matched. -/
inductive MatchError
  | lex (e : LexError)
  | unexpectedToken (offset : Nat) (found : TokenKind) (expected : Expected)
  | unexpectedEnd
  | trailingData (offset : Nat)
  /-- The matcher has not been reset since it was used. -/
  | staleState
  | defect (d : Defect)
  deriving DecidableEq, Repr

namespace MatchError

/-- What an error says. -/
def message : MatchError → String
  | .lex e => e.message
  | .unexpectedToken offset found expected =>
    s!"unexpected {found.name} at offset {offset}, expected {expected.text}"
  | .unexpectedEnd => "document ended before a value was found"
  | .trailingData offset => s!"unexpected data after the document at offset {offset}"
  | .staleState => "match called again without a reset"
  | .defect d => d.message

/-- A token that may not stand where it does. -/
def ofToken (token : Token) (expected : Expected) : MatchError :=
  match token.kind with
  | .finish => .unexpectedEnd
  | found => .unexpectedToken token.offset found expected

end MatchError

end Sift
