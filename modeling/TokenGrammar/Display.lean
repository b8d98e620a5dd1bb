import TokenGrammar.Bounds
import TokenGrammar.Cursor
import TokenGrammar.Token

/-! Written forms of failures, bounds and cursors: a message for a reader, and a record of
all fields. -/
namespace TokenGrammar

namespace Failure
variable {T : Type} [TokenText T]
open TokenText (text)

def message : Failure T → String
  | unexpectedToken expected actual p =>
    "expected " ++ text expected ++ ", found " ++ text actual ++ " at position " ++ Text.decimal p
  | unexpectedEnd p => "unexpected end of input at position " ++ Text.decimal p
  | rejected => "assertion failed"
  | unexpectedMatch p => "unexpected match at position " ++ Text.decimal p
  | trailing actual p =>
    "unconsumed token " ++ text actual ++ " at position " ++ Text.decimal p

def record : Failure T → String
  | unexpectedToken expected actual p => Text.record "UnexpectedToken"
      [("expected", text expected), ("actual", text actual), ("position", Text.decimal p)]
  | unexpectedEnd p => Text.record "UnexpectedEndOfInput" [("position", Text.decimal p)]
  | rejected => "AssertionFailed"
  | unexpectedMatch p => Text.record "UnexpectedMatch" [("position", Text.decimal p)]
  | trailing actual p => Text.record "TrailingInput"
      [("actual", text actual), ("position", Text.decimal p)]

end Failure

def Limit.name : Limit → String
  | .afterwards => "PostHoc"
  | .capped => "Capped"

def Bounds.record (b : Bounds) : String := Text.record "RepeatConfig" [
  ("min", Text.decimal b.least),
  ("max", Text.ofOption (b.most.map Text.decimal)),
  ("limit", b.limit.name)]

/-- The cursor's position and the token in front of it. -/
def Cursor.record {T : Type} [TokenText T] (c : Cursor T) : String := Text.record "TokenCursor" [
  ("position", Text.decimal c.position),
  ("next", Text.ofOption (c.peek?.map TokenText.text))]

end TokenGrammar
