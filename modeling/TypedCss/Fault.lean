import TypedCss.Place
import TypedCss.Text.Quoted

/-!
What can stop the reading, the folding or the writing of a stylesheet.
-/

namespace TypedCss

/-- Why the work stopped. -/
inductive Cause where
  /-- No token begins with this character. -/
  | unrecognised (character : String)
  /-- This token cannot stand here. -/
  | unexpected (token : String)
  /-- This token cannot stand here, and `message` says what could. -/
  | misplaced (token message : String)
  /-- The number does not fit 32 bits. -/
  | badNumber (token : String)
  | unassigned (name : String)
  /-- The operands do not fit together. -/
  | unsupported (operator lhs rhs : String)
  /-- An expression stands where only a value can be written. -/
  | unfolded
  /-- The registered forms send the parser round without reading on. -/
  | runaway
  deriving DecidableEq, Repr

structure Fault where
  cause : Cause
  position : Position
  deriving DecidableEq, Repr

namespace Cause

def name : Cause → String
  | unrecognised _ => "UnrecognisedToken"
  | unexpected _ => "UnexpectedToken"
  | misplaced _ _ => "UnexpectedTokenDetailed"
  | badNumber _ => "NumberParseError"
  | unassigned _ => "UnresolvedVariable"
  | unsupported _ _ _ => "UnsupportedOperation"
  | unfolded => "UnfoldedExpression"
  | runaway => "RunawayGrammar"

/-- What happened, with tokens, messages and names in quotes. -/
def detail : Cause → String
  | unrecognised c => "unrecognised token: " ++ Text.quoted c
  | unexpected t => "unexpected token: " ++ Text.quoted t
  | misplaced t message => "unexpected token (" ++ Text.quoted message ++ "): " ++ Text.quoted t
  | badNumber t => "error parsing number: " ++ Text.quoted t
  | unassigned name => "variable " ++ Text.quoted name ++ " has no assigned value"
  | unsupported op lhs rhs => "unsupported operation: " ++ lhs ++ " " ++ op ++ " " ++ rhs
  | unfolded => "expression was not folded to a literal"
  | runaway => "the registered forms never read on"

/-- A hint for the author of the stylesheet. -/
def tip : Cause → Option String
  | unrecognised _ => none
  | unexpected t => some ("Unexpected token: `" ++ t ++ "`, did you miss a semicolon?")
  | misplaced t message => some ("Unexpected token: `" ++ t ++ "`, " ++ message)
  | badNumber t => some ("Invalid number: `" ++ t ++ "`, is it above the integer limit?")
  | unassigned name => some ("Variable `" ++ name ++ "` has no value here")
  | unsupported op lhs rhs => some ("Cannot apply `" ++ op ++ "` to `" ++ lhs ++ "` and `" ++ rhs ++ "`")
  | unfolded => some "Expressions must be evaluated before generating css"
  | runaway => some "Each registered form has to read at least one token"

end Cause

def Fault.message (f : Fault) : String := f.cause.detail ++ " at " ++ f.position.text

end TypedCss
