import TypedCss.Place
import TypedCss.Value

/-!
What the checker finds wrong with a stylesheet. A problem stops nothing: it is attached to a node of the
tree, and the reading goes on.
-/

namespace TypedCss

inductive Problem where
  | undefinedVariable (name : String)
  | invalidColor (property : String)
  | invalidDimension (property : String) (found : ValueType)
  | invalidCondition (found : ValueType)
  | invalidOperands (operator : String) (lhs rhs : ValueType)
  | invalidProduct (lhs rhs : ValueType)
  deriving DecidableEq, Repr

namespace Problem

def name : Problem → String
  | undefinedVariable _ => "UndefinedVariable"
  | invalidColor _ => "InvalidColorValue"
  | invalidDimension _ _ => "InvalidDimensionValue"
  | invalidCondition _ => "InvalidConditionType"
  | invalidOperands _ _ _ => "InvalidOperands"
  | invalidProduct _ _ => "InvalidMultiplication"

def message : Problem → String
  | undefinedVariable _ => "Variable used but undefined in current scope."
  | invalidColor _ => "Expected color literal for color declaration."
  | invalidDimension _ _ => "Expected percentage or pixel literal for width or height declaration."
  | invalidCondition _ => "If condition must be of type boolean."
  | invalidOperands _ _ _ => "Expected operands of the same type for addition or subtraction."
  | invalidProduct _ _ => "Expected a scalar operand in multiplication."

def tip : Problem → String
  | undefinedVariable name => "Variable `" ++ name ++ "` is not assigned in this rule or globally"
  | invalidColor property => "`" ++ property ++ "` expects a color such as `#ff0000`"
  | invalidDimension property found =>
    "`" ++ property ++ "` expects pixels or a percentage, received `" ++ found.name ++ "`"
  | invalidCondition found => "Expected type `bool`, received `" ++ found.name ++ "`"
  | invalidOperands op lhs rhs =>
    "Cannot apply `" ++ op ++ "` to `" ++ lhs.name ++ "` and `" ++ rhs.name ++ "`"
  | invalidProduct lhs rhs =>
    "Cannot multiply `" ++ lhs.name ++ "` by `" ++ rhs.name ++ "`, one side must be a scalar"

end Problem

/-- A problem and the place of the node that has it. -/
structure Diagnostic where
  problem : Problem
  span : Span
  deriving DecidableEq, Repr

end TypedCss
