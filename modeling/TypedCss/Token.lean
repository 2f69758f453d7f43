import TypedCss.Place
import TypedCss.Value

/-!
Tokens: the words, numbers and marks of a stylesheet, each with its place.
-/

namespace TypedCss

inductive Kind where
  | endOfInput
  /-- A lower-case word: a tag or a property. -/
  | word
  /-- A capitalised word: the name of a variable. -/
  | name
  | className
  | idName
  | color
  | number (measure : Measure)
  | flag (b : Bool)
  | ifWord
  | openCurly
  | closeCurly
  | openBracket
  | closeBracket
  | openParen
  | closeParen
  | assign
  | colon
  | semicolon
  | operator (op : Operator)
  deriving DecidableEq, Repr

/-- The name of the kind in messages. -/
def Kind.label : Kind → String
  | endOfInput => "EOF"
  | word => "Identifier"
  | name => "VariableIdent"
  | className => "ClassSelector"
  | idName => "IdSelector"
  | color => "Color"
  | number .pixel => "Pixel"
  | number .percentage => "Percentage"
  | number .scalar => "Scalar"
  | flag true => "True"
  | flag false => "False"
  | ifWord => "If"
  | openCurly => "OpenCurly"
  | closeCurly => "CloseCurly"
  | openBracket => "OpenBracket"
  | closeBracket => "CloseBracket"
  | openParen => "OpenParen"
  | closeParen => "CloseParen"
  | assign => "Assignment"
  | colon => "Colon"
  | semicolon => "Semicolon"
  | operator .add => "Plus"
  | operator .subtract => "Dash"
  | operator .multiply => "Star"

structure Token where
  kind : Kind
  text : String
  span : Span
  deriving DecidableEq, Repr

/-- The token that ends every source, at the given offset. -/
def Token.endOfInput (file : String) (offset : Nat) : Token :=
  ⟨.endOfInput, "EOF", .ofLength file offset 0⟩

/-- The token as messages show it. -/
def Token.shown (t : Token) : String :=
  "Token \x7b\nkind: " ++ t.kind.label ++ ",\nvalue: " ++ t.text ++ "\x7d"

end TypedCss
