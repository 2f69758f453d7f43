import TypedCss.Text.Decimal

/-!
Values of the language, their types, and arithmetic on them.

Numbers carry a measure. `+` and `-` stay within one measure and `*` needs a plain number on one side;
all three wrap around in 32 bits.
-/

namespace TypedCss

/-- What a number counts: hundredths, pixels, or nothing in particular. -/
inductive Measure where
  | percentage
  | pixel
  | scalar
  deriving DecidableEq, Repr

def Measure.name : Measure → String
  | percentage => "percentage"
  | pixel => "pixel"
  | scalar => "scalar"

/-- What is written after a number of this measure. -/
def Measure.suffix : Measure → String
  | percentage => "%"
  | pixel => "px"
  | scalar => ""

/-- A color is kept as it is written, with its `#`. -/
inductive Value where
  | flag (b : Bool)
  | color (text : String)
  | number (measure : Measure) (n : Int32)
  deriving DecidableEq, Repr

def Value.text : Value → String
  | flag true => "TRUE"
  | flag false => "FALSE"
  | color text => text
  | number m n => Text.writeWord n ++ m.suffix

/-- The type of an expression; `undefined` where none could be found. -/
inductive ValueType where
  | flag
  | color
  | number (measure : Measure)
  | undefined
  deriving DecidableEq, Repr

def ValueType.name : ValueType → String
  | flag => "bool"
  | color => "color"
  | number m => m.name
  | undefined => "undefined"

def ValueType.isNumeric : ValueType → Bool
  | number _ => true
  | _ => false

def Value.type : Value → ValueType
  | flag _ => .flag
  | color _ => .color
  | number m _ => .number m

inductive Operator where
  | add
  | subtract
  | multiply
  deriving DecidableEq, Repr

def Operator.symbol : Operator → String
  | add => "+"
  | subtract => "-"
  | multiply => "*"

/-- The value of an operation, if its operands fit together. -/
def Operator.apply : Operator → Value → Value → Option Value
  | .add, .number m a, .number n b => if m = n then some (.number m (a + b)) else none
  | .subtract, .number m a, .number n b => if m = n then some (.number m (a - b)) else none
  | .multiply, .number m a, .number n b =>
    if m = .scalar then some (.number n (a * b))
    else if n = .scalar then some (.number m (a * b))
    else none
  | _, _, _ => none

end TypedCss
