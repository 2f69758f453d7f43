import TypedCss.Grammar.Statement

/-!
# The grammar

    Sheet       = (Assignment | Rule)*
    Assignment  = name := Expression ;
    Rule        = (word | class name | id name | color) Body
    Body        = { (Assignment | Declaration | Clause | Rule)* }
    Declaration = word : Expression ;
    Clause      = if [ Expression ] Body
    Expression  = Term ((+ | -) Term)*
    Term        = Factor (* Factor)*
    Factor      = number | color | flag | name | ( Expression )

Each relation below holds of the tokens of a phrase and the tree that its derivation makes. The trees have
no places.
-/

namespace TypedCss

/-- The note of a node that has no place and no problem. -/
def Note.plain : Note := .clear .nowhere

def Note.withoutSpan (n : Note) : Note := { n with span := .nowhere }

def Expr.withoutSpans : Expr → Expr
  | literal v n => literal v n.withoutSpan
  | reference x n => reference x n.withoutSpan
  | operation op l r n => operation op l.withoutSpans r.withoutSpans n.withoutSpan

namespace Stmt

mutual

def withoutSpans : Stmt → Stmt
  | assignment x e n => assignment x e.withoutSpans n.withoutSpan
  | declaration p e n => declaration p e.withoutSpans n.withoutSpan
  | rule s body n => rule s (allWithoutSpans body) n.withoutSpan
  | ifClause c body n => ifClause c.withoutSpans (allWithoutSpans body) n.withoutSpan

def allWithoutSpans : List Stmt → List Stmt
  | [] => []
  | s :: ss => s.withoutSpans :: allWithoutSpans ss

end

end Stmt

/-- The number that the digits at the front of the token write. -/
def Token.number (t : Token) : Nat := Nat.ofDigitChars 10 (t.text.toList.takeWhile Char.isDigit) 0

/-- A token that is no number, or whose number has a 32-bit form. -/
def Token.Fits (t : Token) : Prop := ∀ m, t.kind = .number m → t.number < 2147483648

namespace Grammar

mutual

inductive Factor : List Token → Expr → Prop
  | number {t : Token} {m : Measure} (h : t.kind = .number m) :
    Factor [t] (.literal (.number m (Int32.ofNat t.number)) .plain)
  | color {t : Token} (h : t.kind = .color) : Factor [t] (.literal (.color t.text) .plain)
  | flag {t : Token} {b : Bool} (h : t.kind = .flag b) : Factor [t] (.literal (.flag b) .plain)
  | name {t : Token} (h : t.kind = .name) : Factor [t] (.reference t.text .plain)
  | group {start stop : Token} {w : List Token} {e : Expr} (hstart : start.kind = .openParen)
    (h : Expression w e) (hstop : stop.kind = .closeParen) : Factor (start :: w ++ [stop]) e

/-- `Factors l w e`: the tokens `w` are `(* Factor)*`, and with `l` as their first operand they make `e`. -/
inductive Factors : Expr → List Token → Expr → Prop
  | nil (l : Expr) : Factors l [] l
  | cons {t : Token} {l r e : Expr} {v w : List Token} (ht : t.kind = .operator .multiply) (h : Factor v r)
    (hs : Factors (.operation .multiply l r .plain) w e) : Factors l (t :: v ++ w) e

inductive Term : List Token → Expr → Prop
  | mk {v w : List Token} {l e : Expr} (h : Factor v l) (hs : Factors l w e) : Term (v ++ w) e

/-- `Terms l w e`: the tokens `w` are `((+ | -) Term)*`, and with `l` as their first operand they make
`e`. -/
inductive Terms : Expr → List Token → Expr → Prop
  | nil (l : Expr) : Terms l [] l
  | cons {t : Token} {op : Operator} {l r e : Expr} {v w : List Token} (ht : t.kind = .operator op)
    (hop : op = .add ∨ op = .subtract) (h : Term v r) (hs : Terms (.operation op l r .plain) w e) :
    Terms l (t :: v ++ w) e

inductive Expression : List Token → Expr → Prop
  | mk {v w : List Token} {l e : Expr} (h : Term v l) (hs : Terms l w e) : Expression (v ++ w) e

end

inductive Assignment : List Token → Stmt → Prop
  | mk {name mark stop : Token} {w : List Token} {e : Expr} (hname : name.kind = .name)
    (hmark : mark.kind = .assign) (h : Expression w e) (hstop : stop.kind = .semicolon) :
    Assignment (name :: mark :: w ++ [stop]) (.assignment name.text e .plain)

inductive Declaration : List Token → Stmt → Prop
  | mk {property mark stop : Token} {w : List Token} {e : Expr} (hproperty : property.kind = .word)
    (hmark : mark.kind = .colon) (h : Expression w e) (hstop : stop.kind = .semicolon) :
    Declaration (property :: mark :: w ++ [stop]) (.declaration property.text e .plain)

/-- The selector that a token stands for. Names of classes and ids do not keep their marks. -/
inductive Selects (t : Token) : Selector → Prop
  | tag (h : t.kind = .word) : Selects t (.tag t.text)
  | className {name : String} (h : t.kind = .className) (ht : t.text = "." ++ name) :
    Selects t (.className name)
  | id {name : String} (h : t.kind = .idName ∨ t.kind = .color) (ht : t.text = "#" ++ name) :
    Selects t (.id name)

mutual

inductive Rule : List Token → Stmt → Prop
  | mk {t : Token} {selector : Selector} {w : List Token} {body : List Stmt} (ht : Selects t selector)
    (h : Body w body) : Rule (t :: w) (.rule selector body .plain)

inductive Clause : List Token → Stmt → Prop
  | mk {start left right : Token} {v w : List Token} {c : Expr} {body : List Stmt}
    (hstart : start.kind = .ifWord) (hleft : left.kind = .openBracket) (hc : Expression v c)
    (hright : right.kind = .closeBracket) (h : Body w body) :
    Clause (start :: left :: v ++ right :: w) (.ifClause c body .plain)

inductive Body : List Token → List Stmt → Prop
  | mk {start stop : Token} {w : List Token} {ss : List Stmt} (hstart : start.kind = .openCurly)
    (h : Items w ss) (hstop : stop.kind = .closeCurly) : Body (start :: w ++ [stop]) ss

inductive Items : List Token → List Stmt → Prop
  | nil : Items [] []
  | cons {v w : List Token} {s : Stmt} {ss : List Stmt} (h : Item v s) (hs : Items w ss) :
    Items (v ++ w) (s :: ss)

inductive Item : List Token → Stmt → Prop
  | assignment {w : List Token} {s : Stmt} (h : Assignment w s) : Item w s
  | declaration {w : List Token} {s : Stmt} (h : Declaration w s) : Item w s
  | clause {w : List Token} {s : Stmt} (h : Clause w s) : Item w s
  | rule {w : List Token} {s : Stmt} (h : Rule w s) : Item w s

end

inductive Sheet : List Token → List Stmt → Prop
  | nil : Sheet [] []
  | assignment {v w : List Token} {s : Stmt} {ss : List Stmt} (h : Assignment v s) (hs : Sheet w ss) :
    Sheet (v ++ w) (s :: ss)
  | rule {v w : List Token} {s : Stmt} {ss : List Stmt} (h : Rule v s) (hs : Sheet w ss) :
    Sheet (v ++ w) (s :: ss)

end Grammar

end TypedCss
