import TypedCss.Token
import TypedCss.Text.Blank

/-!
Lexemes: the pieces that a source text is cut into, from the front. Each piece is the longest text of the
first pattern that fits; white space and comments are pieces of no kind.
-/

namespace TypedCss

/-- What may stand at the front of a text. -/
inductive Pattern where
  | blank
  | lineComment
  | blockComment
  | number (measure : Measure)
  /-- A `#` and the word after it: a color or an id. -/
  | hash
  | className
  | capitalised
  | lowerCase
  | assign
  | mark (c : Char) (kind : Kind)
  deriving DecidableEq, Repr

/-- The patterns in the order in which they are tried. A measure comes before the plain number, and `:=`
before `:`. -/
def Pattern.inOrder : List Pattern := [
  .blank, .lineComment, .blockComment,
  .number .pixel, .number .percentage, .number .scalar,
  .hash, .className, .capitalised, .lowerCase,
  .assign, .mark ':' .colon, .mark ';' .semicolon,
  .mark '\x7b' .openCurly, .mark '\x7d' .closeCurly,
  .mark '[' .openBracket, .mark ']' .closeBracket,
  .mark '(' .openParen, .mark ')' .closeParen,
  .mark '+' (.operator .add), .mark '-' (.operator .subtract), .mark '*' (.operator .multiply)]

/-- What a variable's name is made of, after its capital letter. -/
def isNameChar (c : Char) : Bool := c.isAlphanum || c == '_'

/-- What all other words are made of. -/
def isWordChar (c : Char) : Bool := c.isAlphanum || c == '_' || c == '-'

/-- Up to and with the first `*/`, if there is one. -/
def throughCommentEnd? : List Char → Option (List Char)
  | [] => none
  | '*' :: '/' :: _ => some ['*', '/']
  | c :: cs => (throughCommentEnd? cs).map (c :: ·)

/-- The text of the pattern at the front of a text, if it stands there. -/
def Pattern.match? : Pattern → List Char → Option (List Char)
  | .blank, c :: cs => if Text.isBlank c then some (c :: cs.takeWhile Text.isBlank) else none
  | .lineComment, '/' :: '/' :: cs => some ('/' :: '/' :: cs.takeWhile (· != '\n'))
  | .blockComment, '/' :: '*' :: cs => (throughCommentEnd? cs).map fun body => '/' :: '*' :: body
  | .number m, c :: cs =>
    if c.isDigit ∧ m.suffix.toList.isPrefixOf (cs.dropWhile Char.isDigit) then
      some (c :: cs.takeWhile Char.isDigit ++ m.suffix.toList)
    else none
  | .hash, '#' :: c :: cs => if isWordChar c then some ('#' :: c :: cs.takeWhile isWordChar) else none
  | .className, '.' :: c :: cs =>
    if c.isAlpha || c == '_' then some ('.' :: c :: cs.takeWhile isWordChar) else none
  | .capitalised, c :: cs => if c.isUpper then some (c :: cs.takeWhile isNameChar) else none
  | .lowerCase, c :: cs => if c.isLower then some (c :: cs.takeWhile isWordChar) else none
  | .assign, ':' :: '=' :: _ => some [':', '=']
  | .mark m _, c :: _ => if c = m then some [c] else none
  | _, _ => none

/-- Whether the text is a `#` and six hexadecimal digits. -/
def isColorText (cs : List Char) : Bool :=
  match cs with
  | '#' :: digits =>
    digits.length == 6 && digits.all fun c => c.isDigit || ('a' ≤ c && c ≤ 'f') || ('A' ≤ c && c ≤ 'F')
  | _ => false

/-- The kind of token that a text of the pattern makes; none for what only stands between tokens. -/
def Pattern.kind? : Pattern → List Char → Option Kind
  | .blank, _ | .lineComment, _ | .blockComment, _ => none
  | .number m, _ => some (.number m)
  | .hash, text => some (if isColorText text then .color else .idName)
  | .className, _ => some .className
  | .capitalised, text =>
    some (if text = "TRUE".toList then .flag true else if text = "FALSE".toList then .flag false else .name)
  | .lowerCase, text => some (if text = "if".toList then .ifWord else .word)
  | .assign, _ => some .assign
  | .mark _ kind, _ => some kind

structure Lexeme where
  kind? : Option Kind
  text : List Char
  deriving DecidableEq, Repr

/-- The lexeme at the front of a text. -/
def Lexeme.first? (cs : List Char) : Option Lexeme :=
  Pattern.inOrder.findSome? fun p => (p.match? cs).map fun text => ⟨p.kind? text, text⟩

theorem throughCommentEnd?_prefix {cs text : List Char} (h : throughCommentEnd? cs = some text) :
    text <+: cs := by
  fun_induction throughCommentEnd? cs generalizing text with
  | case1 => simp at h
  | case2 rest =>
    obtain rfl := Option.some.inj h
    exact ⟨rest, rfl⟩
  | case3 c cs _ ih =>
    obtain ⟨body, hbody, rfl⟩ := Option.map_eq_some_iff.1 h
    exact List.cons_prefix_cons.2 ⟨rfl, ih hbody⟩

/-- What a pattern takes is the front of the text, and it is not empty. -/
theorem Pattern.match?_prefix {p : Pattern} {cs text : List Char} (h : p.match? cs = some text) :
    text ≠ [] ∧ text <+: cs := by
  unfold Pattern.match? at h
  split at h <;> (try split at h) <;> simp only [Option.map_eq_some_iff, Option.some.injEq, reduceCtorEq] at h
  case h_3 =>
    obtain ⟨body, hbody, rfl⟩ := h
    simpa using throughCommentEnd?_prefix hbody
  case h_4.isTrue cs hm =>
    subst h
    refine ⟨by simp, List.cons_prefix_cons.2 ⟨rfl, ?_⟩⟩
    conv => rhs; rw [← cs.takeWhile_append_dropWhile (p := Char.isDigit)]
    exact (List.prefix_append_right_inj _).2 (List.isPrefixOf_iff_prefix.1 hm.2)
  all_goals
    subst h
    simp [List.takeWhile_prefix]

theorem Lexeme.first?_prefix {cs : List Char} {l : Lexeme} (h : Lexeme.first? cs = some l) :
    l.text ≠ [] ∧ l.text <+: cs := by
  obtain ⟨p, _, hl⟩ := List.exists_of_findSome?_eq_some h
  obtain ⟨text, htext, rfl⟩ := Option.map_eq_some_iff.1 hl
  exact Pattern.match?_prefix htext

/-- All lexemes of a text, and what is left where no pattern fits. -/
def Lexeme.all (cs : List Char) : List Lexeme × List Char :=
  match _h : Lexeme.first? cs with
  | none => ([], cs)
  | some l =>
    let (ls, rest) := Lexeme.all (cs.drop l.text.length)
    (l :: ls, rest)
termination_by cs.length
decreasing_by
  obtain ⟨hne, hpre⟩ := Lexeme.first?_prefix _h
  have := List.length_pos_iff.2 hne
  have := hpre.length_le
  simp
  omega

theorem Lexeme.all_of_none {cs : List Char} (h : Lexeme.first? cs = none) : Lexeme.all cs = ([], cs) := by
  rw [all]
  split
  · rfl
  · simp_all

theorem Lexeme.all_append {l : Lexeme} {rest : List Char} (h : Lexeme.first? (l.text ++ rest) = some l) :
    Lexeme.all (l.text ++ rest) = (l :: (Lexeme.all rest).1, (Lexeme.all rest).2) := by
  rw [all]
  split
  · simp_all
  · rename_i l' h'
    obtain rfl := Option.some.inj (h.symm.trans h')
    rw [List.drop_left]

/-- No character is lost: the lexemes and the rest are the text. -/
theorem Lexeme.all_flatMap_append (cs : List Char) :
    (Lexeme.all cs).1.flatMap Lexeme.text ++ (Lexeme.all cs).2 = cs := by
  fun_induction Lexeme.all cs with
  | case1 => rfl
  | case2 cs l h ls rest hls ih =>
    obtain ⟨_, tail, rfl⟩ := Lexeme.first?_prefix h
    simp_all

/-- The rest begins with no lexeme. -/
theorem Lexeme.first?_rest (cs : List Char) : Lexeme.first? (Lexeme.all cs).2 = none := by
  fun_induction Lexeme.all cs with
  | case1 _ h => exact h
  | case2 cs l h ls rest hls ih => simp_all

end TypedCss
