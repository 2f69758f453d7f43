import Mathlib.Logic.Function.Iterate
import TypedCss.Proofs.FlatRules

/-!
# Expressions and their texts

An expression is written with each operation in parentheses. The text is cut into the words of the expression, these
are an operand of the grammar, and so the same expression is read from it again. What is read from a source is always
an expression that can be written like this.
-/

namespace TypedCss

def isHexDigit (c : Char) : Bool := c.isDigit || ('a' ≤ c && c ≤ 'f') || ('A' ≤ c && c ≤ 'F')

/-- A color is a `#` and six hexadecimal digits. -/
def IsColorCode (text : String) : Prop :=
  ∃ digits : List Char, text.toList = '#' :: digits ∧ digits.length = 6 ∧ ∀ c ∈ digits, isHexDigit c

/-- The name of a variable is a capital letter and letters, digits and underscores; the two flags are no names. -/
structure IsVariableName (text : String) : Prop where
  letters : ∃ first rest, text.toList = first :: rest ∧ first.isUpper ∧ ∀ c ∈ rest, isNameChar c
  ne_true : text ≠ "TRUE"
  ne_false : text ≠ "FALSE"

/-- A value that can be written in a source. -/
def Value.IsPrintable : Value → Prop
  | flag _ => True
  | color text => IsColorCode text
  | number _ n => 0 ≤ n

/-- An expression of values and variables that can be written in a source. -/
def Expr.IsPrintable : Expr → Prop
  | literal v _ => v.IsPrintable
  | reference x _ => IsVariableName x
  | operation _ l r _ => l.IsPrintable ∧ r.IsPrintable

theorem isWordChar_of_isHexDigit {c : Char} (h : isHexDigit c) : isWordChar c := by
  simp only [isHexDigit, Bool.or_eq_true, Bool.and_eq_true, decide_eq_true_eq] at h
  have halphanum : c.isAlphanum := by
    rcases h with (hdigit | ⟨hlow, hhigh⟩) | ⟨hlow, hhigh⟩
    · exact Bool.or_eq_true_iff.2 (.inr hdigit)
    · have hrange : c ≤ 'z' := Char.le_trans hhigh (by decide)
      have hlower : c.isLower := Bool.and_eq_true_iff.2 ⟨decide_eq_true hlow, decide_eq_true hrange⟩
      exact Bool.or_eq_true_iff.2 (.inl (Bool.or_eq_true_iff.2 (.inr hlower)))
    · have hrange : c ≤ 'Z' := Char.le_trans hhigh (by decide)
      have hupper : c.isUpper := decide_eq_true ⟨hlow, hrange⟩
      exact Bool.or_eq_true_iff.2 (.inl (Bool.or_eq_true_iff.2 (.inl hupper)))
  simp [isWordChar, halphanum]

section Words

variable {text : String}

theorem isColorText_iff : isColorText text.toList ↔ IsColorCode text := by
  constructor
  · intro h
    unfold isColorText at h
    split at h
    · rename_i digits hdigits
      rw [Bool.and_eq_true, beq_iff_eq, List.all_eq_true] at h
      exact ⟨digits, hdigits, h⟩
    · cases h
  · rintro ⟨digits, htext, hlength, hdigits⟩
    rw [htext, isColorText, Bool.and_eq_true, beq_iff_eq, List.all_eq_true]
    exact ⟨hlength, hdigits⟩

/-- No pattern before that of the names of variables takes anything from a text that begins with a capital. -/
theorem Pattern.match?_eq_none_of_isUpper {first : Char} (hfirst : first.isUpper) (rest : List Char) :
    ∀ q ∈ [blank, lineComment, blockComment, number .pixel, number .percentage, number .scalar, hash, className],
      q.match? (first :: rest) = none := by
  obtain ⟨hlow, hhigh⟩ : 65 ≤ first.toNat ∧ first.toNat ≤ 90 := by
    obtain ⟨hlow, hhigh⟩ := of_decide_eq_true hfirst
    exact ⟨UInt32.le_iff_toNat_le.1 hlow, UInt32.le_iff_toNat_le.1 hhigh⟩
  have hblank : Text.isBlank first = false := by
    simp [Text.isBlank]
    omega
  have hnumber (m : Measure) (text : List Char) : ¬(number m).Spells (first :: text) := by
    rintro ⟨digits, hne, hdigits, htext⟩
    obtain ⟨d, run, rfl⟩ := List.exists_cons_of_ne_nil hne
    obtain ⟨rfl, -⟩ := List.cons.inj htext
    have hdigit : first.toNat ≤ 57 := by
      have hd := hdigits first List.mem_cons_self
      simp only [Char.isDigit, Bool.and_eq_true, decide_eq_true_eq] at hd
      exact UInt32.le_iff_toNat_le.1 hd.2
    omega
  intro q hq
  refine match?_eq_none.2 fun text hspells hfront => ?_
  obtain ⟨c, text, rfl⟩ := List.exists_cons_of_ne_nil hspells.ne_nil
  obtain ⟨rfl, -⟩ := List.cons_prefix_cons.1 hfront
  simp only [List.mem_cons, List.not_mem_nil, or_false] at hq
  rcases hq with rfl | rfl | rfl | rfl | rfl | rfl | rfl | rfl
  · rw [hspells.2 c List.mem_cons_self] at hblank
    cases hblank
  · obtain ⟨body, -, hbody⟩ := hspells
    rw [(List.cons.inj hbody).1] at hfirst
    cases hfirst
  · obtain ⟨body, hbody⟩ := hspells
    rw [(List.cons.inj hbody).1] at hfirst
    cases hfirst
  · exact hnumber _ _ hspells
  · exact hnumber _ _ hspells
  · exact hnumber _ _ hspells
  · obtain ⟨word, -, -, hword⟩ := hspells
    rw [(List.cons.inj hword).1] at hfirst
    cases hfirst
  · obtain ⟨d, word, -, -, hword⟩ := hspells
    rw [(List.cons.inj hword).1] at hfirst
    cases hfirst

/-- The pattern of a whole lexeme describes it. -/
theorem Kind.Writes.exists_pattern {kind : Kind} (h : kind.Writes text) :
    ∃ p ∈ Pattern.inOrder, p.Spells text.toList ∧ p.kind? text.toList = some kind := by
  obtain ⟨earlier, p, later, horder, htext, hkind, -⟩ := Lexeme.first?_eq_some.1 h
  exact ⟨p, by simp [horder], Pattern.spells_of_match? htext, hkind.symm⟩

/-- A text of a pattern is a whole lexeme if no earlier pattern takes anything from it. -/
theorem Kind.Writes.of_spells {kind : Kind} {p : Pattern} {earlier later : List Pattern}
    (horder : Pattern.inOrder = earlier ++ p :: later) (hearlier : ∀ q ∈ earlier, q.match? text.toList = none)
    (hp : p ≠ .blockComment) (hspells : p.Spells text.toList) (hkind : p.kind? text.toList = some kind) :
    kind.Writes text := by
  refine Lexeme.first?_eq_some.2 ⟨earlier, p, later, horder, ?_, hkind.symm, hearlier⟩
  refine Pattern.match?_eq_some.2 ⟨hspells, List.prefix_rfl, fun other _ hother => ?_⟩
  cases p with
  | blockComment => exact absurd rfl hp
  | _ => exact hother

/-- The colors are what the lexer takes for one. -/
theorem Kind.writes_color_iff : Kind.color.Writes text ↔ IsColorCode text := by
  constructor
  · intro h
    obtain ⟨p, hp, -, hkind⟩ := h.exists_pattern
    cases p with
    | hash =>
      by_cases hcolor : isColorText text.toList
      · exact isColorText_iff.1 hcolor
      · rw [Pattern.kind?, if_neg hcolor] at hkind
        cases hkind
    | capitalised | lowerCase =>
      simp only [Pattern.kind?, Option.some.injEq] at hkind
      split at hkind <;> (try split at hkind) <;> cases hkind
    | mark c kind =>
      obtain rfl := Option.some.inj hkind
      simp [Pattern.inOrder] at hp
    | _ => cases hkind
  · intro h
    have hcolor := isColorText_iff.2 h
    obtain ⟨digits, htext, hlength, hdigits⟩ := h
    have hne : digits ≠ [] := List.ne_nil_of_length_pos (by omega)
    have hspells : Pattern.hash.Spells text.toList :=
      ⟨digits, hne, fun c hc => isWordChar_of_isHexDigit (hdigits c hc), htext⟩
    obtain ⟨later, horder⟩ : ∃ later, Pattern.inOrder = [.blank, .lineComment, .blockComment, .number .pixel,
      .number .percentage, .number .scalar] ++ .hash :: later := ⟨_, rfl⟩
    refine .of_spells horder ?_ (by decide) hspells (by rw [Pattern.kind?, if_pos hcolor])
    rw [htext]
    simp only [List.forall_mem_cons]
    exact ⟨rfl, rfl, rfl, rfl, rfl, rfl, List.forall_mem_nil _⟩

/-- The names of variables are what the lexer takes for one. -/
theorem Kind.writes_name_iff : Kind.name.Writes text ↔ IsVariableName text := by
  constructor
  · intro h
    obtain ⟨p, hp, hspells, hkind⟩ := h.exists_pattern
    cases p with
    | capitalised =>
      obtain ⟨first, rest, hfirst, hrest, htext⟩ := hspells
      refine ⟨⟨first, rest, htext, hfirst, hrest⟩, ?_, ?_⟩
      · rintro rfl
        cases hkind
      · rintro rfl
        cases hkind
    | hash | lowerCase =>
      simp only [Pattern.kind?, Option.some.injEq] at hkind
      split at hkind <;> cases hkind
    | mark c kind =>
      obtain rfl := Option.some.inj hkind
      simp [Pattern.inOrder] at hp
    | _ => cases hkind
  · rintro ⟨⟨first, rest, htext, hfirst, hrest⟩, htrue, hfalse⟩
    obtain ⟨later, horder⟩ : ∃ later, Pattern.inOrder = [.blank, .lineComment, .blockComment, .number .pixel,
      .number .percentage, .number .scalar, .hash, .className] ++ .capitalised :: later := ⟨_, rfl⟩
    refine .of_spells horder ?_ (by decide) ⟨first, rest, hfirst, hrest, htext⟩ ?_
    · rw [htext]
      exact Pattern.match?_eq_none_of_isUpper hfirst rest
    · rw [Pattern.kind?, if_neg (mt String.toList_inj.1 htrue), if_neg (mt String.toList_inj.1 hfalse)]

theorem Value.IsPrintable.isReadable {v : Value} (h : v.IsPrintable) : v.IsReadable := by
  cases v with
  | flag b => exact IsWorded.isReadable (v := .flag b) trivial rfl
  | color text => exact IsWorded.isReadable (v := .color text) (Kind.writes_color_iff.2 h) rfl
  | number m n => exact isReadable_number m h

end Words

section Lexing

/-- The words of the text of an expression. -/
def Expr.words : Expr → List (Kind × String)
  | literal v _ => [(v.kind, v.text)]
  | reference x _ => [(.name, x)]
  | operation op l r _ =>
    (.openParen, "(") :: l.words ++ (.operator op, op.symbol) :: r.words ++ [(.closeParen, ")")]

theorem Kind.writes_symbol (op : Operator) : (Kind.operator op).Writes op.symbol := by
  cases op <;> decide

/-- The text of an expression is cut into its words, whatever comes after it that parts tokens. -/
theorem Expr.IsPrintable.lexesTo {e : Expr} (he : e.IsPrintable) {rest : List Char} {words : List (Kind × String)}
    (h : LexesTo rest words) (hrest : ∀ c ∈ rest.head?, partsTokens c) :
    LexesTo (e.text.toList ++ rest) (e.words ++ words) := by
  induction e generalizing rest words with
  | literal v n => exact h.append he.isReadable.writes hrest
  | reference x n => exact h.append (Kind.writes_name_iff.2 he) hrest
  | operation op l r n ihl ihr =>
    obtain ⟨hl, hr⟩ := he
    have hright := (ihr hr h.closeParen (by simp [partsTokens])).blank (c := ' ') rfl
    have hsymbol := (hright.cons (Kind.writes_symbol op) rfl).blank (c := ' ') rfl
    have hleft := ihl hl hsymbol (by simp [partsTokens])
    have htext : (operation op l r n).text.toList ++ rest = '(' :: (l.text.toList ++ ' ' ::
        (op.symbol.toList ++ ' ' :: (r.text.toList ++ ')' :: rest))) := by
      simp [text]
    have hwords : (operation op l r n).words ++ words = (.openParen, "(") ::
        (l.words ++ (.operator op, op.symbol) :: (r.words ++ (.closeParen, ")") :: words)) := by
      simp [Expr.words]
    rw [htext, hwords]
    exact hleft.openParen

/-- Everything that the text is cut into has the form of its kind, and its numbers are in range. -/
theorem Expr.IsPrintable.fits {e : Expr} (he : e.IsPrintable) : ∀ t ∈ e.words.map Token.ofWord, t.Fits := by
  induction e with
  | literal v n => exact List.forall_mem_singleton.2 he.isReadable.fits
  | reference x n => exact List.forall_mem_singleton.2 nofun
  | operation op l r n ihl ihr =>
    simp only [words, List.map_append, List.map_cons, List.map_nil, List.forall_mem_append, List.forall_mem_cons]
    exact ⟨⟨⟨nofun, ihl he.1⟩, nofun, ihr he.2⟩, nofun, nofun⟩

end Lexing

section Deriving

open Grammar

/-- An operator between two operands makes an expression, whatever its power. -/
theorem Grammar.Expression.ofOperands {v w : List Token} {t : Token} {op : Operator} {l r : Expr} (hl : Factor v l)
    (ht : t.kind = .operator op) (hr : Factor w r) : Expression (v ++ t :: w) (.operation op l r .plain) := by
  have hright : Term w r := List.append_nil w ▸ .mk hr (.nil r)
  cases op with
  | multiply =>
    have hfactors : Factors l (t :: w ++ []) _ := .cons ht hr (.nil _)
    rw [List.append_nil] at hfactors
    exact List.append_nil (v ++ t :: w) ▸ .mk (.mk hl hfactors) (.nil _)
  | add | subtract =>
    have hterms : Terms l (t :: w ++ []) _ := .cons ht (by simp) hright (.nil _)
    rw [List.append_nil] at hterms
    exact .mk (List.append_nil v ▸ .mk hl (.nil l)) hterms

/-- The words of an expression derive it as a single operand. -/
theorem Expr.IsPrintable.derives {e : Expr} (he : e.IsPrintable) : Factor (e.words.map Token.ofWord) e.bare := by
  induction e with
  | literal v n => exact he.isReadable.factor
  | reference x n => exact .name rfl
  | operation op l r n ihl ihr =>
    have hinner := Expression.ofOperands (ihl he.1) (t := .ofWord (.operator op, op.symbol)) rfl (ihr he.2)
    have hgroup : Factor (.ofWord (.openParen, "(") :: _ ++ [.ofWord (.closeParen, ")")]) _ := .group rfl hinner rfl
    simpa [words, bare] using hgroup

end Deriving

section Reading

open Grammar Parse

variable {e : Expr}

theorem Grammar.expression_ignoresPlaces (table : Table) (power : Power) :
    IgnoresPlaces Expr.withoutSpans (expression table power) (expression table power) := by
  intro s
  rw [expression_eq, expression_eq, s.budget_withoutSpans]
  exact expressionWithin_ignoresPlaces _ power s

theorem Expr.withoutSpans_withoutSpans (e : Expr) : e.withoutSpans.withoutSpans = e.withoutSpans := by
  induction e with
  | literal v n => rfl
  | reference x n => rfl
  | operation op l r n ihl ihr =>
    rw [withoutSpans, withoutSpans, ihl, ihr]
    rfl

theorem Expr.text_withoutSpans (e : Expr) : e.withoutSpans.text = e.text := by
  induction e with
  | literal v n => rfl
  | reference x n => rfl
  | operation op l r n ihl ihr => rw [withoutSpans, text, text, ihl, ihr]

/-- The text is read as the tree, and nothing of it is left. -/
def ReadsAs (file text : String) (tree : Expr) : Prop :=
  ∃ ts e s, Token.ofSource file text = .ok ts ∧ expression .standard .default (.ofTokens file ts) = .ok e s ∧
    s.current.kind = .endOfInput ∧ e.withoutSpans = tree

/-- A single operand is read up to the end of the input. -/
theorem Grammar.Factor.reads {w : List Token} {last : Token} (h : Factor w e) (hspelled : ∀ t ∈ w, t.IsSpelled)
    (hfits : ∀ t ∈ w, t.Fits) (hlast : last.kind = .endOfInput) :
    ∃ e', expression .standard .default ⟨w ++ [last], last⟩ = .ok e' ⟨[last], last⟩ ∧ e'.withoutSpans = e := by
  have hread : Stream.Reads ⟨w ++ [last], last⟩ w ⟨[last], last⟩ :=
    ⟨rfl, hfits, fun t ht => (hspelled t ht).kind_ne_endOfInput⟩
  have hphrase : Phrase .default w e := phrase_iff.2 ⟨w, [], e, (List.append_nil w).symm, h, .nil _ _⟩
  have hends : Power.default.Ends last.kind := Power.ends_of_ne (by simp [hlast])
  have hbudget : w.length < Stream.budget ⟨w ++ [last], last⟩ := by
    rw [Stream.budget, List.length_append]
    omega
  rw [expression_eq]
  exact expressionWithin_complete _ (Stream.isSpelled_of_tokens hlast hspelled) hread hphrase hends hbudget

/-- Tokens with the same words are read as the same expression, wherever they stand. -/
theorem Grammar.expression_of_words (file : String) {ts : List Token} {words : List (Kind × String)} {plain : Expr}
    {last : Token} (hlast : last = .ofWord (.endOfInput, "EOF"))
    (hwords : ts.map Token.word = words ++ [(.endOfInput, "EOF")])
    (h : expression .standard .default ⟨words.map Token.ofWord ++ [last], last⟩ = .ok plain ⟨[last], last⟩) :
    ∃ e s, expression .standard .default (.ofTokens file ts) = .ok e s ∧ s.current.kind = .endOfInput ∧
      e.withoutSpans = plain := by
  have hsame : (Stream.ofTokens file ts).withoutSpans = ⟨words.map Token.ofWord ++ [last], last⟩ := by
    rw [← Stream.ofTokens_withoutSpan, Token.map_withoutSpan, hwords, hlast, ← Stream.ofTokens_append_singleton,
      List.map_append]
    rfl
  have hboth := expression_ignoresPlaces .standard .default (.ofTokens file ts)
  rw [hsame, h] at hboth
  cases he : expression .standard .default (.ofTokens file ts) with
  | error fault s =>
    rw [he] at hboth
    cases hboth
  | ok e s =>
    rw [he] at hboth
    obtain ⟨hplain, hstop⟩ := EStateM.Result.ok.inj hboth
    refine ⟨e, s, rfl, ?_, hplain.symm⟩
    have hkind : s.withoutSpans.current.kind = .endOfInput := by
      rw [← hstop, hlast]
      rfl
    rwa [s.current_withoutSpans] at hkind

theorem Expr.IsPrintable.readsAs (he : e.IsPrintable) (file : String) : ReadsAs file e.text e.bare := by
  have hlexes : LexesTo e.text.toList e.words := by
    have h := he.lexesTo .nil (by simp)
    rwa [List.append_nil, List.append_nil] at h
  obtain ⟨ts, hts, hwords⟩ := hlexes.ofSource file
  -- the tokens of the text have places and those of the derivation have none
  have hend : (Token.ofWord (.endOfInput, "EOF")).kind = .endOfInput := rfl
  obtain ⟨plain, hplain, htree⟩ := he.derives.reads hlexes.isSpelled he.fits hend
  obtain ⟨again, s, hagain, hstop, rfl⟩ := expression_of_words file rfl hwords hplain
  exact ⟨ts, again, s, hts, hagain, hstop, by rw [← htree, again.withoutSpans_withoutSpans]⟩

end Reading

section Derived

open Grammar

/-- A tree as the grammar makes it from tokens of a source: it can be written, and it has no notes. -/
structure Expr.IsDerived (e : Expr) : Prop where
  isPrintable : e.IsPrintable
  bare : e.bare = e

/-- A token as it stands in a source whose numbers are in range. -/
structure Token.IsSound (t : Token) : Prop where
  isWord : t.IsWord
  fits : t.Fits

namespace Grammar

theorem keeps_isDerived : Keeps Token.IsSound Expr.IsDerived where
  number {t m} ht h := by
    have hsign : (0 : Int32) ≤ Int32.ofNat t.number := by
      rw [Int32.le_iff_toInt_le, Int32.toInt_ofNat_of_lt (ht.fits m h)]
      exact Int.natCast_nonneg _
    exact ⟨hsign, rfl⟩
  color ht h := by
    have hword := ht.isWord
    rw [Token.IsWord, h] at hword
    exact ⟨Kind.writes_color_iff.1 hword, rfl⟩
  flag := ⟨trivial, rfl⟩
  name ht h := by
    have hword := ht.isWord
    rw [Token.IsWord, h] at hword
    exact ⟨Kind.writes_name_iff.1 hword, rfl⟩
  operation hl hr := ⟨⟨hl.isPrintable, hr.isPrintable⟩, by rw [Expr.bare, hl.bare, hr.bare]⟩

theorem Stream.iterate_advance (s : Stream) (k : Nat) : advance^[k] s = ⟨s.rest.drop k, s.last⟩ := by
  induction k generalizing s with
  | zero => rfl
  | succ k ih =>
    rw [Function.iterate_succ_apply, ih, advance, List.drop_tail]

/-- What is read from the tokens of a source, anywhere between them, is derived from them. -/
theorem isDerived_of_expression {file source : String} {ts : List Token} {k : Nat} {e : Expr} {s : Stream}
    (hts : Token.ofSource file source = .ok ts)
    (h : expression .standard .default (Stream.advance^[k] (.ofTokens file ts)) = .ok e s) :
    e.withoutSpans.IsDerived := by
  obtain ⟨w, hscan, rfl⟩ := Token.ofSource_eq_ok_scan.1 hts
  have hw := Token.isWord_of_scan hscan
  let last := Token.endOfInput file source.utf8ByteSize
  have hs : Stream.IsSpelled ⟨(w ++ [last]).drop k, last⟩ := by
    have hall : Stream.IsSpelled ⟨w ++ [last], last⟩ :=
      Stream.isSpelled_of_tokens rfl fun t ht => (hw t ht).isSpelled t.span
    exact ⟨fun t ht => hall.tokens t (List.mem_of_mem_drop ht), rfl⟩
  rw [Stream.iterate_advance, Stream.ofTokens_append_singleton, expression_eq] at h
  obtain ⟨v, hread, hv, -⟩ := expressionWithin_sound _ hs h
  refine Expression.keeps keeps_isDerived hv fun t ht => ⟨?_, hread.fits t ht⟩
  have hmem : t ∈ w ++ [last] := by
    have hrest : (w ++ [last]).drop k = v ++ s.rest := congrArg Stream.rest hread.eq
    refine List.mem_of_mem_drop (i := k) ?_
    rw [hrest]
    exact List.mem_append_left _ ht
  rcases List.mem_append.1 hmem with hmem | hmem
  · exact hw t hmem
  · rw [List.mem_singleton.1 hmem] at ht
    exact absurd rfl (hread.ne_end last ht)

end Grammar

theorem Expr.isPrintable_withoutSpans (e : Expr) : e.withoutSpans.IsPrintable ↔ e.IsPrintable := by
  induction e with
  | literal v n => exact Iff.rfl
  | reference x n => exact Iff.rfl
  | operation op l r n ihl ihr => exact and_congr ihl ihr

end Derived

open Grammar

/-- The text of an expression that can be written is read as the same expression, up to the end of the input. Every
expression that is read from the tokens of a source, wherever the reading begins, can be written, and so its text is
read as the same expression. -/
theorem expressions_read_back :
    (∀ e : Expr, e.IsPrintable → ∀ file, ReadsAs file e.text e.bare) ∧
    ∀ file source ts k e s, Token.ofSource file source = .ok ts →
      expression .standard .default (Stream.advance^[k] (.ofTokens file ts)) = .ok e s →
        e.IsPrintable ∧ ∀ file', ReadsAs file' e.text e.withoutSpans := by
  refine ⟨fun e he file => he.readsAs file, fun file source ts k e s hts h => ?_⟩
  have hderived := isDerived_of_expression hts h
  have he : e.IsPrintable := e.isPrintable_withoutSpans.1 hderived.isPrintable
  have hbare : e.bare = e.withoutSpans := by rw [← e.bare_withoutSpans, hderived.bare]
  exact ⟨he, fun file' => hbare ▸ he.readsAs file'⟩

/-- The greatest number, a color, a flag and names, with operations on both sides. The same tree is read from inside a
rule, where the parentheses are left out that the powers of the operators make up for. -/
theorem expressions_read_back_nested :
    let tree : Expr := .operation .subtract
      (.operation .add (.literal (.number .pixel 2147483647) .plain) (.operation .multiply
        (.reference "A_1" .plain) (.literal (.color "#aB01fF") .plain) .plain) .plain)
      (.operation .add (.literal (.flag true) .plain) (.literal (.number .percentage 0) .plain) .plain) .plain
    let source := "a \x7b width: 2147483647px+A_1*#aB01fF - (TRUE+00%); \x7d"
    tree.IsPrintable ∧ ReadsAs "a" "((2147483647px + (A_1 * #aB01fF)) - (TRUE + 0%))" tree ∧
      ∃ ts e s, Token.ofSource "a" source = .ok ts ∧
        expression .standard .default (Stream.advance^[4] (.ofTokens "a" ts)) = .ok e s ∧
        e.withoutSpans = tree ∧ e.text = "((2147483647px + (A_1 * #aB01fF)) - (TRUE + 0%))" ∧
        ReadsAs "b" e.text tree := by
  intro tree source
  have hcolor : IsColorCode "#aB01fF" := ⟨"aB01fF".toList, rfl, rfl, List.all_eq_true.1 rfl⟩
  have hname : IsVariableName "A_1" := ⟨⟨'A', ['_', '1'], rfl, rfl, List.all_eq_true.1 rfl⟩, by decide, by decide⟩
  have htree : tree.IsPrintable := by
    have hgreatest : (0 : Int32) ≤ 2147483647 := by decide
    exact ⟨⟨hgreatest, hname, hcolor⟩, trivial, Int32.le_refl 0⟩
  have htext : tree.text = "((2147483647px + (A_1 * #aB01fF)) - (TRUE + 0%))" := by decide +kernel
  refine ⟨htree, htext ▸ expressions_read_back.1 tree htree "a", ?_⟩
  have hread : (Token.ofSource "a" source).toOption.map (fun ts =>
      match expression .standard .default (Stream.advance^[4] (.ofTokens "a" ts)) with
      | .ok e _ => some e.withoutSpans
      | .error .. => none) = some (some tree) := by decide +kernel
  obtain ⟨ts, hts, hread⟩ := Option.map_eq_some_iff.1 hread
  have hts := toOption_eq_some.1 hts
  split at hread
  · rename_i e s he
    obtain hspans := Option.some.inj hread
    obtain ⟨-, hback⟩ := expressions_read_back.2 "a" source ts 4 e s hts he
    have hsame : e.text = tree.text := by rw [← e.text_withoutSpans, hspans]
    exact ⟨ts, e, s, hts, he, hspans, hsame.trans htext, hspans ▸ hback "b"⟩
  · cases hread

end TypedCss
