import TypedCss.Proofs.Derivation
import TypedCss.Token.Source

/-!
# How tokens are spelled

The tokens of a source are spelled as their kinds demand, and only the last of them ends the input. A number
token is digits and the suffix of its measure, so the parser reads from it the number that the digits write,
as long as it has a 32-bit form.
-/

namespace TypedCss

/-- Whether a lexeme of the kind can have the text. -/
def Kind.Admits (kind : Kind) (text : List Char) : Prop :=
  match kind with
  | .endOfInput => False
  | .number m => ∃ digits : List Char, digits ≠ [] ∧ (∀ c ∈ digits, c.isDigit) ∧ text = digits ++ m.suffix.toList
  | .className => ∃ name, text = '.' :: name
  | .idName | .color => ∃ name, text = '#' :: name
  | _ => True

theorem Pattern.admits_of_mark {c : Char} {kind : Kind} (h : Pattern.mark c kind ∈ inOrder)
    (text : List Char) : kind.Admits text := by
  have hmarks : (c = ':' ∧ kind = .colon) ∨ (c = ';' ∧ kind = .semicolon) ∨
      (c = '\x7b' ∧ kind = .openCurly) ∨ (c = '\x7d' ∧ kind = .closeCurly) ∨
      (c = '[' ∧ kind = .openBracket) ∨ (c = ']' ∧ kind = .closeBracket) ∨
      (c = '(' ∧ kind = .openParen) ∨ (c = ')' ∧ kind = .closeParen) ∨
      (c = '+' ∧ kind = .operator .add) ∨ (c = '-' ∧ kind = .operator .subtract) ∨
      (c = '*' ∧ kind = .operator .multiply) := by
    simpa [inOrder] using h
  rcases hmarks with h | h | h | h | h | h | h | h | h | h | h <;>
  · rw [h.2]
    trivial

theorem Pattern.admits {p : Pattern} {cs text : List Char} {kind : Kind} (hp : p ∈ inOrder)
    (hmatch : p.match? cs = some text) (hkind : p.kind? text = some kind) : kind.Admits text := by
  cases p with
  | blank | lineComment | blockComment => cases hkind
  | number m =>
    obtain rfl := Option.some.inj hkind
    cases cs with
    | nil => cases hmatch
    | cons c cs =>
      rw [match?] at hmatch
      split at hmatch
      case isFalse => cases hmatch
      case isTrue h =>
        obtain rfl := Option.some.inj hmatch
        refine ⟨c :: cs.takeWhile Char.isDigit, by simp, ?_, rfl⟩
        exact List.forall_mem_cons.2 ⟨h.1, List.all_eq_true.1 List.all_takeWhile⟩
  | hash =>
    obtain rfl := Option.some.inj hkind
    have htext : ∃ name, text = '#' :: name := by
      unfold match? at hmatch
      split at hmatch <;> (try split at hmatch) <;> simp_all
      exact ⟨_, hmatch.symm⟩
    by_cases hcolor : isColorText text
    · rw [if_pos hcolor]
      exact htext
    · rw [if_neg hcolor]
      exact htext
  | className =>
    obtain rfl := Option.some.inj hkind
    unfold match? at hmatch
    split at hmatch <;> (try split at hmatch) <;> simp_all
    exact ⟨_, hmatch.symm⟩
  | capitalised =>
    obtain rfl := Option.some.inj hkind
    by_cases htrue : text = "TRUE".toList
    · rw [if_pos htrue]
      trivial
    · by_cases hfalse : text = "FALSE".toList
      · rw [if_neg htrue, if_pos hfalse]
        trivial
      · rw [if_neg htrue, if_neg hfalse]
        trivial
  | lowerCase =>
    obtain rfl := Option.some.inj hkind
    by_cases hif : text = "if".toList
    · rw [if_pos hif]
      trivial
    · rw [if_neg hif]
      trivial
  | assign =>
    obtain rfl := Option.some.inj hkind
    trivial
  | mark c k =>
    obtain rfl := Option.some.inj hkind
    exact admits_of_mark hp text

theorem Lexeme.admits {cs : List Char} {l : Lexeme} {kind : Kind} (h : Lexeme.first? cs = some l)
    (hkind : l.kind? = some kind) : kind.Admits l.text := by
  obtain ⟨p, hp, hl⟩ := List.exists_of_findSome?_eq_some h
  obtain ⟨text, htext, rfl⟩ := Option.map_eq_some_iff.1 hl
  exact Pattern.admits hp htext hkind

theorem Lexeme.admits_of_mem_all {cs : List Char} {l : Lexeme} {kind : Kind} (h : l ∈ (Lexeme.all cs).1)
    (hkind : l.kind? = some kind) : kind.Admits l.text := by
  fun_induction Lexeme.all cs with
  | case1 => cases h
  | case2 cs first hfirst ls rest hls ih =>
    rcases List.mem_cons.1 h with rfl | h
    · exact Lexeme.admits hfirst hkind
    · rw [hls] at ih
      exact ih h

/-- Whether the token is spelled as its kind demands. A token that ends the input is not. -/
def Token.IsSpelled (t : Token) : Prop := t.kind.Admits t.text.toList

theorem Lexeme.isSpelled_of_mem_tokens {file : String} {offset : Nat} {ls : List Lexeme}
    (h : ∀ l ∈ ls, ∀ kind, l.kind? = some kind → kind.Admits l.text) :
    ∀ t ∈ Lexeme.tokens file offset ls, t.IsSpelled := by
  induction ls generalizing offset with
  | nil => simp [tokens]
  | cons l ls ih =>
    obtain ⟨hl, hls⟩ := List.forall_mem_cons.1 h
    rw [tokens]
    cases hkind : l.kind? with
    | none => exact ih hls
    | some kind =>
      apply List.forall_mem_cons.2 ⟨?_, ih hls⟩
      rw [Token.IsSpelled, String.toList_ofList]
      exact hl kind hkind

theorem Token.exists_of_ofSource {file source : String} {ts : List Token}
    (h : Token.ofSource file source = .ok ts) :
    ∃ w last, ts = w ++ [last] ∧ last.kind = .endOfInput ∧ ∀ t ∈ w, t.IsSpelled := by
  rw [ofSource_eq] at h
  have hspelled : ∀ t ∈ Lexeme.tokens file 0 (Lexeme.all source.toList).1, t.IsSpelled :=
    Lexeme.isSpelled_of_mem_tokens fun l hl kind hkind => Lexeme.admits_of_mem_all hl hkind
  cases hrest : (Lexeme.all source.toList).2 with
  | nil =>
    simp only [hrest] at h
    obtain rfl := Except.ok.inj h
    exact ⟨_, _, rfl, rfl, hspelled⟩
  | cons c cs =>
    simp only [hrest] at h
    cases h

namespace Token.IsSpelled

variable {t : Token}

theorem kind_ne_endOfInput (h : t.IsSpelled) : t.kind ≠ .endOfInput := by
  intro hkind
  rw [IsSpelled, hkind] at h
  exact h

theorem className (h : t.IsSpelled) (hkind : t.kind = .className) : ∃ name, t.text.toList = '.' :: name := by
  rw [IsSpelled, hkind] at h
  exact h

theorem hash (h : t.IsSpelled) (hkind : t.kind = .idName ∨ t.kind = .color) :
    ∃ name, t.text.toList = '#' :: name := by
  rcases hkind with hkind | hkind <;>
  · rw [IsSpelled, hkind] at h
    exact h

theorem number {m : Measure} (h : t.IsSpelled) (hkind : t.kind = .number m) :
    ∃ digits : List Char, digits ≠ [] ∧ (∀ c ∈ digits, c.isDigit) ∧
      t.text.toList = digits ++ m.suffix.toList := by
  rw [IsSpelled, hkind] at h
  exact h

end Token.IsSpelled

theorem Measure.takeWhile_isDigit_suffix (m : Measure) : m.suffix.toList.takeWhile Char.isDigit = [] := by
  cases m <;> rfl

theorem Measure.suffix_eq_nil_of_digits (m : Measure) {digits : List Char} (h : ∀ c ∈ digits, c.isDigit)
    (hsuffix : m.suffix.toList <:+ digits) : m.suffix.toList = [] := by
  cases hm : m.suffix.toList with
  | nil => rfl
  | cons c cs =>
    rw [hm] at hsuffix
    have hc : c.isDigit := h c (hsuffix.subset List.mem_cons_self)
    have htake := takeWhile_isDigit_suffix m
    rw [hm, List.takeWhile_cons_of_pos hc] at htake
    cases htake

/-- The parser reads the number that the digits write, if it has a 32-bit form. -/
theorem Token.number?_eq {t : Token} {m : Measure} (h : t.IsSpelled) (hkind : t.kind = .number m) :
    Grammar.number? m t.text = if t.number < 2147483648 then some (Int32.ofNat t.number) else none := by
  obtain ⟨digits, hne, hdigits, htext⟩ := h.number hkind
  have hnumber : t.number = Nat.ofDigitChars 10 digits 0 := by
    rw [Token.number, htext, List.takeWhile_append_of_pos hdigits, m.takeWhile_isDigit_suffix, List.append_nil]
  rw [Grammar.number?, htext, Text.dropEndCopies_append (m.suffix_eq_nil_of_digits hdigits),
    Text.readWord?_digits hne hdigits, Text.toWord?_natCast, hnumber]

end TypedCss
