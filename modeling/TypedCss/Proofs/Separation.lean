import TypedCss.Proofs.Joining
import TypedCss.Proofs.Spelling

/-!
# What parts tokens

A blank, a colon, a semicolon or a closing parenthesis after the text of a token does not change what stands at the
front. So a text that is made of the texts of tokens, each with one of these after it, is cut into these tokens again.
-/

namespace TypedCss

/-- Whether the character goes on with no token: it may stand after any. -/
def partsTokens (c : Char) : Bool := c == ' ' || c == '\n' || c == ':' || c == ';' || c == ')'

theorem partsTokens_cases {c : Char} (h : partsTokens c) :
    c = ' ' ∨ c = '\n' ∨ c = ':' ∨ c = ';' ∨ c = ')' := by
  simpa [partsTokens, or_assoc] using h

namespace Pattern

variable {p : Pattern} {text : List Char} {c d : Char}

theorem not_isWordChar_of_partsTokens (h : partsTokens c) : isWordChar c = false := by
  rcases partsTokens_cases h with rfl | rfl | rfl | rfl | rfl <;> decide

/-- Only white space and comments have a character in them, after their first, that parts tokens. -/
theorem Spells.eq_of_partsTokens (h : p.Spells (d :: text)) (hc : partsTokens c) (hmem : c ∈ text) :
    p = blank ∨ p = lineComment ∨ p = blockComment := by
  have hword := not_isWordChar_of_partsTokens hc
  have hname : isNameChar c = false := by
    rcases partsTokens_cases hc with rfl | rfl | rfl | rfl | rfl <;> decide
  -- a text of a word does not hold `c`
  have hnone {word : List Char} (hrun : ∀ c ∈ word, isWordChar c) (hmem : c ∈ word) : False := by
    rw [hrun c hmem] at hword
    cases hword
  cases p with
  | blank => exact .inl rfl
  | lineComment => exact .inr (.inl rfl)
  | blockComment => exact .inr (.inr rfl)
  | number m =>
    obtain ⟨digits, -, hdigits, htext⟩ := h
    have hin : c ∈ digits ++ m.suffix.toList := htext ▸ List.mem_cons_of_mem d hmem
    rcases List.mem_append.1 hin with hin | hin
    · have hdigit := hdigits c hin
      rcases partsTokens_cases hc with rfl | rfl | rfl | rfl | rfl <;> cases hdigit
    · rcases partsTokens_cases hc with rfl | rfl | rfl | rfl | rfl <;> cases m <;> exact absurd hin (by decide)
  | hash =>
    obtain ⟨word, -, hrun, htext⟩ := h
    obtain ⟨-, rfl⟩ := List.cons.inj htext
    exact (hnone hrun hmem).elim
  | className =>
    obtain ⟨first, word, hfirst, hrun, htext⟩ := h
    obtain ⟨-, rfl⟩ := List.cons.inj htext
    rcases List.mem_cons.1 hmem with rfl | hmem
    · rcases partsTokens_cases hc with rfl | rfl | rfl | rfl | rfl <;> cases hfirst
    · exact (hnone hrun hmem).elim
  | capitalised =>
    obtain ⟨first, word, -, hrun, htext⟩ := h
    obtain ⟨-, rfl⟩ := List.cons.inj htext
    rw [hrun c hmem] at hname
    cases hname
  | lowerCase =>
    obtain ⟨first, word, -, hrun, htext⟩ := h
    obtain ⟨-, rfl⟩ := List.cons.inj htext
    exact (hnone hrun hmem).elim
  | assign =>
    obtain ⟨-, rfl⟩ := List.cons.inj h
    rcases partsTokens_cases hc with rfl | rfl | rfl | rfl | rfl <;> exact absurd hmem (by decide)
  | mark m kind =>
    obtain ⟨-, rfl⟩ := List.cons.inj h
    cases hmem

section

variable {digits rest : List Char}

/-- No white space and no comment begins with a digit. -/
theorem match?_eq_none_of_digits (hne : digits ≠ []) (hdigits : ∀ c ∈ digits, c.isDigit) (rest : List Char) :
    ∀ q ∈ [blank, lineComment, blockComment], q.match? (digits ++ rest) = none := by
  obtain ⟨d, run, rfl⟩ := List.exists_cons_of_ne_nil hne
  have hd := hdigits d List.mem_cons_self
  have hslash : d ≠ '/' := by
    rintro rfl
    cases hd
  have hblank : Text.isBlank d = false := by
    simp only [Char.isDigit, Bool.and_eq_true, decide_eq_true_eq] at hd
    have hlow : 48 ≤ d.toNat := UInt32.le_iff_toNat_le.1 hd.1
    have hhigh : d.toNat ≤ 57 := UInt32.le_iff_toNat_le.1 hd.2
    simp [Text.isBlank]
    omega
  intro q hq
  refine match?_eq_none.2 fun text hspells hfront => ?_
  obtain ⟨c, text, rfl⟩ := List.exists_cons_of_ne_nil hspells.ne_nil
  obtain ⟨rfl, -⟩ := List.cons_prefix_cons.1 hfront
  simp only [List.mem_cons, List.not_mem_nil, or_false] at hq
  rcases hq with rfl | rfl | rfl
  · rw [hspells.2 c List.mem_cons_self] at hblank
    cases hblank
  · obtain ⟨body, -, hbody⟩ := hspells
    exact hslash (List.cons.inj hbody).1
  · obtain ⟨body, hbody⟩ := hspells
    exact hslash (List.cons.inj hbody).1

/-- Digits are no number of a measure whose suffix does not come after them. -/
theorem match?_number_eq_none {m : Measure} {c : Char} (hc : c ∈ m.suffix.toList) (hdigit : ¬c.isDigit)
    (hdigits : ∀ c ∈ digits, c.isDigit) (hrest : c ∉ rest) : (number m).match? (digits ++ rest) = none := by
  refine match?_eq_none.2 fun text hspells hfront => ?_
  obtain ⟨digits', -, -, rfl⟩ := hspells
  rcases List.mem_append.1 (hfront.subset (List.mem_append_right digits' hc)) with hmem | hmem
  · exact hdigit (hdigits c hmem)
  · exact hrest hmem

/-- No pattern before that of the number takes anything from digits and the suffix of the measure. -/
theorem exists_inOrder_number (m : Measure) (hne : digits ≠ []) (hdigits : ∀ c ∈ digits, c.isDigit) :
    ∃ earlier later, inOrder = earlier ++ number m :: later ∧
      ∀ q ∈ earlier, q.match? (digits ++ m.suffix.toList) = none := by
  let gaps := [blank, lineComment, blockComment]
  have hgaps := match?_eq_none_of_digits hne hdigits m.suffix.toList
  have hother {m' : Measure} {c : Char} := @match?_number_eq_none digits m.suffix.toList m' c
  cases m with
  | pixel => exact ⟨gaps, _, rfl, hgaps⟩
  | percentage =>
    refine ⟨gaps ++ [number .pixel], _, rfl, List.forall_mem_append.2 ⟨hgaps, List.forall_mem_singleton.2 ?_⟩⟩
    exact hother (c := 'p') (by decide) (by decide) hdigits (by decide)
  | scalar =>
    refine ⟨gaps ++ [number .pixel, number .percentage], _, rfl, List.forall_mem_append.2 ⟨hgaps, ?_⟩⟩
    refine List.forall_mem_cons.2 ⟨?_, List.forall_mem_singleton.2 ?_⟩
    · exact hother (c := 'p') (by decide) (by decide) hdigits (by decide)
    · exact hother (c := '%') (by decide) (by decide) hdigits (by decide)

end

end Pattern

namespace Lexeme

variable {cs : List Char} {l : Lexeme} {c : Char}

/-- What stands in front of a character that parts tokens is the same as without it. -/
theorem first?_append_of_partsTokens (h : first? cs = some l) (hkind : l.kind?.isSome) (hc : partsTokens c)
    (b : List Char) : first? (cs ++ c :: b) = some l := by
  obtain ⟨earlier, p, later, horder, htext, hlkind, hearlier⟩ := first?_eq_some.1 h
  have hp : p ∈ Pattern.inOrder := by simp [horder]
  have htakes := Pattern.match?_eq_some.1 htext
  obtain ⟨d, run, hrun⟩ := List.exists_cons_of_ne_nil htakes.spells.ne_nil
  -- a longer text would be white space or a comment, and so would be `l`
  have hshort : ∀ q ∈ Pattern.inOrder, ∀ other, q.Spells other → ¬cs ++ [c] <+: other := by
    rintro q hq _ hspells ⟨more, rfl⟩
    obtain ⟨tail, rfl⟩ := hrun ▸ htakes.front
    have hmem : c ∈ run ++ tail ++ [c] ++ more := by simp
    rcases hspells.eq_of_partsTokens hc hmem with rfl | hcomment
    · rw [List.cons_append, first?_blank (hspells.2 d List.mem_cons_self)] at h
      obtain rfl := Option.some.inj h
      cases hkind
    · have hslash : d = '/' := by
        rcases hcomment with rfl | rfl
        · obtain ⟨body, -, hbody⟩ := hspells
          exact (List.cons.inj hbody).1
        · obtain ⟨body, hbody⟩ := hspells
          exact (List.cons.inj hbody).1
      have hl := htakes.spells
      rw [hrun, hslash] at hl
      rw [hlkind] at hkind
      rcases hl.eq_of_slash hp with rfl | rfl <;> cases hkind
  refine first?_eq_some.2 ⟨earlier, p, later, horder, ?_, hlkind, ?_⟩
  · refine Pattern.match?_eq_some.2 ⟨htakes.spells, htakes.front.trans (List.prefix_append cs (c :: b)), ?_⟩
    intro other hspells hother
    exact htakes.prefers other hspells ((front_of_append_cons hother).resolve_right (hshort p hp other hspells))
  · intro q hq
    have hq' : q ∈ Pattern.inOrder := by simp [horder, hq]
    apply Pattern.match?_eq_none.2
    intro other hspells hother
    exact Pattern.match?_eq_none.1 (hearlier q hq) other hspells
      ((front_of_append_cons hother).resolve_right (hshort q hq' other hspells))

end Lexeme

/-- The text is, as a whole, a lexeme of the kind. -/
def Kind.Writes (kind : Kind) (text : String) : Prop :=
  Lexeme.first? text.toList = some ⟨some kind, text.toList⟩

instance (kind : Kind) (text : String) : Decidable (kind.Writes text) :=
  inferInstanceAs (Decidable (_ = _))

/-- A text that is cut into tokens with these kinds and texts, up to its end. -/
def LexesTo (cs : List Char) (words : List (Kind × String)) : Prop :=
  ∀ file n, (Token.scan file n cs).1.map Token.word = words ∧ (Token.scan file n cs).2 = []

namespace LexesTo

variable {cs : List Char} {words : List (Kind × String)} {kind : Kind} {text : String}

theorem nil : LexesTo [] [] := by
  intro file n
  rw [Token.scan_nil]
  exact ⟨rfl, rfl⟩

theorem blank {c : Char} (h : LexesTo cs words) (hc : Text.isBlank c) : LexesTo (c :: cs) words := by
  intro file n
  rw [← List.singleton_append, Token.scan_blank (List.forall_mem_singleton.2 hc)]
  exact h file _

/-- A token at the end or in front of a character that parts tokens. -/
theorem append {rest : List Char} (h : LexesTo rest words) (htext : kind.Writes text)
    (hrest : ∀ c ∈ rest.head?, partsTokens c) : LexesTo (text.toList ++ rest) ((kind, text) :: words) := by
  intro file n
  have hfirst : Lexeme.first? (text.toList ++ rest) = some ⟨some kind, text.toList⟩ := by
    cases rest with
    | nil =>
      rw [List.append_nil]
      exact htext
    | cons c rest => exact Lexeme.first?_append_of_partsTokens htext rfl (hrest c rfl) rest
  obtain ⟨hwords, hrest⟩ := h file (n + Text.size text.toList)
  have hscan : Token.scan file n (text.toList ++ rest) = _ :=
    Token.scan_append (l := ⟨some kind, text.toList⟩) hfirst
  have htoken : ((⟨some kind, text.toList⟩ : Lexeme).token? file n).toList.map Token.word = [(kind, text)] := by
    rw [Lexeme.token?, Option.map_some, String.ofList_toList]
    rfl
  rw [hscan, List.map_append, htoken, hwords]
  exact ⟨rfl, hrest⟩

/-- A token in front of a character that parts tokens. -/
theorem cons {c : Char} {rest : List Char} (h : LexesTo (c :: rest) words) (htext : kind.Writes text)
    (hc : partsTokens c) : LexesTo (text.toList ++ c :: rest) ((kind, text) :: words) :=
  h.append htext fun _ hd => Option.some.inj hd ▸ hc

/-- A parenthesis, whatever comes after it. -/
theorem openParen (h : LexesTo cs words) : LexesTo ('(' :: cs) ((.openParen, "(") :: words) := by
  intro file n
  obtain ⟨hwords, hrest⟩ := h file (n + 1)
  have hscan : Token.scan file n ('(' :: cs) = _ := Token.scan_append (l := ⟨some .openParen, ['(']⟩) rfl
  rw [hscan, List.map_append]
  exact ⟨congrArg (_ :: ·) hwords, hrest⟩

theorem closeParen (h : LexesTo cs words) : LexesTo (')' :: cs) ((.closeParen, ")") :: words) := by
  intro file n
  obtain ⟨hwords, hrest⟩ := h file (n + 1)
  have hscan : Token.scan file n (')' :: cs) = _ := Token.scan_append (l := ⟨some .closeParen, [')']⟩) rfl
  rw [hscan, List.map_append]
  exact ⟨congrArg (_ :: ·) hwords, hrest⟩

theorem ofSource {source : String} (h : LexesTo source.toList words) (file : String) :
    ∃ ts, Token.ofSource file source = .ok ts ∧ ts.map Token.word = words ++ [(.endOfInput, "EOF")] := by
  obtain ⟨hwords, hrest⟩ := h file 0
  refine ⟨_, Token.ofSource_eq_ok_scan.2 ⟨_, Prod.ext rfl hrest, rfl⟩, ?_⟩
  rw [List.map_append, hwords]
  rfl

end LexesTo

namespace Kind.Writes

variable {kind : Kind} {text : String}

theorem isSpelled (h : kind.Writes text) (span : Span) : Token.IsSpelled ⟨kind, text, span⟩ :=
  Lexeme.admits h rfl

/-- The texts of the tokens of a source. -/
theorem of_mem_scan {file : String} {n : Nat} {cs : List Char} {t : Token} (h : t ∈ (Token.scan file n cs).1) :
    t.kind.Writes t.text := by
  obtain ⟨⟨kind?, cs'⟩, hl, hkind, htext⟩ := Lexeme.exists_of_mem_tokens h
  have hfirst := Lexeme.first?_text cs _ hl
  rwa [Writes, ← htext, String.toList_ofList, ← hkind]

/-- Digits and the suffix of a measure are a number of this measure and of no other. -/
theorem number (m : Measure) {digits : List Char} (hne : digits ≠ []) (hdigits : ∀ c ∈ digits, c.isDigit) :
    (Kind.number m).Writes (String.ofList (digits ++ m.suffix.toList)) := by
  have hspells : (Pattern.number m).Spells (digits ++ m.suffix.toList) := ⟨digits, hne, hdigits, rfl⟩
  have hmatch : (Pattern.number m).match? (digits ++ m.suffix.toList) = some (digits ++ m.suffix.toList) :=
    Pattern.match?_eq_some.2 ⟨hspells, List.prefix_rfl, fun _ _ hother => hother⟩
  obtain ⟨earlier, later, horder, hearlier⟩ := Pattern.exists_inOrder_number m hne hdigits
  rw [Writes, String.toList_ofList]
  exact Lexeme.first?_eq_some.2 ⟨earlier, _, later, horder, hmatch, rfl, hearlier⟩

theorem flag (b : Bool) : (Kind.flag b).Writes (Value.flag b).text := by
  cases b <;> decide

theorem mark : Kind.openCurly.Writes "\x7b" ∧ Kind.closeCurly.Writes "\x7d" ∧ Kind.colon.Writes ":" ∧
    Kind.semicolon.Writes ";" := by
  decide

end Kind.Writes

end TypedCss
