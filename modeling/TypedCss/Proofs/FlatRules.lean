import TypedCss.Proofs.PlacelessReading
import TypedCss.Proofs.Recognition
import TypedCss.Proofs.Separation
import TypedCss.Proofs.Wording

/-!
# Flat rules

A flat rule has declarations of literals and nothing else. Its block is cut into its words again, these words derive
the rule, and a stylesheet of flat rules is written out as their blocks.
-/

namespace TypedCss

/-- The kind of the token that a text is, if it is one. -/
def Kind.ofText (text : String) : Kind := ((Lexeme.first? text.toList).bind Lexeme.kind?).getD .endOfInput

theorem Kind.Writes.ofText {kind : Kind} {text : String} (h : kind.Writes text) : Kind.ofText text = kind := by
  rw [Kind.ofText, h]
  rfl

/-- A token with the given kind and text that stands nowhere. -/
def Token.ofWord (w : Kind × String) : Token := ⟨w.1, w.2, .nowhere⟩

theorem Token.map_word_ofWord (words : List (Kind × String)) : (words.map ofWord).map word = words := by
  rw [List.map_map]
  exact List.map_id words

/-- The words that a text is cut into are texts of tokens. -/
theorem LexesTo.writes {cs : List Char} {words : List (Kind × String)} (h : LexesTo cs words) :
    ∀ w ∈ words, w.1.Writes w.2 := by
  rw [← (h "" 0).1]
  exact List.forall_mem_map.2 fun t ht => Kind.Writes.of_mem_scan ht

theorem LexesTo.isSpelled {cs : List Char} {words : List (Kind × String)} (h : LexesTo cs words) :
    ∀ t ∈ words.map Token.ofWord, t.IsSpelled :=
  List.forall_mem_map.2 fun w hw => (h.writes w hw).isSpelled .nowhere

theorem Grammar.Selects.fits {t : Token} {s : Selector} (h : Selects t s) : t.Fits := by
  have hkind : t.kind = .word ∨ t.kind = .className ∨ t.kind = .idName ∨ t.kind = .color := by
    cases h <;> simp_all
  intro m hm
  simp [hm] at hkind

theorem Selector.text_of_selects {t : Token} {s : Selector} (h : Grammar.Selects t s) : s.text = t.text := by
  cases h with
  | tag => rfl
  | className _ ht => exact ht.symm
  | id _ ht => exact ht.symm

/-- The text of a selector is a word that stands for it. -/
theorem Selector.IsWorded.selects {s : Selector} (h : s.IsWorded) :
    (Kind.ofText s.text).Writes s.text ∧ Grammar.Selects (.ofWord (Kind.ofText s.text, s.text)) s := by
  obtain ⟨⟨kind, text, span⟩, hword, hselects⟩ := h
  have htext := text_of_selects hselects
  rw [htext, Kind.Writes.ofText hword]
  refine ⟨hword, ?_⟩
  cases hselects with
  | tag hkind => exact .tag hkind
  | className hkind ht => exact .className hkind ht
  | id hkind ht => exact .id hkind ht

/-- The kind of the token that writes the value. -/
def Value.kind : Value → Kind
  | flag b => .flag b
  | color _ => .color
  | number m _ => .number m

/-- Whether the value is anything but a negative number. -/
def Value.isNonnegative : Value → Bool
  | number _ n => 0 ≤ n
  | _ => true

/-- A number that is not negative is written with the digits of a natural number below 2³¹. -/
theorem Value.digits_of_nonneg {n : Int32} (h : 0 ≤ n) : ∃ k : Nat, k < 2147483648 ∧ Int32.ofNat k = n ∧
    Text.writeWord n = String.ofList (Nat.toDigits 10 k) := by
  obtain ⟨k, hk⟩ := Int.eq_ofNat_of_zero_le (Int32.le_iff_toInt_le.1 h)
  have hlt : n.toInt < 2 ^ 31 := n.toInt_lt
  refine ⟨k, by omega, ?_, ?_⟩
  · rw [← Int32.ofInt_eq_ofNat, ← hk, Int32.ofInt_toInt]
  · rw [Text.writeWord, hk, Int.repr_eq_if, if_pos (Int.natCast_nonneg k), Int.toNat_natCast, ← Nat.toList_repr,
      String.ofList_toList]

/-- A token writes the value, and an operand of this token has the value. -/
structure Value.IsReadable (v : Value) : Prop where
  writes : v.kind.Writes v.text
  fits : (Token.ofWord (v.kind, v.text)).Fits
  factor : Grammar.Factor [.ofWord (v.kind, v.text)] (.literal v .plain)

theorem Value.isReadable_number (m : Measure) {n : Int32} (h : 0 ≤ n) : (number m n).IsReadable := by
  obtain ⟨k, hlt, hk, hdigits⟩ := digits_of_nonneg h
  have hrun : ∀ c ∈ Nat.toDigits 10 k, c.isDigit :=
    fun _ hc => Nat.isDigit_of_mem_toDigits (by decide) (by decide) hc
  have htext : (number m n).text = String.ofList (Nat.toDigits 10 k ++ m.suffix.toList) := by
    rw [text, hdigits, String.ofList_append, String.ofList_toList]
  have hnumber : (Token.ofWord (.number m, (number m n).text)).number = k := by
    rw [Token.number, Token.ofWord, htext, String.toList_ofList, List.takeWhile_append_of_pos hrun,
      m.takeWhile_isDigit_suffix, List.append_nil, Nat.ofDigitChars_ten_toDigits]
  constructor
  · rw [htext]
    exact .number m Nat.toDigits_ne_nil hrun
  · intro _ _
    rw [kind, hnumber]
    exact hlt
  · have hfactor : Grammar.Factor [.ofWord (.number m, (number m n).text)] _ := .number rfl
    rwa [hnumber, hk] at hfactor

theorem Value.IsWorded.isReadable {v : Value} (h : v.IsWorded) (hsign : v.isNonnegative) : v.IsReadable := by
  cases v with
  | flag b => exact ⟨.flag b, nofun, .flag rfl⟩
  | color text => exact ⟨h, nofun, .color rfl⟩
  | number m n => exact isReadable_number m (of_decide_eq_true hsign)

namespace Css

/-- The words of a line. -/
def lineWords (line : String × Value) : List (Kind × String) :=
  [(.word, line.1), (.colon, ":"), (line.2.kind, line.2.text), (.semicolon, ";")]

/-- The declaration of a literal. -/
def declaration (line : String × Value) : Stmt := .declaration line.1 (.literal line.2 .plain) .plain

structure LineIsReadable (line : String × Value) : Prop where
  property : Kind.word.Writes line.1
  value : line.2.IsReadable

/-- A rule with declarations of literals only. -/
structure FlatRule where
  selector : Selector
  lines : List (String × Value)

namespace FlatRule

def block (r : FlatRule) : Block := ⟨[r.selector], r.lines⟩

theorem block_injective : Function.Injective block := by
  rintro ⟨s, lines⟩ ⟨s', lines'⟩ h
  cases h
  rfl

def stmt (r : FlatRule) : Stmt := .rule r.selector (r.lines.map declaration) .plain

/-- The words of the block. -/
def words (r : FlatRule) : List (Kind × String) :=
  (Kind.ofText r.selector.text, r.selector.text) :: (.openCurly, "\x7b") ::
    (r.lines.flatMap lineWords ++ [(.closeCurly, "\x7d")])

structure IsReadable (r : FlatRule) : Prop where
  selector : r.selector.IsWorded
  lines : ∀ line ∈ r.lines, LineIsReadable line

end FlatRule

section Lexing

variable {cs : List Char} {words : List (Kind × String)}

theorem lexesTo_line {line : String × Value} (hline : LineIsReadable line) (h : LexesTo cs words) :
    LexesTo ((lineText line).toList ++ cs) (lineWords line ++ words) := by
  obtain ⟨-, -, hcolon, hsemicolon⟩ := Kind.Writes.mark
  have hend := (h.blank (c := '\n') rfl).cons hsemicolon rfl
  have hvalue := (hend.cons hline.value.writes rfl).blank (c := ' ') rfl
  have hproperty := (hvalue.cons hcolon rfl).cons hline.property rfl
  have htext : (lineText line).toList ++ cs =
      ' ' :: ' ' :: (line.1.toList ++ ':' :: ' ' :: (line.2.text.toList ++ ';' :: '\n' :: cs)) := by
    simp [lineText]
  rw [htext]
  exact (hproperty.blank rfl).blank rfl

theorem lexesTo_lines {lines : List (String × Value)} (hlines : ∀ line ∈ lines, LineIsReadable line)
    (h : LexesTo cs words) :
    LexesTo (lines.flatMap (fun line => (lineText line).toList) ++ cs) (lines.flatMap lineWords ++ words) := by
  induction lines with
  | nil => exact h
  | cons line lines ih =>
    obtain ⟨hline, hlines⟩ := List.forall_mem_cons.1 hlines
    rw [List.flatMap_cons, List.flatMap_cons, List.append_assoc, List.append_assoc]
    exact lexesTo_line hline (ih hlines)

theorem lexesTo_block {r : FlatRule} (hr : r.IsReadable) (h : LexesTo cs words) :
    LexesTo (r.block.text.toList ++ cs) (r.words ++ words) := by
  obtain ⟨hopen, hclose, -, -⟩ := Kind.Writes.mark
  -- from the end of the block to its front, as each token needs the character after it
  have hstop := (h.blank (c := '\n') rfl).cons hclose rfl
  have hlines := (lexesTo_lines hr.lines hstop).blank (c := '\n') rfl
  have hstart := (hlines.cons hopen rfl).blank (c := ' ') rfl
  have hselector := hstart.cons hr.selector.selects.1 rfl
  have htext : r.block.text.toList ++ cs = r.selector.text.toList ++ ' ' :: '\x7b' :: '\n' ::
      (r.lines.flatMap (fun line => (lineText line).toList) ++ '\x7d' :: '\n' :: cs) := by
    simp [FlatRule.block, Block.text, Block.selectorText, String.toList_join, List.flatMap_map]
  have hwords : r.words ++ words = (Kind.ofText r.selector.text, r.selector.text) :: (.openCurly, "\x7b") ::
      (r.lines.flatMap lineWords ++ (.closeCurly, "\x7d") :: words) := by
    simp [FlatRule.words]
  rw [htext, hwords]
  exact hselector

/-- A text of blocks of flat rules is cut into the words of these. -/
theorem lexesTo_text {rules : List FlatRule} (hrules : ∀ r ∈ rules, r.IsReadable) :
    LexesTo (text (rules.map FlatRule.block)).toList (rules.flatMap FlatRule.words) := by
  induction rules with
  | nil => exact .nil
  | cons r rules ih =>
    obtain ⟨hr, hrules⟩ := List.forall_mem_cons.1 hrules
    cases rules with
    | nil =>
      have hblock := lexesTo_block hr .nil
      rw [List.append_nil, List.append_nil] at hblock
      rw [text, List.map_singleton, List.map_singleton, String.intercalate_singleton, List.flatMap_singleton]
      exact hblock
    | cons r' rules =>
      have htext : (text ((r :: r' :: rules).map FlatRule.block)).toList =
          r.block.text.toList ++ '\n' :: (text ((r' :: rules).map FlatRule.block)).toList := by
        simp [text, String.intercalate_cons_cons]
      rw [htext, List.flatMap_cons]
      exact lexesTo_block hr ((ih hrules).blank rfl)

end Lexing

section Deriving

open Grammar

theorem derives_declaration {line : String × Value} (h : LineIsReadable line) :
    Declaration ((lineWords line).map Token.ofWord) (declaration line) :=
  .mk rfl rfl (.mk (.mk h.value.factor (.nil _)) (.nil _)) rfl

theorem derives_lines {lines : List (String × Value)} (h : ∀ line ∈ lines, LineIsReadable line) :
    Items ((lines.flatMap lineWords).map Token.ofWord) (lines.map declaration) := by
  induction lines with
  | nil => exact .nil
  | cons line lines ih =>
    obtain ⟨hline, hlines⟩ := List.forall_mem_cons.1 h
    rw [List.flatMap_cons, List.map_append, List.map_cons]
    exact .cons (.declaration (derives_declaration hline)) (ih hlines)

theorem FlatRule.derives {r : FlatRule} (h : r.IsReadable) : Rule (r.words.map Token.ofWord) r.stmt := by
  rw [words, List.map_cons, List.map_cons, List.map_append]
  exact .mk h.selector.selects.2 (.mk rfl (derives_lines h.lines) rfl)

/-- The words of flat rules derive the stylesheet that has just these rules. -/
theorem derives_rules {rules : List FlatRule} (h : ∀ r ∈ rules, r.IsReadable) :
    Sheet ((rules.flatMap FlatRule.words).map Token.ofWord) (rules.map FlatRule.stmt) := by
  induction rules with
  | nil => exact .nil
  | cons r rules ih =>
    obtain ⟨hr, hrules⟩ := List.forall_mem_cons.1 h
    rw [List.flatMap_cons, List.map_append, List.map_cons]
    exact .rule (FlatRule.derives hr) (ih hrules)

end Deriving

section Writing

theorem allDeclarations_of_declarations (lines : List (String × Value)) :
    Stmt.allDeclarations (lines.map declaration) =
      .ok (lines.map fun line => (line.1, .literal line.2 .plain)) := by
  induction lines with
  | nil => rfl
  | cons line lines ih =>
    rw [List.map_cons, Stmt.allDeclarations, ih]
    rfl

theorem lines_of_declarations (lines : List (String × Value)) :
    Stmt.lines (lines.map declaration) = .ok lines := by
  rw [Stmt.lines, allDeclarations_of_declarations]
  change List.mapM _ _ = _
  induction lines with
  | nil => rfl
  | cons line lines ih =>
    rw [List.map_cons, List.mapM_cons, ih]
    rfl

theorem blocks_of_declarations (outer : List Selector) (lines : List (String × Value)) :
    Stmt.allBlocks outer (lines.map declaration) = .ok [] := by
  induction lines with
  | nil => rfl
  | cons line lines ih =>
    rw [List.map_cons, Stmt.allBlocks, ih]
    rfl

theorem FlatRule.blocks_stmt (r : FlatRule) : r.stmt.blocks [] = .ok [r.block] := by
  rw [stmt, Stmt.blocks, lines_of_declarations]
  change (Stmt.allBlocks _ _ >>= _) = _
  rw [blocks_of_declarations]
  rfl

theorem blocks_of_rules (rules : List FlatRule) :
    Stmt.allBlocks [] (rules.map FlatRule.stmt) = .ok (rules.map FlatRule.block) := by
  induction rules with
  | nil => rfl
  | cons r rules ih =>
    rw [List.map_cons, Stmt.allBlocks, FlatRule.blocks_stmt, ih]
    rfl

/-- A stylesheet of flat rules is written out as their blocks. -/
theorem css_of_rules (rules : List FlatRule) (span : Span) :
    Stylesheet.css ⟨rules.map FlatRule.stmt, span⟩ = .ok (text (rules.map FlatRule.block)) := by
  have hrules : (rules.map FlatRule.stmt).filter Stmt.isRule = rules.map FlatRule.stmt :=
    List.filter_eq_self.2 (List.forall_mem_map.2 fun _ _ => rfl)
  rw [Stylesheet.css, Stylesheet.blocks, hrules, blocks_of_rules]
  rfl

end Writing

section Fitting

theorem FlatRule.fits {r : FlatRule} (h : r.IsReadable) : ∀ t ∈ r.words.map Token.ofWord, t.Fits := by
  have hlines : ∀ line ∈ r.lines, ∀ w ∈ lineWords line, (Token.ofWord w).Fits := by
    intro line hline
    have hvalue := (h.lines line hline).value.fits
    simp only [lineWords, List.forall_mem_cons]
    exact ⟨nofun, nofun, hvalue, nofun, nofun⟩
  rw [List.forall_mem_map, words, List.forall_mem_cons, List.forall_mem_cons, List.forall_mem_append]
  refine ⟨h.selector.selects.2.fits, nofun, ?_, List.forall_mem_singleton.2 nofun⟩
  intro w hw
  obtain ⟨line, hline, hw⟩ := List.mem_flatMap.1 hw
  exact hlines line hline w hw

theorem fits_of_rules {rules : List FlatRule} (h : ∀ r ∈ rules, r.IsReadable) :
    ∀ t ∈ (rules.flatMap FlatRule.words).map Token.ofWord, t.Fits := by
  intro t ht
  rw [List.map_flatMap] at ht
  obtain ⟨r, hr, ht⟩ := List.mem_flatMap.1 ht
  exact FlatRule.fits (h r hr) t ht

end Fitting

/-- The blocks of flat rules are read as these rules, and written out as the same text. -/
theorem read_of_rules {rules : List FlatRule} (h : ∀ r ∈ rules, r.IsReadable) (file : String) :
    ∃ sheet, Stylesheet.ofSource file (text (rules.map FlatRule.block)) = .ok sheet ∧
      sheet.withoutSpans.body = rules.map FlatRule.stmt ∧ sheet.css = .ok (text (rules.map FlatRule.block)) := by
  have hlexes := lexesTo_text h
  obtain ⟨ts, hts, hwords⟩ := hlexes.ofSource file
  let w := (rules.flatMap FlatRule.words).map Token.ofWord
  let last := Token.ofWord (.endOfInput, "EOF")
  obtain ⟨plain, hplain, htree⟩ : ∃ plain, Stylesheet.ofTokens file (w ++ [last]) = .ok plain ∧
      Stmt.allWithoutSpans plain.body = rules.map FlatRule.stmt :=
    Grammar.ofTokens_complete rfl hlexes.isSpelled (fits_of_rules h) (derives_rules h)
  -- the tokens of the text have places and those of the derivation have none, but their words are the same
  have hsame : ts.map Token.word = (w ++ [last]).map Token.word := by
    rw [hwords, List.map_append, Token.map_word_ofWord]
    rfl
  have hread := Stylesheet.ofTokens_of_words file file hsame
  rw [hplain] at hread
  rw [Stylesheet.ofSource_of_tokens hts]
  cases hsheet : Stylesheet.ofTokens file ts with
  | error fault =>
    rw [hsheet] at hread
    cases hread
  | ok sheet =>
    rw [hsheet] at hread
    have hbody : sheet.withoutSpans = ⟨rules.map FlatRule.stmt, .nowhere⟩ := by
      rw [Except.ok.inj hread, Stylesheet.withoutSpans, htree]
    refine ⟨sheet, rfl, by rw [hbody], Stylesheet.css_of_bare (css_of_rules rules .nowhere) ?_⟩
    rw [← sheet.bare_withoutSpans, hbody]

end Css

end TypedCss
