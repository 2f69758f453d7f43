import TypedCss.Proofs.Patterns
import TypedCss.Token.Source

/-!
# Tokens tile the source

The tokens of a source stand in it one after the other, each with its own text, and nothing but white space
and comments is left between them. Where the lexer stops, no pattern fits, and what it has found up to there
are the tokens of the source cut off at that place.
-/

namespace TypedCss

/-- White space and comments, each taken whole. The text goes on with `after`. -/
inductive IsGap (after : List Char) : List Char → Prop
  | nil : IsGap after []
  | cons {p : Pattern} {piece gap : List Char} (hp : p ∈ [.blank, .lineComment, .blockComment])
    (h : p.Takes (piece ++ (gap ++ after)) piece) (hs : IsGap after gap) : IsGap after (piece ++ gap)

/-- A pattern that describes the text makes a token of this kind from it. -/
def Kind.Describes (kind : Kind) (text : List Char) : Prop :=
  ∃ p ∈ Pattern.inOrder, p.Spells text ∧ p.kind? text = some kind

theorem Kind.Describes.ne_nil {kind : Kind} {text : List Char} (h : kind.Describes text) : text ≠ [] := by
  obtain ⟨p, -, hspells, -⟩ := h
  exact hspells.ne_nil

/-- The tokens cut the text, which begins at the given offset, and leave only gaps. -/
inductive Tiles (file : String) : Nat → List Char → List Token → Prop
  | nil {n : Nat} {gap : List Char} (hgap : IsGap [] gap) : Tiles file n gap []
  | cons {n : Nat} {gap text rest : List Char} {kind : Kind} {ts : List Token}
    (hgap : IsGap (text ++ rest) gap) (htext : kind.Describes text)
    (h : Tiles file (n + Text.size gap + Text.size text) rest ts) :
    Tiles file n (gap ++ (text ++ rest))
      (⟨kind, String.ofList text, .ofLength file (n + Text.size gap) (Text.size text)⟩ :: ts)

theorem Pattern.gap_of_kind?_eq_none {p : Pattern} {text : List Char} (h : p.kind? text = none) :
    p ∈ [.blank, .lineComment, .blockComment] := by
  cases p with
  | blank | lineComment | blockComment => simp
  | _ => cases h

namespace Tiles

variable {file : String} {n : Nat} {cs : List Char} {ts : List Token}

theorem cons_piece {p : Pattern} {piece : List Char} (hp : p ∈ [.blank, .lineComment, .blockComment])
    (htakes : p.Takes (piece ++ cs) piece) (h : Tiles file (n + Text.size piece) cs ts) :
    Tiles file n (piece ++ cs) ts := by
  cases h with
  | nil hgap =>
    rw [← List.append_nil cs] at htakes
    exact .nil (.cons hp htakes hgap)
  | cons hgap htext h =>
    rw [← List.append_assoc piece]
    rw [Nat.add_assoc n, ← Text.size_append] at h ⊢
    exact .cons (.cons hp htakes hgap) htext h

theorem of_lexemes (file : String) (n : Nat) (cs : List Char) (h : (Lexeme.all cs).2 = []) :
    Tiles file n cs (Lexeme.tokens file n (Lexeme.all cs).1) := by
  fun_induction Lexeme.all cs generalizing n with
  | case1 cs _ =>
    obtain rfl : cs = [] := h
    exact .nil .nil
  | case2 cs l hfirst ls rest hls ih =>
    obtain ⟨-, tail, rfl⟩ := Lexeme.first?_prefix hfirst
    rw [List.drop_left] at hls ih
    rw [hls] at ih
    have htail := ih (n + Text.size l.text) h
    obtain ⟨earlier, p, later, horder, hmatch, hkind, -⟩ := Lexeme.first?_eq_some.1 hfirst
    have htakes := Pattern.match?_eq_some.1 hmatch
    rw [Lexeme.tokens]
    cases hl : l.kind? with
    | none => exact cons_piece (Pattern.gap_of_kind?_eq_none (hkind ▸ hl)) htakes htail
    | some kind =>
      rw [hkind] at hl
      exact .cons .nil ⟨p, by simp [horder], htakes.spells, hl⟩ htail

end Tiles

namespace Token

/-- The offset at which the token begins. -/
def start (t : Token) : Nat := t.span.start.offset.toNat

/-- The offset at which the token has ended. -/
def stop (t : Token) : Nat := t.span.stop.offset.toNat

theorem ends_ofLength (kind : Kind) (text file : String) (offset length : Nat)
    (h : offset + length < 4294967296) :
    start ⟨kind, text, .ofLength file offset length⟩ = offset ∧
      stop ⟨kind, text, .ofLength file offset length⟩ = offset + length :=
  ⟨UInt32.toNat_ofNat_of_lt' (show offset < 4294967296 by omega), UInt32.toNat_ofNat_of_lt' h⟩

end Token

namespace Text

theorem size_utf8Encode (cs : List Char) : cs.utf8Encode.size = size cs := by
  rw [← String.toByteArray_ofList, String.size_toByteArray, ← size_toList, String.toList_ofList]

theorem size_pos {cs : List Char} (h : cs ≠ []) : 0 < size cs := by
  obtain ⟨c, cs, rfl⟩ := List.exists_cons_of_ne_nil h
  have := c.utf8Size_pos
  rw [size_cons]
  omega

/-- The bytes of a piece of a text are those between its ends. -/
theorem extract_toByteArray {source : String} {before text after : List Char}
    (h : source.toList = before ++ (text ++ after)) :
    source.toByteArray.extract (size before) (size before + size text) = (String.ofList text).toByteArray := by
  have hsource : source.toByteArray = before.utf8Encode ++ (text.utf8Encode ++ after.utf8Encode) := by
    rw [← List.utf8Encode_append, ← List.utf8Encode_append, ← h, ← String.toByteArray_ofList,
      String.ofList_toList]
  rw [hsource, String.toByteArray_ofList, ← Nat.add_zero (size before), Nat.add_assoc, Nat.zero_add,
    ByteArray.extract_append_size_add' (size_utf8Encode before).symm,
    ByteArray.extract_append_eq_left (size_utf8Encode text).symm]

end Text

namespace Tiles

variable {file : String} {n : Nat} {cs : List Char} {ts : List Token}

/-- The tokens stand in the text between offset `n` and its end. -/
theorem stands (h : Tiles file n cs ts) (hsize : n + Text.size cs < 4294967296) : ∀ t ∈ ts,
    t.start < t.stop ∧ t.kind.Describes t.text.toList ∧ ∃ before after, cs = before ++ (t.text.toList ++ after) ∧
      t.start = n + Text.size before ∧ t.stop = n + Text.size before + Text.size t.text.toList := by
  induction h with
  | nil => simp
  | @cons n gap text rest kind ts hgap htext h ih =>
    simp only [Text.size_append] at hsize
    have hpos := Text.size_pos htext.ne_nil
    obtain ⟨hstart, hstop⟩ := Token.ends_ofLength kind (String.ofList text) file (n + Text.size gap)
      (Text.size text) (by omega)
    intro t ht
    rcases List.mem_cons.1 ht with rfl | ht
    · refine ⟨by omega, ?_, gap, rest, ?_, hstart, ?_⟩
      · rwa [String.toList_ofList]
      · rw [String.toList_ofList]
      · rw [String.toList_ofList, hstop]
    · obtain ⟨hlt, hkind, before, after, hrest, htstart, htstop⟩ := ih (by omega) t ht
      refine ⟨hlt, hkind, gap ++ (text ++ before), after, by simp [hrest], ?_, ?_⟩
      · simp only [Text.size_append]
        omega
      · simp only [Text.size_append]
        omega

theorem pairwise (h : Tiles file n cs ts) (hsize : n + Text.size cs < 4294967296) :
    ts.Pairwise fun t u => t.stop ≤ u.start := by
  induction h with
  | nil => exact .nil
  | @cons n gap text rest kind ts hgap htext h ih =>
    simp only [Text.size_append] at hsize
    obtain ⟨-, hstop⟩ := Token.ends_ofLength kind (String.ofList text) file (n + Text.size gap)
      (Text.size text) (by omega)
    refine List.pairwise_cons.2 ⟨?_, ih (by omega)⟩
    intro u hu
    obtain ⟨-, -, before, after, -, hustart, -⟩ := h.stands (by omega) u hu
    omega

/-- What the tokens leave, in front of them, between them and after them, are gaps. -/
theorem gaps (h : Tiles file n cs ts) (hsize : n + Text.size cs < 4294967296) :
    ∀ g ∈ (n :: ts.map Token.stop).zip (ts.map Token.start ++ [n + Text.size cs]),
      ∃ before gap after, cs = before ++ (gap ++ after) ∧ g.1 = n + Text.size before ∧
        g.2 = n + Text.size before + Text.size gap ∧ IsGap after gap := by
  induction h with
  | @nil n gap hgap =>
    intro g hg
    obtain rfl := List.mem_singleton.1 hg
    exact ⟨[], gap, [], by simp, by simp, by simp, hgap⟩
  | @cons n gap text rest kind ts hgap htext h ih =>
    simp only [Text.size_append] at hsize ⊢
    obtain ⟨hstart, hstop⟩ := Token.ends_ofLength kind (String.ofList text) file (n + Text.size gap)
      (Text.size text) (by omega)
    intro g hg
    rw [List.map_cons, List.map_cons, List.cons_append, List.zip_cons_cons, hstart, hstop] at hg
    rcases List.mem_cons.1 hg with rfl | hg
    · exact ⟨[], gap, text ++ rest, rfl, rfl, rfl, hgap⟩
    · rw [← Nat.add_assoc, ← Nat.add_assoc] at hg
      obtain ⟨before, gap', after, hrest, hstart', hstop', hgap'⟩ := ih (by omega) g hg
      refine ⟨gap ++ (text ++ before), gap', after, by simp [hrest], ?_, ?_, hgap'⟩
      · simp only [Text.size_append]
        omega
      · simp only [Text.size_append]
        omega

end Tiles

/-- Between the two offsets of the source there is a gap. -/
def IsGapBetween (source : String) (start stop : Nat) : Prop :=
  ∃ before gap after, source.toList = before ++ (gap ++ after) ∧ start = Text.size before ∧
    stop = Text.size before + Text.size gap ∧ IsGap after gap

theorem Lexeme.size_eq (ls : List Lexeme) : Lexeme.size ls = Text.size (ls.flatMap Lexeme.text) := by
  induction ls with
  | nil => rfl
  | cons l ls ih => rw [Lexeme.size, ih, List.flatMap_cons, Text.size_append]

namespace Token

variable {file source : String} {ts : List Token} {fault : Fault}

theorem ofSource_eq_ok : ofSource file source = .ok ts ↔
    (Lexeme.all source.toList).2 = [] ∧
      ts = Lexeme.tokens file 0 (Lexeme.all source.toList).1 ++ [.endOfInput file (Text.size source.toList)] := by
  have hall := Lexeme.all_flatMap_append source.toList
  rw [ofSource_eq]
  cases hrest : (Lexeme.all source.toList).2 with
  | nil =>
    rw [hrest, List.append_nil] at hall
    simp only [Lexeme.size_eq, hall, Except.ok.injEq, true_and]
    exact eq_comm
  | cons c cs => simp

theorem ofSource_eq_error : ofSource file source = .error fault ↔
    ∃ c cs, (Lexeme.all source.toList).2 = c :: cs ∧ fault = ⟨.unrecognised (String.singleton c),
      ⟨UInt32.ofNat (Lexeme.size (Lexeme.all source.toList).1), file⟩⟩ := by
  rw [ofSource_eq]
  cases hrest : (Lexeme.all source.toList).2 with
  | nil => simp
  | cons c cs =>
    simp only [Except.error.injEq]
    constructor
    · rintro rfl
      exact ⟨c, cs, rfl, rfl⟩
    · rintro ⟨c', cs', heq, rfl⟩
      rw [(List.cons.inj heq).1]

end Token

/-- The tokens stand in the source one after the other, each with its own text, and what is left in front of
them, between them and after them are gaps. -/
structure Token.Tile (source : String) (ts : List Token) : Prop where
  texts : ∀ t ∈ ts, t.start < t.stop ∧ t.kind.Describes t.text.toList ∧
    source.toByteArray.extract t.start t.stop = t.text.toByteArray
  ordered : ts.Pairwise fun t u => t.stop ≤ u.start
  gaps : ∀ g ∈ (0 :: ts.map Token.stop).zip (ts.map Token.start ++ [source.utf8ByteSize]),
    IsGapBetween source g.1 g.2

theorem Tiles.tile {file source : String} {ts : List Token} (h : Tiles file 0 source.toList ts)
    (hsize : source.utf8ByteSize < 4294967296) : Token.Tile source ts := by
  rw [← Text.size_toList, ← Nat.zero_add (Text.size source.toList)] at hsize
  refine ⟨?_, h.pairwise hsize, ?_⟩
  · intro t ht
    obtain ⟨hlt, hkind, before, after, hsource, hstart, hstop⟩ := h.stands hsize t ht
    refine ⟨hlt, hkind, ?_⟩
    rw [hstart, hstop, Nat.zero_add, Text.extract_toByteArray hsource, String.ofList_toList]
  · intro g hg
    rw [← Text.size_toList, ← Nat.zero_add (Text.size source.toList)] at hg
    obtain ⟨before, gap, after, hsource, hstart, hstop, hgap⟩ := h.gaps hsize g hg
    rw [Nat.zero_add] at hstart hstop
    exact ⟨before, gap, after, hsource, hstart, hstop, hgap⟩

/-- The tokens of a source tile it, up to its end. Where the lexer stops instead, no pattern fits, and the
source cut off there has the tokens that were found up to there. -/
theorem tokens_tile_source {file source : String} (hsize : source.utf8ByteSize < 4294967296) :
    (∀ ts, Token.ofSource file source = .ok ts → ∃ w last, ts = w ++ [last] ∧ Token.Tile source w ∧
      last.kind = .endOfInput ∧ last.start = source.utf8ByteSize ∧ last.stop = source.utf8ByteSize) ∧
    ∀ fault, Token.ofSource file source = .error fault → ∃ before c after,
      source.toList = before ++ c :: after ∧ fault.cause = .unrecognised (String.singleton c) ∧
      fault.position.file = file ∧ fault.position.offset.toNat = Text.size before ∧
      Token.ofSource file (String.ofList before) =
        .ok (Lexeme.tokens file 0 (Lexeme.all source.toList).1 ++ [.endOfInput file (Text.size before)]) ∧
      ∀ p ∈ Pattern.inOrder, ∀ text, p.Spells text → ¬text <+: c :: after := by
  constructor
  · intro ts hts
    obtain ⟨hrest, rfl⟩ := Token.ofSource_eq_ok.1 hts
    have htile := (Tiles.of_lexemes file 0 source.toList hrest).tile hsize
    obtain ⟨hstart, hstop⟩ := Token.ends_ofLength .endOfInput "EOF" file source.utf8ByteSize 0 hsize
    rw [Text.size_toList]
    exact ⟨_, _, rfl, htile, rfl, hstart, hstop⟩
  · intro fault hfault
    obtain ⟨c, after, hrest, rfl⟩ := Token.ofSource_eq_error.1 hfault
    have hall := Lexeme.all_flatMap_append source.toList
    have hnone := Lexeme.first?_rest source.toList
    rw [hrest] at hall hnone
    refine ⟨_, c, after, hall.symm, rfl, rfl, ?_, ?_, ?_⟩
    · rw [← Text.size_toList, ← hall, Text.size_append] at hsize
      rw [Lexeme.size_eq]
      have hbefore : Text.size ((Lexeme.all source.toList).1.flatMap Lexeme.text) < 4294967296 := by omega
      exact UInt32.toNat_ofNat_of_lt' hbefore
    · apply Token.ofSource_eq_ok.2
      rw [String.toList_ofList, Lexeme.all_flatMap]
      exact ⟨rfl, rfl⟩
    · intro p hp text hspells
      exact Pattern.match?_eq_none.1 (Lexeme.first?_eq_none.1 hnone p hp) text hspells

/-- A comment that is not closed is where the lexer stops. -/
theorem tokens_tile_source_comment :
    let source := "/* é */ .a \x7b w: 1px // x\n\x7d"
    let broken := "a /* é"
    source.utf8ByteSize < 4294967296 ∧ broken.utf8ByteSize < 4294967296 ∧
      (∃ ts w last, Token.ofSource "a.icss" source = .ok ts ∧ ts = w ++ [last] ∧ w.length = 6 ∧
        Token.Tile source w ∧ last.stop = source.utf8ByteSize) ∧
      ∃ fault after, Token.ofSource "a.icss" broken = .error fault ∧ fault.position.offset = 2 ∧
        fault.cause = .unrecognised "/" ∧ ∀ p ∈ Pattern.inOrder, ∀ text, p.Spells text → ¬text <+: '/' :: after := by
  intro source broken
  have hsource : source.utf8ByteSize < 4294967296 := by decide +kernel
  have hbroken : broken.utf8ByteSize < 4294967296 := by decide +kernel
  have hlength : (Token.ofSource "a.icss" source).toOption.map List.length = some 7 := by decide +kernel
  have hrest : (Lexeme.all broken.toList).2 = '/' :: "* é".toList := by decide +kernel
  have hsize : UInt32.ofNat (Lexeme.size (Lexeme.all broken.toList).1) = 2 := by decide +kernel
  have hfault : Token.ofSource "a.icss" broken = .error ⟨.unrecognised "/", ⟨2, "a.icss"⟩⟩ := by
    apply Token.ofSource_eq_error.2
    rw [hsize]
    exact ⟨_, _, hrest, rfl⟩
  refine ⟨hsource, hbroken, ?_, ?_⟩
  · cases hts : Token.ofSource "a.icss" source with
    | error fault =>
      rw [hts] at hlength
      cases hlength
    | ok ts =>
      rw [hts] at hlength
      obtain ⟨w, last, rfl, htile, -, -, hstop⟩ := (tokens_tile_source hsource).1 ts hts
      refine ⟨_, w, last, rfl, rfl, ?_, htile, hstop⟩
      simpa [Except.toOption] using hlength
  · obtain ⟨before, c, after, hchars, hcause, -, -, -, hnone⟩ := (tokens_tile_source hbroken).2 _ hfault
    obtain rfl : '/' = c := by simpa using congrArg String.toList (Cause.unrecognised.inj hcause)
    exact ⟨_, after, hfault, rfl, rfl, hnone⟩

end TypedCss
