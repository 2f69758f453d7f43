import TypedCss.Proofs.Tiling

/-!
# Sources put together

A line break parts tokens: of two sources with a line break between them, each keeps its own tokens, those
of the second further on. A token's text alone is that token again, and so the texts of all tokens of a source,
each on a line, are the same words.
-/

namespace TypedCss

/-- A text at the front of `cs` and a character more ends within `cs` or holds the character. -/
theorem front_of_append_cons {c : Char} {cs b other : List Char} (h : other <+: cs ++ c :: b) :
    other <+: cs ∨ cs ++ [c] <+: other := by
  rw [← List.singleton_append, ← List.append_assoc] at h
  rcases List.prefix_or_prefix_of_prefix h (List.prefix_append (cs ++ [c]) b) with hother | hother
  · rcases List.prefix_concat_iff.1 hother with rfl | hother
    · exact .inr List.prefix_rfl
    · exact .inl hother
  · exact .inr hother

namespace Pattern

variable {p : Pattern} {text : List Char}

theorem Spells.eq_of_newline (h : p.Spells text) (hp : p ∈ inOrder) (hmem : '\n' ∈ text) :
    p = blank ∨ p = blockComment := by
  cases p with
  | blank => exact .inl rfl
  | blockComment => exact .inr rfl
  | lineComment =>
    obtain ⟨body, hbody, rfl⟩ := h
    simp [hbody] at hmem
  | number m =>
    obtain ⟨digits, -, hdigits, rfl⟩ := h
    rcases List.mem_append.1 hmem with hmem | hmem
    · exact absurd (hdigits _ hmem) (by decide)
    · cases m <;> exact absurd hmem (by decide)
  | hash =>
    obtain ⟨word, -, hword, rfl⟩ := h
    exact absurd (hword _ (List.mem_of_ne_of_mem (by decide) hmem)) (by decide)
  | className =>
    obtain ⟨c, word, hc, hword, rfl⟩ := h
    rcases List.mem_cons.1 (List.mem_of_ne_of_mem (by decide) hmem) with rfl | hmem
    · exact absurd hc (by decide)
    · exact absurd (hword _ hmem) (by decide)
  | capitalised =>
    obtain ⟨c, word, hc, hword, rfl⟩ := h
    rcases List.mem_cons.1 hmem with rfl | hmem
    · exact absurd hc (by decide)
    · exact absurd (hword _ hmem) (by decide)
  | lowerCase =>
    obtain ⟨c, word, hc, hword, rfl⟩ := h
    rcases List.mem_cons.1 hmem with rfl | hmem
    · exact absurd hc (by decide)
    · exact absurd (hword _ hmem) (by decide)
  | assign =>
    obtain rfl := h
    exact absurd hmem (by decide)
  | mark c kind =>
    obtain rfl := h
    obtain rfl := List.mem_singleton.1 hmem
    exact absurd hp (by simp [inOrder])

theorem Spells.eq_of_slash (h : p.Spells ('/' :: text)) (hp : p ∈ inOrder) :
    p = lineComment ∨ p = blockComment := by
  cases p with
  | lineComment => exact .inl rfl
  | blockComment => exact .inr rfl
  | blank => exact absurd (h.2 '/' List.mem_cons_self) (by decide)
  | number m =>
    obtain ⟨digits, hne, hdigits, htext⟩ := h
    obtain ⟨d, run, rfl⟩ := List.exists_cons_of_ne_nil hne
    obtain rfl := (List.cons.inj htext).1
    exact absurd (hdigits '/' List.mem_cons_self) (by decide)
  | hash =>
    obtain ⟨word, -, -, htext⟩ := h
    exact absurd (List.cons.inj htext).1 (by decide)
  | className =>
    obtain ⟨c, word, -, -, htext⟩ := h
    exact absurd (List.cons.inj htext).1 (by decide)
  | capitalised | lowerCase =>
    obtain ⟨c, word, hc, -, htext⟩ := h
    obtain rfl := (List.cons.inj htext).1
    exact absurd hc (by decide)
  | assign => exact absurd (List.cons.inj h).1 (by decide)
  | mark c kind =>
    obtain rfl := (List.cons.inj h).1
    exact absurd hp (by simp [inOrder])

end Pattern

/-- The span of the same text where `n` bytes more come before it. -/
def Span.shifted (n : Nat) (s : Span) : Span :=
  ⟨⟨s.start.offset + UInt32.ofNat n, s.start.file⟩, ⟨s.stop.offset + UInt32.ofNat n, s.stop.file⟩⟩

theorem Span.shifted_ofLength (k : Nat) (file : String) (n length : Nat) :
    (Span.ofLength file n length).shifted k = .ofLength file (n + k) length := by
  rw [ofLength, ofLength, shifted, UInt32.ofNat_add n k, Nat.add_right_comm, UInt32.ofNat_add (n + length) k]

namespace Token

/-- The token where `n` bytes more come before it. -/
def shifted (n : Nat) (t : Token) : Token := { t with span := t.span.shifted n }

/-- What kind the token has, and its text. -/
def word (t : Token) : Kind × String := (t.kind, t.text)

theorem map_word_shifted (n : Nat) (ts : List Token) : (ts.map (shifted n)).map word = ts.map word := by
  rw [List.map_map]
  rfl

theorem shifted_endOfInput (k : Nat) (file : String) (n : Nat) :
    (endOfInput file n).shifted k = .endOfInput file (n + k) := by
  rw [endOfInput, shifted, Span.shifted_ofLength]
  rfl

end Token

namespace Lexeme

variable {cs b : List Char} {l : Lexeme}

theorem first?_blank {c : Char} (hc : Text.isBlank c) (cs : List Char) :
    first? (c :: cs) = some ⟨none, c :: cs.takeWhile Text.isBlank⟩ :=
  first?_eq_some.2 ⟨[], .blank, _, rfl, if_pos hc, rfl, nofun⟩

/-- A line break after a text does not change what stands at its front, unless the text is white space
throughout. -/
theorem first?_append_newline (h : first? cs = some l) (hcs : ¬∀ c ∈ cs, Text.isBlank c) (b : List Char) :
    first? (cs ++ '\n' :: b) = some l := by
  obtain ⟨earlier, p, later, horder, htext, hkind, hearlier⟩ := first?_eq_some.1 h
  have hp : p ∈ Pattern.inOrder := by simp [horder]
  have htakes := Pattern.match?_eq_some.1 htext
  have hfront : l.text <+: cs ++ '\n' :: b := htakes.front.trans (List.prefix_append _ _)
  -- what holds the line break is a block comment, for `cs` in front of it is no white space
  have hcomment : ∀ q ∈ Pattern.inOrder, ∀ other, q.Spells other → cs ++ ['\n'] <+: other →
      q = .blockComment := by
    intro q hq other hspells hother
    have hmem : '\n' ∈ other := hother.subset (by simp)
    rcases hspells.eq_of_newline hq hmem with rfl | rfl
    · refine absurd (fun c hc => hspells.2 c ?_) hcs
      exact hother.subset (List.mem_append_left _ hc)
    · rfl
  refine first?_eq_some.2 ⟨earlier, p, later, horder, ?_, hkind, ?_⟩
  · refine Pattern.match?_eq_some.2 ⟨htakes.spells, hfront, ?_⟩
    intro other hspells hother
    rcases front_of_append_cons hother with hother | hlonger
    · exact htakes.prefers other hspells hother
    · obtain rfl := hcomment p hp other hspells hlonger
      exact htakes.front.trans ((List.prefix_append cs ['\n']).trans hlonger)
  · intro q hq
    have hq' : q ∈ Pattern.inOrder := by simp [horder, hq]
    apply Pattern.match?_eq_none.2
    intro other hspells hother
    rcases front_of_append_cons hother with hother' | hlonger
    · exact Pattern.match?_eq_none.1 (hearlier q hq) other hspells hother'
    · -- the earlier pattern would be the block comment, so that `l` begins with its `/`
      obtain rfl := hcomment q hq' other hspells hlonger
      obtain ⟨body, rfl⟩ := hspells
      have hslash : l.text <+: '/' :: '*' :: (body ++ ['*', '/']) :=
        htakes.front.trans ((List.prefix_append cs ['\n']).trans hlonger)
      obtain ⟨c, text, htext'⟩ := List.exists_cons_of_ne_nil htakes.spells.ne_nil
      have hl := htakes.spells
      rw [htext'] at hslash hl
      obtain ⟨rfl, hstar⟩ := List.cons_prefix_cons.1 hslash
      rcases hl.eq_of_slash hp with rfl | rfl
      · obtain ⟨rest, -, hrest⟩ := hl
        obtain rfl := (List.cons.inj hrest).2
        exact absurd (List.cons_prefix_cons.1 hstar).1 (by decide)
      · rw [hearlier _ hq] at htext
        cases htext

/-- The text of a lexeme alone is that lexeme. -/
theorem first?_text (cs : List Char) : ∀ l ∈ (all cs).1, first? l.text = some l := by
  fun_induction all cs with
  | case1 => simp
  | case2 cs l h ls rest hls ih =>
    obtain ⟨-, hfront⟩ := first?_prefix h
    rw [hls] at ih
    exact List.forall_mem_cons.2 ⟨first?_of_front h List.prefix_rfl hfront, ih⟩

theorem all_text (h : first? l.text = some l) : all l.text = ([l], []) := by
  have hfirst : first? (l.text ++ []) = some l := by rwa [List.append_nil]
  have hall := all_append hfirst
  rwa [List.append_nil, all_of_none (show first? [] = none by rfl)] at hall

/-- The token that the lexeme makes at the given offset. -/
def token? (file : String) (n : Nat) (l : Lexeme) : Option Token :=
  l.kind?.map fun kind => ⟨kind, String.ofList l.text, .ofLength file n (Text.size l.text)⟩

theorem token?_add (file : String) (n k : Nat) (l : Lexeme) :
    l.token? file (n + k) = (l.token? file n).map (Token.shifted k) := by
  rw [token?, token?, Option.map_map, ← Span.shifted_ofLength]
  rfl

theorem tokens_cons (file : String) (n : Nat) (l : Lexeme) (ls : List Lexeme) :
    tokens file n (l :: ls) = (l.token? file n).toList ++ tokens file (n + Text.size l.text) ls := by
  rw [tokens, token?]
  cases l.kind? <;> rfl

theorem tokens_add (file : String) (n k : Nat) (ls : List Lexeme) :
    tokens file (n + k) ls = (tokens file n ls).map (Token.shifted k) := by
  induction ls generalizing n with
  | nil => rfl
  | cons l ls ih =>
    rw [tokens_cons, tokens_cons, Nat.add_right_comm, List.map_append, ih, token?_add]
    cases l.token? file n <;> rfl

theorem exists_of_mem_tokens {file : String} {n : Nat} {ls : List Lexeme} {t : Token}
    (h : t ∈ tokens file n ls) :
    ∃ l ∈ ls, l.kind? = some t.kind ∧ String.ofList l.text = t.text := by
  induction ls generalizing n with
  | nil => simp [tokens] at h
  | cons l ls ih =>
    rw [tokens_cons] at h
    rcases List.mem_append.1 h with h | h
    · obtain ⟨kind, hkind, rfl⟩ := Option.map_eq_some_iff.1 (Option.mem_toList.1 h)
      exact ⟨l, List.mem_cons_self, hkind, rfl⟩
    · obtain ⟨l', hl', ht⟩ := ih h
      exact ⟨l', List.mem_cons_of_mem _ hl', ht⟩

end Lexeme

namespace Token

/-- The tokens of a text that begins at the given offset, and what is left where the lexer stops. -/
def scan (file : String) (n : Nat) (cs : List Char) : List Token × List Char :=
  (Lexeme.tokens file n (Lexeme.all cs).1, (Lexeme.all cs).2)

variable {file : String} {n : Nat} {a b cs gap : List Char} {l : Lexeme} {ts : List Token} {source : String}

theorem ofSource_eq_ok_scan : ofSource file source = .ok ts ↔
    ∃ w, scan file 0 source.toList = (w, []) ∧ ts = w ++ [.endOfInput file source.utf8ByteSize] := by
  rw [ofSource_eq_ok, scan, Text.size_toList]
  constructor
  · rintro ⟨hrest, rfl⟩
    exact ⟨_, by rw [hrest], rfl⟩
  · rintro ⟨w, hscan, rfl⟩
    obtain ⟨rfl, hrest⟩ := Prod.mk.inj hscan
    exact ⟨hrest, rfl⟩

theorem scan_nil (file : String) (n : Nat) : scan file n [] = ([], []) := by
  rw [scan, Lexeme.all_of_none (show Lexeme.first? [] = none by rfl)]
  rfl

theorem scan_append (h : Lexeme.first? (l.text ++ cs) = some l) :
    scan file n (l.text ++ cs) = ((l.token? file n).toList ++ (scan file (n + Text.size l.text) cs).1,
      (scan file (n + Text.size l.text) cs).2) := by
  rw [scan, Lexeme.all_append h, Lexeme.tokens_cons]
  rfl

theorem scan_dropWhile (file : String) (n : Nat) (cs : List Char) : scan file n cs =
    scan file (n + Text.size (cs.takeWhile Text.isBlank)) (cs.dropWhile Text.isBlank) := by
  cases cs with
  | nil => rfl
  | cons c cs =>
    by_cases hc : Text.isBlank c
    · have hfirst := Lexeme.first?_blank hc cs
      rw [List.takeWhile_cons_of_pos hc, List.dropWhile_cons_of_pos hc]
      conv at hfirst => lhs; rw [← cs.takeWhile_append_dropWhile (p := Text.isBlank), ← List.cons_append]
      conv => lhs; rw [← cs.takeWhile_append_dropWhile (p := Text.isBlank), ← List.cons_append]
      exact scan_append (l := ⟨none, c :: cs.takeWhile Text.isBlank⟩) hfirst
    · rw [List.takeWhile_cons_of_neg hc, List.dropWhile_cons_of_neg hc]
      rfl

theorem scan_blank (h : ∀ c ∈ gap, Text.isBlank c) :
    scan file n (gap ++ cs) = scan file (n + Text.size gap) cs := by
  rw [scan_dropWhile file n, scan_dropWhile file (n + Text.size gap), List.takeWhile_append_of_pos h,
    List.dropWhile_append_of_pos h, Text.size_append, Nat.add_assoc]

theorem scan_append_newline (h : (Lexeme.all a).2 = []) : scan file n (a ++ '\n' :: b) =
    ((scan file n a).1 ++ (scan file (n + (Text.size a + 1)) b).1, (scan file (n + (Text.size a + 1)) b).2) := by
  fun_induction Lexeme.all a generalizing n with
  | case1 a hfirst =>
    obtain rfl : a = [] := h
    rw [scan_nil]
    have hgap : ∀ c ∈ ['\n'], Text.isBlank c := List.forall_mem_singleton.2 rfl
    exact scan_blank hgap
  | case2 a l hfirst ls rest hls ih =>
    obtain ⟨hne, tail, rfl⟩ := Lexeme.first?_prefix hfirst
    rw [List.drop_left] at hls ih
    rw [hls] at ih
    by_cases hblank : ∀ c ∈ l.text ++ tail, Text.isBlank c
    · have hgap : ∀ c ∈ l.text ++ tail ++ ['\n'], Text.isBlank c := by
        rw [List.forall_mem_append]
        exact ⟨hblank, List.forall_mem_singleton.2 rfl⟩
      have hnone : scan file n (l.text ++ tail ++ []) = _ := scan_blank hblank
      rw [List.append_nil, scan_nil] at hnone
      rw [hnone, ← List.singleton_append, ← List.append_assoc, scan_blank hgap, Text.size_append]
      rfl
    · have hlater := Lexeme.first?_append_newline hfirst hblank b
      rw [List.append_assoc] at hlater ⊢
      rw [scan_append hlater, scan_append hfirst, ih h, Text.size_append, List.append_assoc]
      simp only [Nat.add_assoc]

theorem scan_add (file : String) (n k : Nat) (cs : List Char) :
    scan file (n + k) cs = ((scan file n cs).1.map (shifted k), (scan file n cs).2) := by
  rw [scan, scan, Lexeme.tokens_add]

/-- Two sources with a line break between them: the tokens of both, in this order. -/
theorem ofSource_newline {a b : String} {ta tb : List Token} (ha : ofSource file a = .ok ta)
    (hb : ofSource file b = .ok tb) :
    ofSource file (a ++ "\n" ++ b) = .ok (ta.dropLast ++ tb.map (shifted (a.utf8ByteSize + 1))) := by
  obtain ⟨wa, hscan, rfl⟩ := ofSource_eq_ok_scan.1 ha
  obtain ⟨wb, hscan', rfl⟩ := ofSource_eq_ok_scan.1 hb
  have hrest : (Lexeme.all a.toList).2 = [] := congrArg Prod.snd hscan
  have hseam : scan file 0 (a.toList ++ '\n' :: b.toList) = _ := scan_append_newline hrest
  rw [scan_add, hscan, hscan', Text.size_toList] at hseam
  refine ofSource_eq_ok_scan.2 ⟨wa ++ wb.map (shifted (a.utf8ByteSize + 1)), ?_, ?_⟩
  · rwa [String.toList_append, String.toList_append, List.append_assoc]
  · have hsize : (a ++ "\n" ++ b).utf8ByteSize = b.utf8ByteSize + (a.utf8ByteSize + 1) := by
      rw [String.utf8ByteSize_append, String.utf8ByteSize_append, Nat.add_comm]
      rfl
    rw [List.dropLast_concat, List.map_append, List.append_assoc, List.map_singleton, shifted_endOfInput, hsize]

/-- A token's text alone is that token. -/
theorem ofSource_text {t : Token} (h : t ∈ (scan file n cs).1) (file' : String) : ofSource file' t.text =
    .ok [⟨t.kind, t.text, .ofLength file' 0 t.text.utf8ByteSize⟩, .endOfInput file' t.text.utf8ByteSize] := by
  obtain ⟨l, hl, hkind, htext⟩ := Lexeme.exists_of_mem_tokens h
  have hall := Lexeme.all_text (Lexeme.first?_text _ l hl)
  apply ofSource_eq_ok.2
  rw [← htext, ← Text.size_toList, String.toList_ofList, hall, Lexeme.tokens_cons, Lexeme.token?, hkind]
  exact ⟨rfl, rfl⟩

/-- Texts of single tokens, each on a line, are the tokens in this order. -/
theorem ofSource_intercalate (file : String) (ts : List Token) (h : ∀ t ∈ ts, ∃ span span' : Span,
      ofSource file t.text = .ok [⟨t.kind, t.text, span⟩, ⟨.endOfInput, "EOF", span'⟩]) :
    ∃ ts', ofSource file ("\n".intercalate (ts.map text)) = .ok ts' ∧
      ts'.map word = ts.map word ++ [(.endOfInput, "EOF")] := by
  induction ts with
  | nil => exact ⟨_, ofSource_eq_ok_scan.2 ⟨[], scan_nil file 0, rfl⟩, rfl⟩
  | cons t ts ih =>
    obtain ⟨⟨span, span', ht⟩, hts⟩ := List.forall_mem_cons.1 h
    cases ts with
    | nil =>
      rw [List.map_singleton, String.intercalate_singleton]
      exact ⟨_, ht, rfl⟩
    | cons u us =>
      obtain ⟨ts', hts', hwords⟩ := ih hts
      have hjoin := ofSource_newline ht hts'
      rw [List.map_cons, List.map_cons, String.intercalate_cons_cons, ← List.map_cons]
      refine ⟨_, hjoin, ?_⟩
      rw [List.map_append, map_word_shifted, hwords]
      rfl

end Token

/-- Sources are cut piece by piece: a line break between two sources keeps the tokens of both apart, the text
of a token alone is that token, and the texts of all tokens of a source on lines of their own are the same
kinds with the same texts. Offsets are words, so the shift is one of words. -/
theorem sources_lex_piecewise (file : String) :
    (∀ a b ta tb, Token.ofSource file a = .ok ta → Token.ofSource file b = .ok tb →
      Token.ofSource file (a ++ "\n" ++ b) = .ok (ta.dropLast ++ tb.map (Token.shifted (a.utf8ByteSize + 1)))) ∧
    ∀ source ts, Token.ofSource file source = .ok ts →
      (∀ t ∈ ts, t.kind ≠ .endOfInput → Token.ofSource file t.text = .ok
        [⟨t.kind, t.text, .ofLength file 0 t.text.utf8ByteSize⟩, .endOfInput file t.text.utf8ByteSize]) ∧
      ∃ ts', Token.ofSource file ("\n".intercalate (ts.dropLast.map Token.text)) = .ok ts' ∧
        ts'.map Token.word = ts.map Token.word := by
  refine ⟨fun a b ta tb ha hb => Token.ofSource_newline ha hb, ?_⟩
  intro source ts hts
  obtain ⟨w, hscan, rfl⟩ := Token.ofSource_eq_ok_scan.1 hts
  have htexts : ∀ t ∈ w, Token.ofSource file t.text = .ok
      [⟨t.kind, t.text, .ofLength file 0 t.text.utf8ByteSize⟩, .endOfInput file t.text.utf8ByteSize] := by
    intro t ht
    rw [← show (Token.scan file 0 source.toList).1 = w by rw [hscan]] at ht
    exact Token.ofSource_text ht file
  constructor
  · intro t ht hkind
    rcases List.mem_append.1 ht with ht | ht
    · exact htexts t ht
    · obtain rfl := List.mem_singleton.1 ht
      exact absurd rfl hkind
  · rw [List.dropLast_concat, List.map_append]
    exact Token.ofSource_intercalate file w fun t ht => ⟨_, _, htexts t ht⟩

/-- A number at the end of a source does not become a measure, nor does a line comment go on. -/
theorem sources_lex_piecewise_number :
    let ta : List Token := [⟨.word, "w", .ofLength "a" 0 1⟩, ⟨.colon, ":", .ofLength "a" 1 1⟩,
      ⟨.number .scalar, "1", .ofLength "a" 3 1⟩, .endOfInput "a" 9]
    let tb : List Token := [⟨.word, "px", .ofLength "a" 0 2⟩, .endOfInput "a" 7]
    Token.ofSource "a" "w: 1 // ;" = .ok ta ∧ Token.ofSource "a" "px // F" = .ok tb ∧
      Token.ofSource "a" "w: 1 // ;\npx // F" = .ok (ta.dropLast ++ tb.map (Token.shifted 10)) ∧
      ∃ ts', Token.ofSource "a" "w\n:\n1" = .ok ts' ∧ ts'.map Token.word = ta.map Token.word := by
  intro ta tb
  have ha : Token.ofSource "a" "w: 1 // ;" = .ok ta :=
    Token.ofSource_eq_ok_scan.2 ⟨ta.dropLast, by decide +kernel, by decide +kernel⟩
  have hb : Token.ofSource "a" "px // F" = .ok tb :=
    Token.ofSource_eq_ok_scan.2 ⟨tb.dropLast, by decide +kernel, by decide +kernel⟩
  have hjoined : "w: 1 // ;" ++ "\n" ++ "px // F" = "w: 1 // ;\npx // F" := by decide +kernel
  have hsize : "w: 1 // ;".utf8ByteSize + 1 = 10 := by decide +kernel
  have hlines : "\n".intercalate (ta.dropLast.map Token.text) = "w\n:\n1" := by decide +kernel
  obtain ⟨hseam, hpieces⟩ := sources_lex_piecewise "a"
  have hboth := hseam _ _ ta tb ha hb
  have hagain := (hpieces _ ta ha).2
  rw [hjoined, hsize] at hboth
  rw [hlines] at hagain
  exact ⟨ha, hb, hboth, hagain⟩

end TypedCss
