import TypedCss.Token.Lexeme

/-!
# Patterns as languages

A pattern describes a language of texts. It fits where a text of its language stands and takes the longest
one; only a block comment takes the shortest one, which ends with the first mark that closes it.
-/

namespace TypedCss

/-- A run at the front of a text is no longer than the whole run there. -/
theorem prefix_takeWhile {α : Type} {p : α → Bool} {run xs : List α} (hrun : ∀ a ∈ run, p a)
    (h : run <+: xs) : run <+: xs.takeWhile p := by
  obtain ⟨rest, rfl⟩ := h
  rw [List.takeWhile_append_of_pos hrun]
  exact List.prefix_append run _

theorem throughCommentEnd?_ends {cs text : List Char} (h : throughCommentEnd? cs = some text) :
    ∃ body, text = body ++ ['*', '/'] := by
  fun_induction throughCommentEnd? cs generalizing text with
  | case1 => cases h
  | case2 rest =>
    obtain rfl := Option.some.inj h
    exact ⟨[], rfl⟩
  | case3 c cs _ ih =>
    obtain ⟨tail, htail, rfl⟩ := Option.map_eq_some_iff.1 h
    obtain ⟨body, rfl⟩ := ih htail
    exact ⟨c :: body, rfl⟩

/-- Where a comment is closed at all, it is closed by the first mark. -/
theorem throughCommentEnd?_shortest {body cs : List Char} (h : body ++ ['*', '/'] <+: cs) :
    ∃ text, throughCommentEnd? cs = some text ∧ text <+: body ++ ['*', '/'] := by
  fun_induction throughCommentEnd? cs generalizing body with
  | case1 => simp at h
  | case2 rest =>
    refine ⟨_, rfl, ?_⟩
    rcases body with _ | ⟨c, _ | ⟨c', body⟩⟩
    · exact List.prefix_rfl
    · simp at h
    · rw [List.cons_append, List.cons_append, List.cons_prefix_cons, List.cons_prefix_cons] at h
      obtain ⟨rfl, rfl, -⟩ := h
      exact List.prefix_append ['*', '/'] _
  | case3 c cs hc ih =>
    cases body with
    | nil =>
      obtain ⟨rest, hrest⟩ := h
      obtain ⟨rfl, rfl⟩ := List.cons.inj hrest
      exact absurd rfl (hc rest rfl)
    | cons b body =>
      rw [List.cons_append, List.cons_prefix_cons] at h
      obtain ⟨rfl, h⟩ := h
      obtain ⟨text, htext, hshort⟩ := ih h
      exact ⟨b :: text, by rw [htext]; rfl, List.cons_prefix_cons.2 ⟨rfl, hshort⟩⟩

/-- Digits end before the suffix of a measure, unless it is empty. -/
theorem Measure.suffix_ends_digits (m : Measure) {run : List Char} (hrun : ∀ c ∈ run, c.isDigit)
    (rest : List Char) :
    run ++ m.suffix.toList <+: (run ++ (m.suffix.toList ++ rest)).takeWhile Char.isDigit ++ m.suffix.toList ∧
      m.suffix.toList <+: (run ++ (m.suffix.toList ++ rest)).dropWhile Char.isDigit := by
  rw [List.takeWhile_append_of_pos hrun, List.dropWhile_append_of_pos hrun, List.append_assoc,
    List.prefix_append_right_inj]
  cases m with
  | percentage | pixel => exact ⟨List.prefix_rfl, List.prefix_append _ _⟩
  | scalar => exact ⟨List.nil_prefix, List.nil_prefix⟩

namespace Pattern

/-- The texts that a pattern describes. -/
def Spells : Pattern → List Char → Prop
  | blank, text => text ≠ [] ∧ ∀ c ∈ text, Text.isBlank c
  | lineComment, text => ∃ body, '\n' ∉ body ∧ text = '/' :: '/' :: body
  | blockComment, text => ∃ body, text = '/' :: '*' :: (body ++ ['*', '/'])
  | number m, text =>
    ∃ digits : List Char, digits ≠ [] ∧ (∀ c ∈ digits, c.isDigit) ∧ text = digits ++ m.suffix.toList
  | hash, text => ∃ word, word ≠ [] ∧ (∀ c ∈ word, isWordChar c) ∧ text = '#' :: word
  | className, text =>
    ∃ c word, (c.isAlpha || c == '_') ∧ (∀ c ∈ word, isWordChar c) ∧ text = '.' :: c :: word
  | capitalised, text => ∃ c word, c.isUpper ∧ (∀ c ∈ word, isNameChar c) ∧ text = c :: word
  | lowerCase, text => ∃ c word, c.isLower ∧ (∀ c ∈ word, isWordChar c) ∧ text = c :: word
  | assign, text => text = [':', '=']
  | mark c _, text => text = [c]

/-- Of two texts at the same place, the pattern does not take the second when it could take the first. -/
def Prefers : Pattern → List Char → List Char → Prop
  | blockComment, text, other => text <+: other
  | _, text, other => other <+: text

variable {p : Pattern} {cs text other : List Char}

theorem spells_of_match? (h : p.match? cs = some text) : p.Spells text := by
  unfold match? at h
  split at h <;> (try split at h) <;>
    simp only [Option.map_eq_some_iff, Option.some.injEq, reduceCtorEq] at h
  case h_1.isTrue c cs hc =>
    subst h
    exact ⟨by simp, List.forall_mem_cons.2 ⟨hc, List.all_eq_true.1 List.all_takeWhile⟩⟩
  case h_2 cs =>
    subst h
    refine ⟨_, fun hmem => ?_, rfl⟩
    simpa using List.all_eq_true.1 List.all_takeWhile _ hmem
  case h_3 cs =>
    obtain ⟨tail, htail, rfl⟩ := h
    obtain ⟨body, rfl⟩ := throughCommentEnd?_ends htail
    exact ⟨body, rfl⟩
  case h_4.isTrue m c cs hc =>
    subst h
    exact ⟨_, by simp, List.forall_mem_cons.2 ⟨hc.1, List.all_eq_true.1 List.all_takeWhile⟩, rfl⟩
  case h_5.isTrue c cs hc =>
    subst h
    exact ⟨_, by simp, List.forall_mem_cons.2 ⟨hc, List.all_eq_true.1 List.all_takeWhile⟩, rfl⟩
  case h_6.isTrue c cs hc =>
    subst h
    exact ⟨_, _, hc, List.all_eq_true.1 List.all_takeWhile, rfl⟩
  case h_7.isTrue c cs hc =>
    subst h
    exact ⟨_, _, hc, List.all_eq_true.1 List.all_takeWhile, rfl⟩
  case h_8.isTrue c cs hc =>
    subst h
    exact ⟨_, _, hc, List.all_eq_true.1 List.all_takeWhile, rfl⟩
  case h_9 => exact h.symm
  case h_10.isTrue c kind cs hc =>
    subst hc
    exact h.symm

/-- Where a text of the pattern stands, the pattern takes a text that it prefers to it. -/
theorem exists_match?_of_spells (h : p.Spells other) (hother : other <+: cs) :
    ∃ text, p.match? cs = some text ∧ p.Prefers text other := by
  cases p with
  | blank =>
    obtain ⟨hne, hblank⟩ := h
    obtain ⟨c, run, rfl⟩ := List.exists_cons_of_ne_nil hne
    obtain ⟨hc, hrun⟩ := List.forall_mem_cons.1 hblank
    obtain ⟨rest, rfl⟩ := hother
    refine ⟨_, if_pos hc, List.cons_prefix_cons.2 ⟨rfl, ?_⟩⟩
    exact prefix_takeWhile hrun (List.prefix_append run rest)
  | lineComment =>
    obtain ⟨body, hbody, rfl⟩ := h
    obtain ⟨rest, rfl⟩ := hother
    have hline : ∀ c ∈ body, c != '\n' := fun c hc => bne_iff_ne.2 fun h => hbody (h ▸ hc)
    refine ⟨_, rfl, ?_⟩
    exact (List.prefix_append_right_inj ['/', '/']).2 (prefix_takeWhile hline (List.prefix_append body rest))
  | blockComment =>
    obtain ⟨body, rfl⟩ := h
    obtain ⟨rest, rfl⟩ := hother
    obtain ⟨tail, htail, hshort⟩ := throughCommentEnd?_shortest (List.prefix_append (body ++ ['*', '/']) rest)
    refine ⟨'/' :: '*' :: tail, congrArg (Option.map _) htail, ?_⟩
    exact (List.prefix_append_right_inj ['/', '*']).2 hshort
  | number m =>
    obtain ⟨digits, hne, hdigits, rfl⟩ := h
    obtain ⟨d, run, rfl⟩ := List.exists_cons_of_ne_nil hne
    obtain ⟨hd, hrun⟩ := List.forall_mem_cons.1 hdigits
    obtain ⟨rest, rfl⟩ := hother
    obtain ⟨htake, hdrop⟩ := m.suffix_ends_digits hrun rest
    rw [List.append_assoc, List.cons_append]
    exact ⟨_, if_pos ⟨hd, List.isPrefixOf_iff_prefix.2 hdrop⟩, List.cons_prefix_cons.2 ⟨rfl, htake⟩⟩
  | hash =>
    obtain ⟨word, hne, hword, rfl⟩ := h
    obtain ⟨c, run, rfl⟩ := List.exists_cons_of_ne_nil hne
    obtain ⟨hc, hrun⟩ := List.forall_mem_cons.1 hword
    obtain ⟨rest, rfl⟩ := hother
    refine ⟨_, if_pos hc, ?_⟩
    exact (List.prefix_append_right_inj ['#', c]).2 (prefix_takeWhile hrun (List.prefix_append run rest))
  | className =>
    obtain ⟨c, run, hc, hrun, rfl⟩ := h
    obtain ⟨rest, rfl⟩ := hother
    refine ⟨_, if_pos hc, ?_⟩
    exact (List.prefix_append_right_inj ['.', c]).2 (prefix_takeWhile hrun (List.prefix_append run rest))
  | capitalised =>
    obtain ⟨c, run, hc, hrun, rfl⟩ := h
    obtain ⟨rest, rfl⟩ := hother
    refine ⟨_, if_pos hc, ?_⟩
    exact (List.prefix_append_right_inj [c]).2 (prefix_takeWhile hrun (List.prefix_append run rest))
  | lowerCase =>
    obtain ⟨c, run, hc, hrun, rfl⟩ := h
    obtain ⟨rest, rfl⟩ := hother
    refine ⟨_, if_pos hc, ?_⟩
    exact (List.prefix_append_right_inj [c]).2 (prefix_takeWhile hrun (List.prefix_append run rest))
  | assign =>
    obtain rfl := h
    obtain ⟨rest, rfl⟩ := hother
    exact ⟨_, rfl, List.prefix_rfl⟩
  | mark c kind =>
    obtain rfl := h
    obtain ⟨rest, rfl⟩ := hother
    exact ⟨_, if_pos rfl, List.prefix_rfl⟩

theorem Spells.ne_nil (h : p.Spells text) : text ≠ [] := by
  rintro rfl
  obtain ⟨text', htext', -⟩ := exists_match?_of_spells h List.prefix_rfl
  obtain ⟨hne, hfront⟩ := match?_prefix htext'
  exact hne (List.prefix_nil.1 hfront)

theorem Prefers.antisymm (h : p.Prefers text other) (h' : p.Prefers other text) : text = other := by
  have hprefix : text <+: other ∧ other <+: text := by
    cases p with
    | blockComment => exact ⟨h, h'⟩
    | _ => exact ⟨h', h⟩
  exact hprefix.1.eq_of_length_le hprefix.2.length_le

/-- `p.Takes cs text`: of the texts of the pattern at the front of `cs`, it takes this one. -/
structure Takes (p : Pattern) (cs text : List Char) : Prop where
  spells : p.Spells text
  front : text <+: cs
  prefers : ∀ other, p.Spells other → other <+: cs → p.Prefers text other

theorem match?_eq_some : p.match? cs = some text ↔ p.Takes cs text := by
  constructor
  · intro h
    obtain ⟨-, hfront⟩ := match?_prefix h
    refine ⟨spells_of_match? h, hfront, ?_⟩
    intro other hspells hother
    obtain ⟨text', htext', hprefers⟩ := exists_match?_of_spells hspells hother
    rw [h] at htext'
    exact Option.some.inj htext' ▸ hprefers
  · intro h
    obtain ⟨text', htext', hprefers⟩ := exists_match?_of_spells h.spells h.front
    obtain ⟨-, hfront⟩ := match?_prefix htext'
    rw [htext', (h.prefers text' (spells_of_match? htext') hfront).antisymm hprefers]

theorem match?_eq_none : p.match? cs = none ↔ ∀ text, p.Spells text → ¬text <+: cs := by
  constructor
  · intro h text hspells hfront
    obtain ⟨text', htext', -⟩ := exists_match?_of_spells hspells hfront
    rw [h] at htext'
    cases htext'
  · intro h
    cases hmatch : p.match? cs with
    | none => rfl
    | some text =>
      obtain ⟨-, hfront⟩ := match?_prefix hmatch
      exact absurd hfront (h text (spells_of_match? hmatch))

/-- A pattern takes the same text where less comes after it. -/
theorem match?_of_front {cs' : List Char} (h : p.match? cs = some text) (hfront : text <+: cs')
    (hcs' : cs' <+: cs) : p.match? cs' = some text := by
  have htakes := match?_eq_some.1 h
  refine match?_eq_some.2 ⟨htakes.spells, hfront, ?_⟩
  intro other hspells hother
  exact htakes.prefers other hspells (hother.trans hcs')

theorem match?_eq_none_of_front {cs' : List Char} (h : p.match? cs = none) (hcs' : cs' <+: cs) :
    p.match? cs' = none := by
  apply match?_eq_none.2
  intro text hspells hfront
  exact match?_eq_none.1 h text hspells (hfront.trans hcs')

end Pattern

namespace Lexeme

variable {cs cs' : List Char} {l : Lexeme}

/-- The lexeme at the front of a text is that of the first pattern that fits. -/
theorem first?_eq_some : first? cs = some l ↔
    ∃ earlier p later, Pattern.inOrder = earlier ++ p :: later ∧ p.match? cs = some l.text ∧
      l.kind? = p.kind? l.text ∧ ∀ q ∈ earlier, q.match? cs = none := by
  rw [first?, List.findSome?_eq_some_iff]
  simp only [Option.map_eq_none_iff, Option.map_eq_some_iff]
  constructor
  · rintro ⟨earlier, p, later, horder, ⟨text, htext, rfl⟩, hearlier⟩
    exact ⟨earlier, p, later, horder, htext, rfl, hearlier⟩
  · rintro ⟨earlier, p, later, horder, htext, hkind, hearlier⟩
    exact ⟨earlier, p, later, horder, ⟨l.text, htext, by rw [← hkind]⟩, hearlier⟩

theorem first?_eq_none : first? cs = none ↔ ∀ p ∈ Pattern.inOrder, p.match? cs = none := by
  rw [first?, List.findSome?_eq_none_iff]
  simp only [Option.map_eq_none_iff]

/-- The front of a text has the same first lexeme, as long as it is not cut short. -/
theorem first?_of_front (h : first? cs = some l) (hfront : l.text <+: cs') (hcs' : cs' <+: cs) :
    first? cs' = some l := by
  obtain ⟨earlier, p, later, horder, htext, hkind, hearlier⟩ := first?_eq_some.1 h
  refine first?_eq_some.2 ⟨earlier, p, later, horder, Pattern.match?_of_front htext hfront hcs', hkind, ?_⟩
  intro q hq
  exact Pattern.match?_eq_none_of_front (hearlier q hq) hcs'

/-- The lexemes of a text without the rest are found again when the rest is cut off. -/
theorem all_flatMap (cs : List Char) : all ((all cs).1.flatMap text) = ((all cs).1, []) := by
  fun_induction all cs with
  | case1 => exact all_of_none (by rfl)
  | case2 cs l h ls rest hls ih =>
    obtain ⟨-, tail, rfl⟩ := first?_prefix h
    rw [List.drop_left] at hls ih
    have hfound : ls.flatMap text ++ rest = tail := by
      rw [← all_flatMap_append tail, hls]
    have hfront : l.text ++ ls.flatMap text <+: l.text ++ tail := by
      rw [← hfound, ← List.append_assoc]
      exact List.prefix_append _ rest
    have hfirst := first?_of_front h (List.prefix_append l.text (ls.flatMap text)) hfront
    rw [hls] at ih
    rw [List.flatMap_cons, all_append hfirst, ih]

end Lexeme

end TypedCss
