import TypedCss.Compile

/-!
# Where the caret stands

A report ends with a line of the source, as it is printed, and a line with a caret. The number of characters before the
caret is that of the characters that are printed before the place in the line, and one more for each byte that these
take beyond the first. So the caret is below the place if and only if no longer character comes before it in the line.
-/

namespace TypedCss

namespace Text

section Sizes

variable {cs : List Char}

theorem length_le_size (cs : List Char) : cs.length ≤ size cs := by
  induction cs with
  | nil => exact Nat.le_refl 0
  | cons c cs ih =>
    have hpos := c.utf8Size_pos
    rw [List.length_cons, size_cons]
    omega

/-- A text takes one byte for each character if and only if no character takes more. -/
theorem size_eq_length_iff : size cs = cs.length ↔ ∀ c ∈ cs, c.utf8Size = 1 := by
  induction cs with
  | nil => simp
  | cons c cs ih =>
    have hpos := c.utf8Size_pos
    have hle := length_le_size cs
    rw [List.forall_mem_cons, ← ih, List.length_cons, size_cons]
    omega

theorem eq_nil_of_size_eq_zero (h : size cs = 0) : cs = [] := by
  have hle := length_le_size cs
  exact List.eq_nil_of_length_eq_zero (by omega)

end Sizes

section Indents

/-- The spaces and tabs at the front of a text. -/
def indentation (cs : List Char) : List Char := cs.takeWhile fun c => c == ' ' || c == '\t'

theorem indentation_append_dropIndent (cs : List Char) : indentation cs ++ dropIndent cs = cs :=
  List.takeWhile_append_dropWhile

/-- Spaces and tabs take one byte each. -/
theorem size_indentation (cs : List Char) : size (indentation cs) = indent cs := by
  refine size_eq_length_iff.2 fun c hc => ?_
  have hc := List.all_eq_true.1 List.all_takeWhile c hc
  rcases Bool.or_eq_true_iff.1 hc with h | h <;>
  · rw [beq_iff_eq.1 h]
    rfl

/-- What is at or behind the indentation of a line is so in characters as well as in bytes. -/
theorem exists_of_indent_le {before after : List Char} (h : indent (before ++ after) ≤ size before) :
    ∃ blanks inner, before = blanks ++ inner ∧ blanks.length = indent (before ++ after) ∧
      size blanks = blanks.length ∧ dropIndent (before ++ after) = inner ++ after := by
  have hsize := size_indentation (before ++ after)
  have hsplit := indentation_append_dropIndent (before ++ after)
  rcases List.append_eq_append_iff.1 hsplit with ⟨u, hbefore, hdrop⟩ | ⟨u, hindent, hafter⟩
  · exact ⟨indentation (before ++ after), u, hbefore, rfl, hsize, hdrop⟩
  · have hsize' := hsize
    rw [hindent, size_append] at hsize'
    obtain rfl : u = [] := eq_nil_of_size_eq_zero (by omega)
    rw [List.append_nil] at hindent
    exact ⟨before, [], (List.append_nil before).symm, congrArg List.length hindent.symm, hindent ▸ hsize, hafter.symm⟩

end Indents

section Lines

variable {cs l xs ys : List Char}

/-- A newline only ends a line. -/
theorem not_mem_dropLast_of_mem_lines (h : l ∈ lines cs) : '\n' ∉ l.dropLast := by
  fun_induction lines cs generalizing l with
  | case1 => cases h
  | case2 cs ih =>
    rcases List.mem_cons.1 h with rfl | h
    · exact List.not_mem_nil
    · exact ih h
  | case3 c cs hc hl ih =>
    rw [List.mem_singleton.1 h]
    exact List.not_mem_nil
  | case4 c cs hc l' ls hl ih =>
    rcases List.mem_cons.1 h with rfl | h
    · have hl' := ih (hl ▸ List.mem_cons_self)
      have hne := ne_nil_of_mem_lines (hl ▸ List.mem_cons_self : l' ∈ lines cs)
      rw [List.dropLast_cons_of_ne_nil hne, List.mem_cons]
      rintro (rfl | hmem)
      · exact hc rfl
      · exact hl' hmem
    · exact ih (hl ▸ List.mem_cons_of_mem l' h)

/-- A text that ends with a newline has its own lines, whatever comes after it. -/
theorem lines_append (xs ys : List Char) : lines (xs ++ '\n' :: ys) = lines (xs ++ ['\n']) ++ lines ys := by
  induction xs with
  | nil => rw [List.nil_append, lines, if_pos rfl]; rfl
  | cons c xs ih =>
    rw [List.cons_append, List.cons_append, lines, lines, ih]
    split
    · rfl
    · cases hxs : lines (xs ++ ['\n']) with
      | nil =>
        have hflat := flatten_lines (xs ++ ['\n'])
        rw [hxs] at hflat
        simp at hflat
      | cons l ls => rfl

/-- A text in which a newline stands at most at the end is a line. -/
theorem lines_eq_singleton (hne : xs ≠ []) (h : '\n' ∉ xs.dropLast) : lines xs = [xs] := by
  induction xs with
  | nil => exact absurd rfl hne
  | cons c cs ih =>
    cases cs with
    | nil => by_cases hc : c = '\n' <;> simp [lines, hc]
    | cons d cs =>
      rw [List.dropLast_cons_cons, List.mem_cons, not_or] at h
      rw [lines, if_neg (Ne.symm h.1), ih (List.cons_ne_nil d cs) h.2]

theorem lines_of_not_mem (h : '\n' ∉ xs) : lines (xs ++ ['\n']) = [xs ++ ['\n']] :=
  lines_eq_singleton (List.append_ne_nil_of_right_ne_nil xs (by simp)) (by rwa [List.dropLast_concat])

/-- The white space at the end of a text. -/
def trail (cs : List Char) : List Char := (cs.reverse.takeWhile isBlank).reverse

theorem trimEnd_append_trail (cs : List Char) : trimEnd cs ++ trail cs = cs := by
  rw [trimEnd, trail, ← List.reverse_append, List.takeWhile_append_dropWhile, List.reverse_reverse]

theorem trimEnd_prefix (cs : List Char) : trimEnd cs <+: cs := ⟨trail cs, trimEnd_append_trail cs⟩

/-- Without the white space at its end, a line has no newline. -/
theorem not_mem_trimEnd (h : '\n' ∉ cs.dropLast) : '\n' ∉ trimEnd cs := by
  rcases List.eq_nil_or_concat cs with rfl | ⟨xs, c, rfl⟩
  · exact List.not_mem_nil
  · rw [List.concat_eq_append, List.dropLast_concat] at h
    rw [List.concat_eq_append, trimEnd, List.mem_reverse, List.reverse_append, List.reverse_singleton,
      List.singleton_append, List.dropWhile_cons]
    split
    · intro hmem
      exact h (List.mem_reverse.1 ((List.dropWhile_sublist _).subset hmem))
    · rename_i hblank
      rw [List.mem_cons, List.mem_reverse]
      rintro (rfl | hmem)
      · exact hblank rfl
      · exact h hmem

theorem not_mem_shown_of_mem_lines (h : l ∈ lines cs) : '\n' ∉ trimEnd (dropIndent l) := by
  refine not_mem_trimEnd fun hmem => not_mem_dropLast_of_mem_lines h ?_
  have hsplit := indentation_append_dropIndent l
  have hne : dropIndent l ≠ [] := by
    intro hnil
    rw [hnil] at hmem
    cases hmem
  rw [← hsplit, List.dropLast_append_of_ne_nil hne]
  exact List.mem_append_right _ hmem

/-- A place on a boundary between two characters splits its line there. -/
theorem split_of_placeIn {number offset : Nat} {ls : List (List Char)} {place : LinePlace} {a b : List Char}
    (h : placeIn number offset ls = some place) (hsplit : ls.flatten = a ++ b) (hoffset : offset = size a) :
    place.line ∈ ls ∧ ∃ before after, place.line = before ++ after ∧ before <:+ a ∧ after <+: b ∧
      place.offset = size before := by
  induction ls generalizing number offset a with
  | nil => cases h
  | cons l ls ih =>
    subst hoffset
    rw [placeIn] at h
    rw [List.flatten_cons] at hsplit
    split at h
    case isTrue hin =>
      obtain rfl := Option.some.inj h
      refine ⟨List.mem_cons_self, ?_⟩
      rcases List.append_eq_append_iff.1 hsplit with ⟨u, rfl, hu⟩ | ⟨u, rfl, rfl⟩
      · obtain rfl : u = [] := by
          rw [size_append] at hin
          exact eq_nil_of_size_eq_zero (by omega)
        exact ⟨l, [], (List.append_nil l).symm, by simp, List.nil_prefix, by simp⟩
      · exact ⟨a, u, rfl, List.suffix_rfl, List.prefix_append u _, rfl⟩
    case isFalse hout =>
      obtain ⟨a', rfl⟩ : ∃ a', a = l ++ a' := by
        rcases List.append_eq_append_iff.1 hsplit with ⟨u, rfl, -⟩ | ⟨u, rfl, -⟩
        · exact ⟨u, rfl⟩
        · rw [size_append] at hout
          have hu : u = [] := eq_nil_of_size_eq_zero (by omega)
          exact ⟨[], by simp [hu]⟩
      rw [List.append_assoc] at hsplit
      obtain ⟨hmem, before, after, hline, hbefore, hafter, hplace⟩ :=
        ih h (List.append_cancel_left hsplit) (by simp)
      exact ⟨List.mem_cons_of_mem l hmem, before, after, hline, hbefore.trans (List.suffix_append l a'), hafter, hplace⟩

end Lines

end Text

namespace Report

/-- What is printed in front of the line: its number and a bar. -/
def margin (place : Text.LinePlace) : List Char := place.number.repr.toList ++ [' ', '|', ' ']

/-- The line as it is printed. -/
def printed (place : Text.LinePlace) : List Char := margin place ++ Text.trimEnd (Text.dropIndent place.line)

/-- What is printed before the place, if the line has `before` before it. -/
def front (place : Text.LinePlace) (before : List Char) : List Char :=
  margin place ++ before.drop (Text.indent place.line)

/-- What stands before the caret. -/
def lead (place : Text.LinePlace) : List Char :=
  List.replicate (place.number.repr.length + 1) ' ' ++ ['|', ' '] ++
    List.replicate (place.offset - Text.indent place.line) '-'

variable {place : Text.LinePlace}

theorem caret_not_mem_lead (place : Text.LinePlace) : '^' ∉ lead place := by
  simp [lead]

theorem newline_not_mem_printed {cs : List Char} (h : place.line ∈ Text.lines cs) : '\n' ∉ printed place := by
  have hnumber : '\n' ∉ place.number.repr.toList := by
    rw [Nat.toList_repr]
    intro hmem
    cases Nat.isDigit_of_mem_toDigits (by decide) (by decide) hmem
  have hshown := Text.not_mem_shown_of_mem_lines h
  rw [printed, margin, List.mem_append, List.mem_append]
  rintro ((hmem | hmem) | hmem)
  · exact hnumber hmem
  · exact absurd hmem (by decide)
  · exact hshown hmem

theorem toList_excerpt (place : Text.LinePlace) : (excerpt place).toList =
    List.replicate (place.number.repr.length + 1) ' ' ++ '|' :: '\n' ::
      (printed place ++ '\n' :: (lead place ++ ['^', '\n'])) := by
  have hbar : "|".toList = ['|'] := by decide
  have hmargin : " | ".toList = [' ', '|', ' '] := by decide
  have hnewline : "\n".toList = ['\n'] := by decide
  have hblank : " ".toList = [' '] := by decide
  have hcaret : "^\n".toList = ['^', '\n'] := by decide
  delta excerpt
  simp only [printed, lead, margin, String.toList_append, String.toList_ofList, List.append_assoc, hbar, hmargin,
    hnewline, hblank, hcaret, List.cons_append, List.nil_append]

/-- The last two lines of a report. -/
theorem lines_text (name : String) (tip? : Option String) {position : Position} {source : String}
    (h : Text.placeAt? source position.offset.toNat = some place) (hline : place.line ∈ Text.lines source.toList) :
    ∃ above, Text.lines (text name tip? position source).toList =
      above ++ [printed place ++ ['\n'], lead place ++ ['^', '\n']] := by
  have hprinted := Text.lines_of_not_mem (newline_not_mem_printed hline)
  have hlead : '\n' ∉ lead place ++ ['^'] := by simp [lead]
  have hcaret : Text.lines (lead place ++ ['^'] ++ ['\n']) = [lead place ++ ['^', '\n']] := by
    rw [Text.lines_of_not_mem hlead, List.append_assoc, List.singleton_append]
  let intro := (header name tip? position.file).toList ++ (List.replicate (place.number.repr.length + 1) ' ' ++ ['|'])
  have hintro : (text name tip? position source).toList =
      intro ++ '\n' :: (printed place ++ '\n' :: (lead place ++ ['^'] ++ ['\n'])) := by
    simp only [text, h, String.toList_append, toList_excerpt, intro, List.append_assoc, List.cons_append,
      List.nil_append]
  refine ⟨Text.lines (intro ++ ['\n']), ?_⟩
  rw [hintro, Text.lines_append intro, Text.lines_append (printed place), hprinted, hcaret, List.singleton_append]

/-- Before the caret there is one character for each that is printed before the place, and one for each byte that the
characters before it in the line take beyond their first. -/
theorem length_lead {before after : List Char} (hline : place.line = before ++ after)
    (hoffset : place.offset = Text.size before) (hindent : Text.indent place.line ≤ place.offset) :
    margin place ++ Text.dropIndent place.line = front place before ++ after ∧
      (lead place).length = (front place before).length + (Text.size before - before.length) := by
  rw [hline, hoffset] at hindent
  obtain ⟨blanks, inner, rfl, hindent, hsize, hdrop⟩ := Text.exists_of_indent_le hindent
  have hle := Text.length_le_size inner
  rw [front, hline, ← hindent, List.drop_left]
  constructor
  · rw [hdrop, List.append_assoc]
  · rw [lead, hline, hoffset, ← hindent, Text.size_append, hsize]
    simp only [margin, List.length_append, List.length_replicate, List.length_cons, List.length_nil,
      String.length_toList]
    omega

end Report

/-- A report on a place that is at or behind the indentation of its line ends with the line as it is printed and the
line of the caret. The caret is below the place, with as many characters before it as are printed before the place, if
and only if all characters before the place in the line take one byte. -/
theorem carets_stand_below_iff_single_bytes (name : String) (tip? : Option String) {position : Position}
    {source : String} {a b : List Char} {place : Text.LinePlace} (hsource : source.toList = a ++ b)
    (hoffset : position.offset.toNat = Text.size a)
    (hplace : Text.placeAt? source position.offset.toNat = some place)
    (hindent : Text.indent place.line ≤ place.offset) :
    ∃ before after above, place.line = before ++ after ∧ before <:+ a ∧ after <+: b ∧
      Text.lines (Report.text name tip? position source).toList =
        above ++ [Report.printed place ++ ['\n'], Report.lead place ++ ['^', '\n']] ∧
      Report.printed place <+: Report.front place before ++ after ∧ '^' ∉ Report.lead place ∧
      (Report.lead place).length = (Report.front place before).length + (Text.size before - before.length) ∧
      ((Report.lead place).length = (Report.front place before).length ↔ ∀ c ∈ before, c.utf8Size = 1) := by
  have hflat : (Text.lines source.toList).flatten = a ++ b := by rw [Text.flatten_lines, hsource]
  obtain ⟨hmem, before, after, hline, hbefore, hafter, hsize⟩ := Text.split_of_placeIn hplace hflat hoffset
  obtain ⟨above, hlines⟩ := Report.lines_text name tip? hplace hmem
  obtain ⟨hprinted, hlength⟩ := Report.length_lead hline hsize hindent
  have hle := Text.length_le_size before
  refine ⟨before, after, above, hline, hbefore, hafter, hlines, ?_, Report.caret_not_mem_lead place, hlength, ?_⟩
  · rw [← hprinted]
    exact (List.prefix_append_right_inj _).2 (Text.trimEnd_prefix _)
  · rw [hlength, ← Text.size_eq_length_iff]
    omega

/-- The comment has a character of two bytes, so the caret is one too far to the right. -/
theorem carets_stand_below_iff_single_bytes_comment :
    let source := "a \x7b\n\t/* é */ width: X;\n\x7d"
    let a := "a \x7b\n\t/* é */ width: ".toList
    let b := "X;\n\x7d".toList
    let place : Text.LinePlace := ⟨2, "\t/* é */ width: X;\n".toList, 17⟩
    source.toList = a ++ b ∧ Text.size a = 21 ∧ Text.placeAt? source 21 = some place ∧
      Text.indent place.line = 1 ∧
      ∃ before after above, place.line = before ++ after ∧ before <:+ a ∧ after <+: b ∧
        Text.lines (Report.text "UndefinedVariable" none ⟨21, "a"⟩ source).toList =
          above ++ [Report.printed place ++ ['\n'], Report.lead place ++ ['^', '\n']] ∧
        Report.printed place <+: Report.front place before ++ after ∧ '^' ∉ Report.lead place ∧
        (Report.lead place).length = (Report.front place before).length + (Text.size before - before.length) ∧
        ((Report.lead place).length = (Report.front place before).length ↔ ∀ c ∈ before, c.utf8Size = 1) := by
  intro source a b place
  have hsource : source.toList = a ++ b := by decide +kernel
  have hsize : Text.size a = 21 := by decide +kernel
  have hoffset : (⟨21, "a"⟩ : Position).offset.toNat = Text.size a := hsize.symm
  have hplace : Text.placeAt? source 21 = some place := by decide +kernel
  have hindent : Text.indent place.line = 1 := by decide +kernel
  have hle : Text.indent place.line ≤ place.offset := by
    rw [hindent]
    decide
  have hcaret := carets_stand_below_iff_single_bytes "UndefinedVariable" none hsource hoffset hplace hle
  exact ⟨hsource, hsize, hplace, hindent, hcaret⟩

/-- The variable that is reported stands behind a comment with a character of two bytes, and the caret is not below
it. -/
theorem caret_stands_behind_variable_after_two_bytes :
    let source := "/* é */ a \x7b width: X; \x7d"
    let report := match compile "test.icss" source with
      | .ok _ => []
      | .error failure => Text.lines (failure.report source).toList
    let printed := "1 | /* é */ a \x7b width: X; \x7d\n".toList
    let caret := "  | --------------------^\n".toList
    report.drop 3 = [printed, caret] ∧ printed.idxOf 'X' = 23 ∧ caret.idxOf '^' = 24 := by
  decide +kernel

end TypedCss
