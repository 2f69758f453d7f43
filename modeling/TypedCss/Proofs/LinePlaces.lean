import TypedCss.Proofs.Carets

/-!
# The line at an offset

Cutting a text after each newline gives its lines, and there is no other way to cut it so. An offset is in the line
before which fewer bytes stand, and in which it does not pass the end; the end of the text is in the last line. Past the
end, and in a text without lines, there is no place.
-/

namespace TypedCss

namespace Text

/-- The pieces are the text, cut after each newline. -/
structure IsCut (cs : List Char) (pieces : List (List Char)) : Prop where
  flatten : pieces.flatten = cs
  ne_nil : ∀ l ∈ pieces, l ≠ []
  newline_last : ∀ l ∈ pieces, '\n' ∉ l.dropLast
  newline_between : ∀ l ∈ pieces.dropLast, l.getLast? = some '\n'

theorem newline_between_lines {cs l : List Char} (h : l ∈ (lines cs).dropLast) : l.getLast? = some '\n' := by
  fun_induction lines cs generalizing l with
  | case1 => cases h
  | case2 cs ih =>
    cases hcs : lines cs with
    | nil => simp [hcs] at h
    | cons l' ls =>
      rw [hcs, List.dropLast_cons_cons, List.mem_cons] at h
      rcases h with rfl | h
      · rfl
      · exact ih (hcs ▸ h)
  | case3 => cases h
  | case4 c cs hc l' ls hl ih =>
    cases ls with
    | nil => cases h
    | cons l'' ls =>
      rw [List.dropLast_cons_cons, List.mem_cons] at h
      rcases h with rfl | h
      · have hl' : l'.getLast? = some '\n' := ih (by rw [hl]; exact List.mem_cons_self)
        rw [List.getLast?_cons, hl']
        rfl
      · exact ih (by rw [hl]; exact List.mem_cons_of_mem l' h)

theorem isCut_lines (cs : List Char) : IsCut cs (lines cs) where
  flatten := flatten_lines cs
  ne_nil _ := ne_nil_of_mem_lines
  newline_last _ := not_mem_dropLast_of_mem_lines
  newline_between _ := newline_between_lines

theorem IsCut.eq_lines {cs : List Char} {pieces : List (List Char)} (h : IsCut cs pieces) : pieces = lines cs := by
  obtain ⟨rfl, hne, hlast, hbetween⟩ := h
  induction pieces with
  | nil => rfl
  | cons l ls ih =>
    rw [List.forall_mem_cons] at hne hlast
    cases ls with
    | nil => rw [List.flatten_singleton, lines_eq_singleton hne.1 hlast.1]
    | cons l' ls =>
      rw [List.dropLast_cons_cons, List.forall_mem_cons] at hbetween
      obtain ⟨xs, rfl⟩ := List.getLast?_eq_some_iff.1 hbetween.1
      rw [List.flatten_cons, List.append_assoc, List.singleton_append, lines_append, lines_eq_singleton hne.1 hlast.1,
        ← ih hne.2 hlast.2 hbetween.2, List.singleton_append]

/-- The line of a place is the one that has the offset when the lines before it are counted off. -/
theorem placeIn_eq_some {number offset : Nat} {ls : List (List Char)} {place : LinePlace} :
    placeIn number offset ls = some place ↔ ∃ before after, ls = before ++ place.line :: after ∧
      place.number = number + before.length ∧ size before.flatten + place.offset = offset ∧
      (place.offset < size place.line ∨ after = [] ∧ place.offset = size place.line) := by
  obtain ⟨n, line, off⟩ := place
  induction ls generalizing number offset with
  | nil => simp [placeIn]
  | cons l ls ih =>
    rw [placeIn]
    split
    case isTrue hin =>
      simp only [Option.some.injEq, LinePlace.mk.injEq]
      constructor
      · rintro ⟨rfl, rfl, rfl⟩
        exact ⟨[], ls, rfl, rfl, Nat.zero_add _, hin⟩
      · rintro ⟨before, after, hls, rfl, rfl, hoff⟩
        cases before with
        | nil =>
          obtain ⟨rfl, rfl⟩ := List.cons.inj hls
          exact ⟨rfl, rfl, Nat.zero_add _⟩
        | cons l' before =>
          -- The offset would have to be in the first line and behind it.
          obtain ⟨rfl, rfl⟩ := List.cons.inj hls
          rw [List.flatten_cons, size_append] at hin
          rcases hin with hin | ⟨hnil, -⟩
          · omega
          · exact absurd hnil (by simp)
    case isFalse hout =>
      have hle : size l ≤ offset := Nat.le_of_not_lt fun hlt => hout (.inl hlt)
      rw [ih]
      constructor
      · rintro ⟨before, after, rfl, hn, hoffset, hoff⟩
        refine ⟨l :: before, after, rfl, ?_, ?_, hoff⟩
        · rw [hn, List.length_cons]
          omega
        · rw [List.flatten_cons, size_append]
          omega
      · rintro ⟨before, after, hls, hn, hoffset, hoff⟩
        cases before with
        | nil =>
          obtain ⟨rfl, rfl⟩ := List.cons.inj hls
          rw [List.flatten_nil, size_nil, Nat.zero_add] at hoffset
          rw [hoffset] at hoff
          exact absurd hoff hout
        | cons l' before =>
          obtain ⟨rfl, rfl⟩ := List.cons.inj hls
          rw [List.length_cons] at hn
          rw [List.flatten_cons, size_append] at hoffset
          exact ⟨before, after, rfl, by omega, by omega, hoff⟩

/-- There is a place up to the end of a text that has a line. -/
theorem placeIn_eq_none {number offset : Nat} {ls : List (List Char)} :
    placeIn number offset ls = none ↔ ls = [] ∨ size ls.flatten < offset := by
  constructor
  · intro hnone
    refine Decidable.or_iff_not_imp_left.2 fun hls => Nat.lt_of_not_le fun hle => ?_
    obtain ⟨place, hplace, -⟩ := exists_placeIn number hls hle
    rw [hnone] at hplace
    cases hplace
  · intro hnone
    rw [Option.eq_none_iff_forall_ne_some]
    intro place hplace
    obtain ⟨before, after, rfl, -, rfl, hoff⟩ := placeIn_eq_some.1 hplace
    simp only [List.append_eq_nil_iff, reduceCtorEq, and_false, List.flatten_append, List.flatten_cons, size_append,
      false_or] at hnone
    omega

theorem lines_eq_nil_iff {cs : List Char} : lines cs = [] ↔ cs = [] := by
  constructor
  · intro hnil
    rw [← flatten_lines cs, hnil, List.flatten_nil]
  · rintro rfl
    rfl

end Text

/-- There is no place past the end of a text, and none in the empty one. Any other offset is in one of the pieces into
which the text is cut after each newline, behind the pieces before it. The end of the text is the end of the last
piece. -/
theorem places_count_lines_and_bytes (content : String) (p : Nat) :
    (∀ pieces, Text.IsCut content.toList pieces ↔ pieces = Text.lines content.toList) ∧
      (Text.placeAt? content p = none ↔ content = "" ∨ content.utf8ByteSize < p) ∧
      ∀ n line off, Text.placeAt? content p = some ⟨n, line, off⟩ ↔
        ∃ before after, Text.lines content.toList = before ++ line :: after ∧ n = before.length + 1 ∧
          Text.size before.flatten + off = p ∧
          if p = content.utf8ByteSize then after = [] ∧ off = Text.size line else off < Text.size line := by
  refine ⟨fun pieces => ⟨Text.IsCut.eq_lines, ?_⟩, ?_, fun n line off => ?_⟩
  · rintro rfl
    exact Text.isCut_lines _
  · rw [Text.placeAt?, Text.placeIn_eq_none, Text.flatten_lines, Text.lines_eq_nil_iff, Text.size_toList,
      String.toList_eq_nil_iff]
  · rw [Text.placeAt?, Text.placeIn_eq_some]
    refine exists_congr fun before => exists_congr fun after => and_congr_right fun hlines => ?_
    have hsize : content.utf8ByteSize = Text.size before.flatten + (Text.size line + Text.size after.flatten) := by
      rw [← Text.size_toList, ← Text.flatten_lines content.toList, hlines]
      simp
    rw [Nat.add_comm 1]
    dsimp only
    refine and_congr_right fun _ => and_congr_right fun hp => ?_
    split
    case isTrue hend =>
      refine ⟨fun hoff => hoff.resolve_left ?_, .inr⟩
      omega
    case isFalse hend =>
      refine ⟨fun hoff => hoff.resolve_right ?_, .inl⟩
      rintro ⟨rfl, rfl⟩
      exact hend (by rw [hsize, ← hp]; rfl)

/-- A line that is empty, and the end of a text that ends with a newline. -/
example : Text.placeAt? "é\n\nb\n" 3 = some ⟨2, ['\n'], 0⟩ ∧
    Text.placeAt? "é\n\nb\n" 6 = some ⟨3, ['b', '\n'], 2⟩ := by
  decide +kernel

end TypedCss
