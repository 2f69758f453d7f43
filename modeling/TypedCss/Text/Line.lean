import TypedCss.Text.Size

/-!
Lines of a text, and the line at a byte offset.
-/

namespace TypedCss.Text

/-- The lines of a text, each with its newline. The last line may have none, and no line is empty. -/
def lines : List Char → List (List Char)
  | [] => []
  | c :: cs =>
    if c = '\n' then [c] :: lines cs
    else
      match lines cs with
      | [] => [[c]]
      | l :: ls => (c :: l) :: ls

/-- The lines are the text, cut after each newline. -/
theorem flatten_lines (cs : List Char) : (lines cs).flatten = cs := by
  fun_induction lines cs with
  | case1 => rfl
  | case2 cs ih => simp [ih]
  | case3 c cs h hl ih => simpa [hl] using ih
  | case4 c cs h l ls hl ih => simpa [hl] using ih

theorem ne_nil_of_mem_lines {cs l : List Char} (h : l ∈ lines cs) : l ≠ [] := by
  fun_induction lines cs with
  | case1 => simp at h
  | case2 cs ih => grind
  | case3 c cs hc hl ih => grind
  | case4 c cs hc l ls hl ih => grind

/-- A place in a text: the number of its line, counted from 1, the line, and the offset in it. -/
structure LinePlace where
  number : Nat
  line : List Char
  offset : Nat
  deriving DecidableEq, Repr

/-- The place at an offset from the start of the given lines, of which the first has the given number.
The end of the text belongs to the last line. -/
def placeIn (number offset : Nat) : List (List Char) → Option LinePlace
  | [] => none
  | l :: ls =>
    if offset < size l ∨ (ls = [] ∧ offset = size l) then some ⟨number, l, offset⟩
    else placeIn (number + 1) (offset - size l) ls

theorem exists_placeIn (number : Nat) {offset : Nat} {ls : List (List Char)} (hls : ls ≠ [])
    (h : offset ≤ size ls.flatten) : ∃ place, placeIn number offset ls = some place ∧ place.line ∈ ls := by
  induction ls generalizing number offset with
  | nil => exact absurd rfl hls
  | cons l ls ih =>
    rw [placeIn]
    split
    case isTrue => exact ⟨_, rfl, List.mem_cons_self⟩
    case isFalse hlater =>
      rw [List.flatten_cons, size_append] at h
      have hne : ls ≠ [] := by
        rintro rfl
        exact hlater (.inr ⟨rfl, by simp only [List.flatten_nil, size_nil] at h; omega⟩)
      have hrest : offset - size l ≤ size ls.flatten := by omega
      obtain ⟨place, hplace, hline⟩ := ih (number + 1) hne hrest
      exact ⟨place, hplace, List.mem_cons_of_mem l hline⟩

def placeAt? (content : String) (offset : Nat) : Option LinePlace := placeIn 1 offset (lines content.toList)

/-- In a text that is not empty, every offset up to its end has a place. -/
theorem exists_placeAt? {content : String} {offset : Nat} (hne : content ≠ "")
    (h : offset ≤ content.utf8ByteSize) :
    ∃ place, placeAt? content offset = some place ∧ place.line ∈ lines content.toList := by
  have hlines : lines content.toList ≠ [] := by
    intro hnil
    have hflat := flatten_lines content.toList
    rw [hnil, List.flatten_nil] at hflat
    exact hne (String.toList_eq_nil_iff.1 hflat.symm)
  refine exists_placeIn 1 hlines ?_
  rwa [flatten_lines, size_toList]

end TypedCss.Text
