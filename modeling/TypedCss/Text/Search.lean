/-!
Looking for a word in a text, and taking words off its end.
-/

namespace TypedCss.Text

/-- Whether the word stands somewhere in the text. -/
def mentions (word : List Char) : List Char → Bool
  | [] => word.isEmpty
  | c :: cs => word.isPrefixOf (c :: cs) || mentions word cs

theorem mentions_iff (word cs : List Char) : mentions word cs ↔ word <:+: cs := by
  induction cs with
  | nil => simp [mentions]
  | cons c cs ih => simp [mentions, ih, List.infix_cons_iff]

/-- The text without the copies of the word at its front. -/
def dropCopies (word cs : List Char) : List Char :=
  if _h : word ≠ [] ∧ word.isPrefixOf cs then dropCopies word (cs.drop word.length) else cs
termination_by cs.length
decreasing_by
  have := List.IsPrefix.length_le (List.isPrefixOf_iff_prefix.1 _h.2)
  have := List.length_pos_iff.2 _h.1
  simp
  omega

/-- The text without the copies of the word at its end. -/
def dropEndCopies (word cs : List Char) : List Char := (dropCopies word.reverse cs.reverse).reverse

theorem dropCopies_append {word : List Char} (h : word ≠ []) (cs : List Char) :
    dropCopies word (word ++ cs) = dropCopies word cs := by
  have hpre : word ≠ [] ∧ word.isPrefixOf (word ++ cs) :=
    ⟨h, List.isPrefixOf_iff_prefix.2 (List.prefix_append word cs)⟩
  rw [dropCopies, dif_pos hpre, List.drop_left]

theorem dropCopies_of_not_prefix {word cs : List Char} (h : ¬ word <+: cs) : dropCopies word cs = cs := by
  rw [dropCopies, dif_neg fun hpre => h (List.isPrefixOf_iff_prefix.1 hpre.2)]

/-- A word is taken off the end of a text that did not end with it before. -/
theorem dropEndCopies_append {word cs : List Char} (h : word <:+ cs → word = []) :
    dropEndCopies word (cs ++ word) = cs := by
  rw [dropEndCopies, List.reverse_append]
  by_cases hword : word = []
  · subst hword
    rw [dropCopies, dif_neg fun hpre => hpre.1 rfl, List.reverse_nil, List.nil_append, List.reverse_reverse]
  · have hpre : ¬ word.reverse <+: cs.reverse := by
      intro hpre
      exact hword (h (List.reverse_prefix.1 hpre))
    have hreverse : word.reverse ≠ [] := by simpa using hword
    rw [dropCopies_append hreverse, dropCopies_of_not_prefix hpre, List.reverse_reverse]

end TypedCss.Text
