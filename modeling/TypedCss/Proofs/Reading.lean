import TypedCss.Proofs.Spelling

/-!
# Reading tokens

`s.Reads w s'` says that the stream `s` goes on with the tokens `w`, all of which can be read, and then as
`s'`. What the parser reads and what a derivation covers are both stated by it.
-/

namespace TypedCss

/-- Whether every token of the kind can be read, whatever its text. -/
def Kind.isFixed : Kind → Bool
  | .endOfInput | .number _ => false
  | _ => true

theorem Token.fits_of_isFixed {t : Token} (h : t.kind.isFixed) : t.Fits := by
  intro m hm
  rw [hm] at h
  cases h

namespace Grammar

namespace Stream

/-- All tokens up to the end of the input are spelled as their kinds demand. -/
structure IsSpelled (s : Stream) : Prop where
  tokens : ∀ t ∈ s.rest, t.kind ≠ .endOfInput → t.IsSpelled
  last : s.last.kind = .endOfInput

structure Reads (s : Stream) (w : List Token) (s' : Stream) : Prop where
  eq : s = ⟨w ++ s'.rest, s'.last⟩
  fits : ∀ t ∈ w, t.Fits
  ne_end : ∀ t ∈ w, t.kind ≠ .endOfInput

variable {s s' s'' : Stream} {t : Token} {v w : List Token}

theorem cons_advance (hs : s.IsSpelled) (h : s.current.kind ≠ .endOfInput) :
    s = ⟨s.current :: s.advance.rest, s.advance.last⟩ := by
  obtain ⟨rest, last⟩ := s
  cases rest with
  | nil => exact absurd hs.last h
  | cons t ts => rfl

theorem IsSpelled.current (hs : s.IsSpelled) (h : s.current.kind ≠ .endOfInput) : s.current.IsSpelled := by
  have hmem : s.current ∈ s.rest := by
    rw [cons_advance hs h]
    exact List.mem_cons_self
  exact hs.tokens _ hmem h

namespace Reads

theorem nil (s : Stream) : s.Reads [] s := ⟨rfl, by simp, by simp⟩

theorem append (h : s.Reads v s') (h' : s'.Reads w s'') : s.Reads (v ++ w) s'' := by
  refine ⟨?_, List.forall_mem_append.2 ⟨h.fits, h'.fits⟩, List.forall_mem_append.2 ⟨h.ne_end, h'.ne_end⟩⟩
  rw [h.eq, h'.eq, List.append_assoc]

theorem cons (h : s.Reads [t] s') (h' : s'.Reads w s'') : s.Reads (t :: w) s'' := h.append h'

theorem current (hs : s.IsSpelled) (hend : s.current.kind ≠ .endOfInput) (hfits : s.current.Fits) :
    s.Reads [s.current] s.advance :=
  ⟨cons_advance hs hend, by simpa using hfits, by simpa using hend⟩

theorem current_of_kind {kind : Kind} (hs : s.IsSpelled) (h : s.current.kind = kind)
    (hfixed : kind.isFixed) : s.Reads [s.current] s.advance := by
  subst h
  refine current hs ?_ (Token.fits_of_isFixed hfixed)
  intro hend
  rw [hend] at hfixed
  cases hfixed

theorem split (h : s.Reads (v ++ w) s'') : ∃ s', s.Reads v s' ∧ s'.Reads w s'' := by
  obtain ⟨hfits, hfits'⟩ := List.forall_mem_append.1 h.fits
  obtain ⟨hend, hend'⟩ := List.forall_mem_append.1 h.ne_end
  refine ⟨⟨w ++ s''.rest, s''.last⟩, ⟨?_, hfits, hend⟩, ⟨rfl, hfits', hend'⟩⟩
  rw [h.eq, List.append_assoc]

theorem current_eq (h : s.Reads (t :: w) s') : s.current = t := by
  rw [h.eq]
  rfl

theorem current_eq_headD (h : s.Reads w s') : s.current = w.headD s'.current := by
  rw [h.eq]
  cases w <;> rfl

theorem advance (h : s.Reads (t :: w) s') : s.advance.Reads w s' := by
  refine ⟨?_, (List.forall_mem_cons.1 h.fits).2, (List.forall_mem_cons.1 h.ne_end).2⟩
  rw [h.eq]
  rfl

theorem nextKind_eq {u : Token} (h : s.Reads (t :: u :: w) s') : s.nextKind = u.kind := by
  rw [h.eq]
  rfl

theorem eq_of_nil (h : s.Reads [] s') : s = s' := h.eq

theorem advance_eq (h : s.Reads [t] s') : s.advance = s' := h.advance.eq_of_nil

theorem isSpelled (h : s.Reads w s') (hs : s.IsSpelled) : s'.IsSpelled := by
  rw [h.eq] at hs
  exact ⟨fun t ht => hs.tokens t (List.mem_append_right w ht), hs.last⟩

theorem isSpelled_advance (h : s.Reads (t :: w) s') (hs : s.IsSpelled) : s.advance.IsSpelled := by
  obtain ⟨s₁, hfirst, -⟩ := (List.singleton_append ▸ h : s.Reads ([t] ++ w) s').split
  rw [hfirst.advance_eq]
  exact hfirst.isSpelled hs

end Reads

end Stream

end Grammar

end TypedCss
