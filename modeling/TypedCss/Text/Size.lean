/-!
Sizes of texts in bytes of UTF-8.
-/

namespace TypedCss.Text

/-- How many bytes the text takes. -/
def size : List Char → Nat
  | [] => 0
  | c :: cs => c.utf8Size + size cs

@[simp] theorem size_nil : size [] = 0 := rfl

@[simp] theorem size_cons (c : Char) (cs : List Char) : size (c :: cs) = c.utf8Size + size cs := rfl

@[simp] theorem size_append (a b : List Char) : size (a ++ b) = size a + size b := by
  induction a with
  | nil => simp
  | cons c a ih => simp [ih, Nat.add_assoc]

theorem size_toList (s : String) : size s.toList = s.utf8ByteSize := by
  suffices h : ∀ cs : List Char, cs.utf8Encode.size = size cs by
    rw [← h, String.utf8Encode_toList, String.size_toByteArray]
  intro cs
  induction cs with
  | nil => simp
  | cons c cs ih =>
    rw [List.utf8Encode_cons, ByteArray.size_append, ih, List.utf8Encode_singleton, size_cons]
    simp

/-- What is left of the text after its first `n` bytes. A character that begins before byte `n` is
dropped whole. -/
def dropBytes : Nat → List Char → List Char
  | 0, cs => cs
  | _ + 1, [] => []
  | n + 1, c :: cs => dropBytes (n + 1 - c.utf8Size) cs

theorem dropBytes_size_append (a b : List Char) : dropBytes (size a) (a ++ b) = b := by
  induction a with
  | nil => cases b <;> rfl
  | cons c a ih =>
    obtain ⟨n, hn⟩ : ∃ n, size (c :: a) = n + 1 :=
      ⟨size (c :: a) - 1, by have := c.utf8Size_pos; simp; omega⟩
    rw [hn, List.cons_append, dropBytes, ← hn]
    simpa using ih

end TypedCss.Text
