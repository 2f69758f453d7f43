import TypedCss.Fault
import TypedCss.Text.Size
import TypedCss.Token.Lexeme

/-!
The tokens of a source text, read one lexeme after the other.
-/

namespace TypedCss

/-- A place in a source text, with what is still to be read. -/
structure Reader where
  file : String
  offset : Nat
  rest : List Char
  deriving DecidableEq, Repr

namespace Reader

/-- The file name of a text that was typed in. -/
def defaultFile : String := "shell"

def ofSource (file? : Option String) (source : String) : Reader :=
  ⟨file?.getD defaultFile, 0, source.toList⟩

def next? (r : Reader) : Option Char := r.rest.head?

def atEnd (r : Reader) : Bool := r.rest.isEmpty

/-- Moves on by `n` bytes. -/
def advance (n : Nat) (r : Reader) : Reader :=
  { r with offset := r.offset + n, rest := Text.dropBytes n r.rest }

/-- The span of the next `n` bytes. -/
def spanOf (n : Nat) (r : Reader) : Span := .ofLength r.file r.offset n

/-- Moves on behind the lexeme. -/
def skip (l : Lexeme) (r : Reader) : Reader := r.advance (Text.size l.text)

theorem append_rest_skip {r : Reader} {l : Lexeme} (h : Lexeme.first? r.rest = some l) :
    l.text ++ (r.skip l).rest = r.rest := by
  obtain ⟨-, after, hafter⟩ := Lexeme.first?_prefix h
  rw [skip, advance, ← hafter, Text.dropBytes_size_append]

theorem length_rest_skip_lt {r : Reader} {l : Lexeme} (h : Lexeme.first? r.rest = some l) :
    (r.skip l).rest.length < r.rest.length := by
  have hpos := List.length_pos_iff.2 (Lexeme.first?_prefix h).1
  rw [← append_rest_skip h, List.length_append]
  omega

/-- The tokens up to the end of the input, which is the last one. A character that begins no lexeme is a fault. -/
def tokens (r : Reader) : Except Fault (List Token) :=
  if r.atEnd then .ok [.endOfInput r.file r.offset]
  else
    match _h : Lexeme.first? r.rest with
    | none => .error ⟨.unrecognised ((r.next?.map String.singleton).getD ""), (r.spanOf 0).start⟩
    | some l => do
      let after ← (r.skip l).tokens
      match l.kind? with
      | none => return after
      | some kind => return ⟨kind, String.ofList l.text, r.spanOf (Text.size l.text)⟩ :: after
termination_by r.rest.length
decreasing_by exact length_rest_skip_lt _h

end Reader

def Token.ofSource (file source : String) : Except Fault (List Token) :=
  (Reader.ofSource (some file) source).tokens

/-- How many bytes the lexemes take together. -/
def Lexeme.size : List Lexeme → Nat
  | [] => 0
  | l :: ls => Text.size l.text + Lexeme.size ls

/-- The tokens among lexemes that follow each other from `offset` on. -/
def Lexeme.tokens (file : String) (offset : Nat) : List Lexeme → List Token
  | [] => []
  | l :: ls =>
    let after := Lexeme.tokens file (offset + Text.size l.text) ls
    match l.kind? with
    | none => after
    | some kind => ⟨kind, String.ofList l.text, .ofLength file offset (Text.size l.text)⟩ :: after

/-- The tokens are those of the lexemes of the text, if nothing is left behind them. -/
theorem Reader.tokens_eq (r : Reader) : r.tokens =
    match (Lexeme.all r.rest).2 with
    | [] => .ok (Lexeme.tokens r.file r.offset (Lexeme.all r.rest).1 ++
        [.endOfInput r.file (r.offset + Lexeme.size (Lexeme.all r.rest).1)])
    | c :: _ => .error ⟨.unrecognised (String.singleton c),
        ⟨UInt32.ofNat (r.offset + Lexeme.size (Lexeme.all r.rest).1), r.file⟩⟩ := by
  fun_induction tokens r with
  | case1 r hend =>
    rw [atEnd, List.isEmpty_iff] at hend
    rw [hend, Lexeme.all_of_none (show Lexeme.first? [] = none by rfl)]
    rfl
  | case2 r hend h =>
    rw [atEnd, List.isEmpty_iff] at hend
    obtain ⟨c, cs, hrest⟩ := List.exists_cons_of_ne_nil hend
    rw [Lexeme.all_of_none h, next?, hrest]
    rfl
  | case3 r hend l h ih =>
    have hrest := append_rest_skip h
    rw [← hrest] at h
    rw [ih, ← hrest, Lexeme.all_append h]
    cases (Lexeme.all (r.skip l).rest).2 with
    | nil =>
      simp only [Lexeme.tokens, Lexeme.size, ← Nat.add_assoc]
      cases l.kind? <;> rfl
    | cons c cs =>
      simp only [Lexeme.size, ← Nat.add_assoc]
      rfl

theorem Token.ofSource_eq (file source : String) : Token.ofSource file source =
    match (Lexeme.all source.toList).2 with
    | [] => .ok (Lexeme.tokens file 0 (Lexeme.all source.toList).1 ++
        [.endOfInput file (Lexeme.size (Lexeme.all source.toList).1)])
    | c :: _ => .error ⟨.unrecognised (String.singleton c),
        ⟨UInt32.ofNat (Lexeme.size (Lexeme.all source.toList).1), file⟩⟩ := by
  rw [ofSource, Reader.tokens_eq]
  simp only [Reader.ofSource, Option.getD_some, Nat.zero_add]

end TypedCss
