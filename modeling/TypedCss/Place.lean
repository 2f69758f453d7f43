/-!
Places in source texts: byte offsets in named files, and the spans between two of them.
-/

namespace TypedCss

/-- A byte offset in a named file. Offsets are 32-bit words. -/
structure Position where
  offset : UInt32
  file : String
  deriving DecidableEq, Repr, Inhabited

/-- The place of what was not read from any source. -/
def Position.nowhere : Position := ⟨0, "<null>"⟩

def Position.text (p : Position) : String := p.file ++ ":" ++ toString p.offset.toNat

/-- From `start` up to, and not including, `stop`. -/
structure Span where
  start : Position
  stop : Position
  deriving DecidableEq, Repr, Inhabited

def Span.nowhere : Span := ⟨.nowhere, .nowhere⟩

/-- The span of `length` bytes from `offset` on. Offsets past the last 32-bit word start again at 0. -/
def Span.ofLength (file : String) (offset length : Nat) : Span :=
  ⟨⟨UInt32.ofNat offset, file⟩, ⟨UInt32.ofNat (offset + length), file⟩⟩

end TypedCss
