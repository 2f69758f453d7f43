import TypedCss.Fault
import TypedCss.Token

/-!
Reading tokens one by one.
-/

namespace TypedCss.Grammar

/-- The tokens still to be read. Once they are used up, the last token of the source is read for ever. -/
structure Stream where
  rest : List Token
  last : Token
  deriving DecidableEq, Repr

namespace Stream

def ofTokens (file : String) (ts : List Token) : Stream := ⟨ts, ts.getLastD (.endOfInput file 0)⟩

def current (s : Stream) : Token := s.rest.headD s.last

/-- The kind of the token after the current one. -/
def nextKind (s : Stream) : Kind := (s.rest[1]?.map Token.kind).getD .endOfInput

def advance (s : Stream) : Stream := { s with rest := s.rest.tail }

/-- Enough rounds for the tokens that are left: of any two nested rounds, at least one reads a token. -/
def budget (s : Stream) : Nat := 2 * s.rest.length + 8

end Stream

/-- A step that reads tokens. A fault leaves the stream where it arose. -/
abbrev Parse := EStateM Fault Stream

namespace Parse

def current : Parse Token := return (← get).current

def currentKind : Parse Kind := return (← get).current.kind

def position : Parse Position := return (← get).current.span.start

/-- Reads the current token. -/
def advance : Parse Token := do
  let t ← current
  modify Stream.advance
  return t

/-- The fault that the given token cannot stand where it is. -/
def unexpectedToken (t : Token) : Fault := ⟨.unexpected t.text, t.span.start⟩

/-- The fault that the current token cannot stand here, with a message on what could. -/
def misplaced (s : Stream) (message : String) : Fault :=
  ⟨.misplaced s.current.text message, s.current.span.start⟩

def failAt {α : Type} (t : Token) : Parse α := throw (unexpectedToken t)

def failWith {α : Type} (message : String) : Parse α := do throw (misplaced (← get) message)

def runaway {α : Type} : Parse α := do throw ⟨.runaway, (← get).current.span.start⟩

/-- Reads a token of the given kind; any other is the given fault. -/
def expectOr (kind : Kind) (fault : Fault) : Parse Token := do
  if (← currentKind) = kind then advance else throw fault

def expect (kind : Kind) : Parse Token := do expectOr kind (unexpectedToken (← current))

/-- Reads a token of the given kind; any other is a fault with a message on what is missing. -/
def expectWith (kind : Kind) (message : String) : Parse Token := do
  expectOr kind (misplaced (← get) message)

variable {α β : Type}

/-- A step and the next one; the fault of the first ends both. -/
theorem bind_apply (p : Parse α) (f : α → Parse β) (s : Stream) :
    (p >>= f) s = match p s with
      | .ok a s => f a s
      | .error fault s => .error fault s := by
  show EStateM.bind p f s = _
  unfold EStateM.bind
  cases p s <;> rfl

theorem bind_eq_ok {p : Parse α} {f : α → Parse β} {s s'' : Stream} {b : β} :
    (p >>= f) s = .ok b s'' ↔ ∃ a s', p s = .ok a s' ∧ f a s' = .ok b s'' := by
  rw [bind_apply]
  cases hp : p s with
  | ok a s' =>
    constructor
    · exact fun hf => ⟨a, s', rfl, hf⟩
    · rintro ⟨_, _, h, hf⟩
      cases h
      exact hf
  | error fault s' => simp

theorem bind_eq_error {p : Parse α} {f : α → Parse β} {s s'' : Stream} {fault : Fault} :
    (p >>= f) s = .error fault s'' ↔
      p s = .error fault s'' ∨ ∃ a s', p s = .ok a s' ∧ f a s' = .error fault s'' := by
  rw [bind_apply]
  cases hp : p s with
  | ok a s' =>
    constructor
    · exact fun hf => .inr ⟨a, s', rfl, hf⟩
    · rintro (h | ⟨_, _, h, hf⟩)
      · cases h
      · cases h
        exact hf
  | error fault' s' => simp

theorem bind_of_ok {p : Parse α} {f : α → Parse β} {a : α} {s s' : Stream} (h : p s = .ok a s') :
    (p >>= f) s = f a s' := by
  rw [bind_apply, h]

@[simp] theorem throw_apply (fault : Fault) (s : Stream) : (throw fault : Parse α) s = .error fault s := rfl

@[simp] theorem get_apply (s : Stream) : (get : Parse Stream) s = .ok s s := rfl

@[simp] theorem current_apply (s : Stream) : current s = .ok s.current s := rfl

@[simp] theorem currentKind_apply (s : Stream) : currentKind s = .ok s.current.kind s := rfl

@[simp] theorem position_apply (s : Stream) : position s = .ok s.current.span.start s := rfl

@[simp] theorem advance_apply (s : Stream) : advance s = .ok s.current s.advance := rfl

@[simp] theorem failWith_apply (message : String) (s : Stream) :
    (failWith message : Parse α) s = .error (misplaced s message) s := rfl

theorem expectOr_apply (kind : Kind) (fault : Fault) (s : Stream) :
    expectOr kind fault s = if s.current.kind = kind then .ok s.current s.advance else .error fault s := by
  unfold expectOr
  simp only [bind_apply, currentKind_apply]
  split <;> rfl

theorem expect_apply (kind : Kind) (s : Stream) :
    expect kind s =
      if s.current.kind = kind then .ok s.current s.advance else .error (unexpectedToken s.current) s := by
  unfold expect
  simp only [bind_apply, current_apply, expectOr_apply]

theorem expectWith_apply (kind : Kind) (message : String) (s : Stream) :
    expectWith kind message s =
      if s.current.kind = kind then .ok s.current s.advance else .error (misplaced s message) s := by
  unfold expectWith
  exact expectOr_apply kind _ s

theorem expectOr_eq_ok {kind : Kind} {fault : Fault} {t : Token} {s s' : Stream} :
    expectOr kind fault s = .ok t s' ↔ s.current.kind = kind ∧ s.current = t ∧ s.advance = s' := by
  rw [expectOr_apply]
  by_cases h : s.current.kind = kind
  · simp [h]
  · simp [h]

theorem expect_eq_ok {kind : Kind} {t : Token} {s s' : Stream} :
    expect kind s = .ok t s' ↔ s.current.kind = kind ∧ s.current = t ∧ s.advance = s' := by
  unfold expect
  rw [bind_of_ok (current_apply s), expectOr_eq_ok]

theorem expectWith_eq_ok {kind : Kind} {message : String} {t : Token} {s s' : Stream} :
    expectWith kind message s = .ok t s' ↔ s.current.kind = kind ∧ s.current = t ∧ s.advance = s' := by
  unfold expectWith
  exact expectOr_eq_ok

end Parse

end TypedCss.Grammar
