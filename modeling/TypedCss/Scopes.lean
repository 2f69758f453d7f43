/-!
Nested scopes of variables: the global scope, and one for each rule that is open.

A name is looked up in the innermost scope and then in the global one; scopes between the two are passed
over.
-/

namespace TypedCss

/-- The variables of one scope, the latest first. -/
abbrev Frame (α : Type) := List (String × α)

/-- The scopes of the open rules, innermost first, over the global scope. -/
structure Scopes (α : Type) where
  inner : List (Frame α)
  global : Frame α
  deriving Repr

namespace Scopes

variable {α : Type}

def empty : Scopes α := ⟨[], []⟩

def enter (s : Scopes α) : Scopes α := { s with inner := [] :: s.inner }

/-- Closes the innermost scope; the global one stays. -/
def leave (s : Scopes α) : Scopes α := { s with inner := s.inner.tail }

def depth (s : Scopes α) : Nat := s.inner.length + 1

/-- All scopes, innermost first. -/
def frames (s : Scopes α) : List (Frame α) := s.inner ++ [s.global]

/-- Binds the name in the innermost scope. -/
def declare (name : String) (a : α) (s : Scopes α) : Scopes α :=
  match s.inner with
  | [] => { s with global := (name, a) :: s.global }
  | f :: fs => { s with inner := ((name, a) :: f) :: fs }

def getGlobal? (s : Scopes α) (name : String) : Option α := s.global.lookup name

def resolve? (s : Scopes α) (name : String) : Option α :=
  ((s.inner.headD s.global).lookup name).or (s.getGlobal? name)

/-- The innermost binding of the name that passes the test, whichever scope it is in. -/
def find? (s : Scopes α) (name : String) (test : α → Bool) : Option α :=
  s.frames.findSome? fun f => (f.lookup name).filter test

theorem depth_leave (s : Scopes α) : s.leave.depth = max 1 (s.depth - 1) := by
  simp only [leave, depth, List.length_tail]
  omega

/-- The scopes that are open around one more. -/
theorem depth_leave_eq {β : Type} {s : Scopes α} {outer : Scopes β} (h : s.depth = outer.depth + 1) :
    s.leave.depth = outer.depth := by
  have hpos : 1 ≤ outer.depth := Nat.le_add_left 1 _
  rw [depth_leave, h]
  omega

@[simp] theorem depth_declare (s : Scopes α) (name : String) (a : α) :
    (s.declare name a).depth = s.depth := by
  unfold declare
  split <;> simp_all [depth]

/-- A name that resolves is bound in one of the scopes. -/
theorem exists_frame_of_resolve? {s : Scopes α} {name : String} {a : α} (h : s.resolve? name = some a) :
    ∃ f ∈ s.frames, f.lookup name = some a := by
  have hglobal : s.global ∈ s.frames := List.mem_append_right _ List.mem_cons_self
  rcases Option.or_eq_some_iff.1 h with h | ⟨-, h⟩
  · cases hi : s.inner with
    | nil => exact ⟨s.global, hglobal, by simpa [hi] using h⟩
    | cons f fs => exact ⟨f, by simp [frames, hi], by simpa [hi] using h⟩
  · exact ⟨s.global, hglobal, h⟩

theorem exists_frame_of_find? {s : Scopes α} {name : String} {test : α → Bool} {a : α}
    (h : s.find? name test = some a) : (∃ f ∈ s.frames, f.lookup name = some a) ∧ test a := by
  obtain ⟨f, hf, ha⟩ := List.exists_of_findSome?_eq_some h
  obtain ⟨ha, htest⟩ := Option.filter_eq_some_iff.1 ha
  exact ⟨⟨f, hf, ha⟩, htest⟩

theorem find?_eq_none {s : Scopes α} {name : String} {test : α → Bool} :
    s.find? name test = none ↔ ∀ f ∈ s.frames, ∀ a, f.lookup name = some a → test a = false := by
  simp only [find?, List.findSome?_eq_none_iff, Option.filter_eq_none_iff, Bool.not_eq_true]

end Scopes

end TypedCss
