import TypedCss.Scopes

/-!
# Scopes under a map of their contents

`Scopes.map f` keeps the frames and the names and applies `f` to everything bound. All operations on
scopes commute with it, so two passes that keep scopes of their own can be compared by one equation.
-/

namespace TypedCss

variable {α β : Type}

theorem lookup_map_snd (f : α → β) (frame : Frame α) (name : String) :
    List.lookup name (frame.map (Prod.map id f)) = (List.lookup name frame).map f := by
  induction frame with
  | nil => rfl
  | cons b bs ih =>
    rw [List.map_cons, List.lookup_cons, List.lookup_cons, ih]
    by_cases h : name = b.1
    · simp [h]
    · simp [beq_false_of_ne h]

namespace Scopes

/-- The same scopes with `f` applied to everything bound in them. -/
def map (f : α → β) (s : Scopes α) : Scopes β :=
  ⟨s.inner.map (List.map (Prod.map id f)), s.global.map (Prod.map id f)⟩

@[simp] theorem enter_map (f : α → β) (s : Scopes α) : (s.map f).enter = s.enter.map f := rfl

@[simp] theorem leave_map (f : α → β) (s : Scopes α) : (s.map f).leave = s.leave.map f := by
  unfold leave map
  rw [List.map_tail]

@[simp] theorem declare_map (f : α → β) (s : Scopes α) (name : String) (a : α) :
    (s.map f).declare name (f a) = (s.declare name a).map f := by
  rcases s with ⟨inner, global⟩
  cases inner <;> rfl

@[simp] theorem resolve?_map (f : α → β) (s : Scopes α) (name : String) :
    (s.map f).resolve? name = (s.resolve? name).map f := by
  rcases s with ⟨inner, global⟩
  cases inner with
  | nil => simp [resolve?, map, getGlobal?, lookup_map_snd]
  | cons frame frames => simp [resolve?, map, getGlobal?, lookup_map_snd, Option.map_or]

end Scopes

end TypedCss
