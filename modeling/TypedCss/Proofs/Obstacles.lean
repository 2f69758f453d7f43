import Mathlib.Data.List.Lex
import TypedCss.Proofs.Bare

/-!
# Where writing stops

A rule is not written if something that has not been folded stands in its body or in the if clauses there that hold: the
condition of an if clause, or the value of a declaration. The conditions of the whole body are read before any value, and
the rule before the rules inside it. So the fault is not at the first obstacle in the source, but at the first condition
or else the first value in the first rule that has an obstacle.
-/

namespace TypedCss

/-- The fault that the expression has not been folded. -/
def Expr.unfolded (e : Expr) : Fault := ⟨.unfolded, e.span.start⟩

namespace Stmt

/-- The statements that an if clause gives to the rule around it. -/
def given : Stmt → List Stmt
  | ifClause c body _ => if c.isTrue then body else []
  | _ => []

/-- The statements among which rules are looked for. -/
def entered : Stmt → List Stmt
  | rule _ body _ => body
  | ifClause c body _ => if c.isTrue then body else []
  | _ => []

/-- The statement at an address that starts from the given one, where each step takes a statement inside. -/
def below? (inside : Stmt → List Stmt) (s : Stmt) : List Nat → Option Stmt
  | [] => some s
  | i :: path => (inside s)[i]?.bind fun t => t.below? inside path

/-- The statement at an address whose first entry counts the given ones. -/
def at? (inside : Stmt → List Stmt) (ss : List Stmt) : List Nat → Option Stmt
  | [] => none
  | i :: path => ss[i]?.bind fun s => s.below? inside path

/-- The address comes first: a statement comes before what is inside it, and that before the statements after it. -/
def Precedes : List Nat → List Nat → Prop := List.Lex (· < ·)

/-- The expression is the condition of the if clause, and not a literal. -/
def IsUnfoldedCondition (e : Expr) : Stmt → Prop
  | ifClause c _ _ => c = e ∧ ¬e.IsLiteral
  | _ => False

/-- The expression is the value of the declaration, and not a literal. -/
def IsUnfoldedValue (e : Expr) : Stmt → Prop
  | declaration _ v _ => v = e ∧ ¬e.IsLiteral
  | _ => False

/-- The expression is a part of the statement that is found at the first address where there is such a part. -/
def IsFirst (find? : List Nat → Option Stmt) (IsPart : Expr → Stmt → Prop) (e : Expr) : Prop :=
  ∃ path s, find? path = some s ∧ IsPart e s ∧
    ∀ path', Precedes path' path → ∀ t, find? path' = some t → ∀ e', ¬IsPart e' t

/-- The expression that keeps a rule with this body from being written. -/
inductive Obstacle (body : List Stmt) (e : Expr) : Prop
  | condition (h : IsFirst (at? given body) IsUnfoldedCondition e)
  | value (hnone : ∀ path s, at? given body path = some s → ∀ c, ¬IsUnfoldedCondition c s)
      (h : IsFirst (at? given body) IsUnfoldedValue e)

def IsObstacle (e : Expr) : Stmt → Prop
  | rule _ body _ => Obstacle body e
  | _ => False

theorem eq_of_not_precedes {path path' : List Nat} (h : ¬Precedes path path') (h' : ¬Precedes path' path) :
    path = path' :=
  (List.Lex.trichotomous (· < ·)).trichotomous path path' h h'

theorem Precedes.of_head {path path' : List Nat} (h : Precedes (0 :: path) (0 :: path')) : Precedes path path' :=
  List.lex_cons_iff.1 h

theorem Precedes.of_tail {i j : Nat} {path path' : List Nat} (h : Precedes ((i + 1) :: path) ((j + 1) :: path')) :
    Precedes (i :: path) (j :: path') :=
  List.cons_lex_cons_iff.2 ((List.cons_lex_cons_iff.1 h).imp Nat.lt_of_succ_lt_succ (.imp Nat.succ.inj id))

section

variable {find? head? tail? : List Nat → Option Stmt} {IsPart : Expr → Stmt → Prop} {e e' : Expr} {s : Stmt}

/-- Two first parts are parts of one statement. -/
theorem IsFirst.exists_statement (h : IsFirst find? IsPart e) (h' : IsFirst find? IsPart e') :
    ∃ s, IsPart e s ∧ IsPart e' s := by
  obtain ⟨path, s, hpath, he, hfirst⟩ := h
  obtain ⟨path', s', hpath', he', hfirst'⟩ := h'
  have hle : ¬Precedes path' path := fun hlt => hfirst path' hlt s' hpath' e' he'
  have hle' : ¬Precedes path path' := fun hlt => hfirst' path hlt s hpath e he
  obtain rfl := eq_of_not_precedes hle' hle
  obtain rfl := Option.some.inj (hpath.symm.trans hpath')
  exact ⟨s, he, he'⟩

/-- What is found in one statement and then in those after it. -/
def beside (head? tail? : List Nat → Option Stmt) : List Nat → Option Stmt
  | [] => none
  | 0 :: path => head? path
  | (i + 1) :: path => tail? (i :: path)

theorem at?_cons (inside : Stmt → List Stmt) (s : Stmt) (ss : List Stmt) :
    at? inside (s :: ss) = beside (s.below? inside) (at? inside ss) := by
  funext path
  match path with
  | [] => rfl
  | 0 :: path => rfl
  | (i + 1) :: path => rfl

theorem IsFirst.head (h : IsFirst head? IsPart e) : IsFirst (beside head? tail?) IsPart e := by
  obtain ⟨path, s, hpath, he, hfirst⟩ := h
  refine ⟨0 :: path, s, hpath, he, ?_⟩
  intro path' hlt t ht
  match path' with
  | [] => cases ht
  | 0 :: rest => exact hfirst rest hlt.of_head t ht
  | (i + 1) :: rest => simp [Precedes, List.cons_lex_cons_iff] at hlt

theorem IsFirst.tail (hhead : ∀ path s, head? path = some s → ∀ e, ¬IsPart e s) (hnil : tail? [] = none)
    (h : IsFirst tail? IsPart e) : IsFirst (beside head? tail?) IsPart e := by
  obtain ⟨path, s, hpath, he, hfirst⟩ := h
  cases path with
  | nil =>
    rw [hnil] at hpath
    cases hpath
  | cons i path =>
    refine ⟨(i + 1) :: path, s, hpath, he, ?_⟩
    intro path' hlt t ht
    match path' with
    | [] => cases ht
    | 0 :: rest => exact hhead rest t ht
    | (j + 1) :: rest => exact hfirst (j :: rest) hlt.of_tail t ht

theorem IsFirst.own (inside : Stmt → List Stmt) (h : IsPart e s) : IsFirst (s.below? inside) IsPart e :=
  ⟨[], s, rfl, h, fun _ hlt => absurd hlt List.not_lex_nil⟩

theorem IsFirst.inside {inside : Stmt → List Stmt} (hown : ∀ e, ¬IsPart e s)
    (h : IsFirst (at? inside (inside s)) IsPart e) : IsFirst (s.below? inside) IsPart e := by
  obtain ⟨path, t, hpath, he, hfirst⟩ := h
  cases path with
  | nil => cases hpath
  | cons i path =>
    refine ⟨i :: path, t, hpath, he, ?_⟩
    intro path' hlt u hu
    cases path' with
    | nil =>
      obtain rfl := Option.some.inj hu
      exact hown
    | cons j rest => exact hfirst (j :: rest) hlt u hu

end

/-- The computation ends with the fault of the first part that is found, and goes well if there is none. -/
structure FailsFirst {α : Type} (find? : List Nat → Option Stmt) (IsPart : Expr → Stmt → Prop) (x : Except Fault α) :
    Prop where
  ok : ∀ {a}, x = .ok a → ∀ path s, find? path = some s → ∀ e, ¬IsPart e s
  error : ∀ {fault}, x = .error fault → ∃ e, IsFirst find? IsPart e ∧ fault = e.unfolded

namespace FailsFirst

variable {α β : Type} {find? head? tail? : List Nat → Option Stmt} {IsPart : Expr → Stmt → Prop} {x : Except Fault α}
  {f : α → Except Fault β} {s : Stmt} {fault : Fault} {inside : Stmt → List Stmt}

theorem exists_error_iff (h : FailsFirst find? IsPart x) :
    (∃ fault, x = .error fault) ↔ ∃ path s, find? path = some s ∧ ∃ e, IsPart e s := by
  constructor
  · rintro ⟨fault, hx⟩
    obtain ⟨e, ⟨path, s, hpath, he, -⟩, -⟩ := h.error hx
    exact ⟨path, s, hpath, e, he⟩
  · rintro ⟨path, s, hpath, e, he⟩
    cases hx : x with
    | ok a => exact absurd he (h.ok hx path s hpath e)
    | error fault' => exact ⟨fault', rfl⟩

theorem eq_error_iff (h : FailsFirst find? IsPart x)
    (hpart : ∀ s e e', IsPart e s → IsPart e' s → e.unfolded = e'.unfolded) :
    x = .error fault ↔ ∃ e, IsFirst find? IsPart e ∧ fault = e.unfolded := by
  constructor
  · exact h.error
  · rintro ⟨e, hfirst, rfl⟩
    obtain ⟨path, s, hpath, he, -⟩ := id hfirst
    obtain ⟨fault', hx⟩ := h.exists_error_iff.2 ⟨path, s, hpath, e, he⟩
    obtain ⟨e', hfirst', rfl⟩ := h.error hx
    obtain ⟨t, ht, ht'⟩ := hfirst.exists_statement hfirst'
    rw [hx, hpart t e e' ht ht']

/-- Where nothing is found, nothing fails. -/
theorem of_none (h : ∀ path, find? path = none) (a : α) : FailsFirst find? IsPart (.ok a) where
  ok _ path s hpath := by
    rw [h path] at hpath
    cases hpath
  error h := nomatch h

theorem nil (a : α) : FailsFirst (at? inside []) IsPart (.ok a) :=
  of_none (fun path => by cases path <;> rfl) a

theorem map (g : α → β) (h : FailsFirst find? IsPart x) : FailsFirst find? IsPart (do return g (← x)) := by
  cases x with
  | ok a => exact ⟨fun _ => h.ok rfl, fun hfault => nomatch hfault⟩
  | error fault => exact ⟨fun hb => (nomatch hb), fun hfault => h.error (Except.error.inj hfault ▸ rfl)⟩

theorem beside (h : FailsFirst head? IsPart x) (hnil : tail? [] = none)
    (hf : ∀ a, x = .ok a → FailsFirst tail? IsPart (f a)) : FailsFirst (beside head? tail?) IsPart (x >>= f) := by
  cases x with
  | ok a =>
    constructor
    · intro b hb path s hpath
      match path with
      | [] => cases hpath
      | 0 :: path => exact h.ok rfl path s hpath
      | (i + 1) :: path => exact (hf a rfl).ok hb (i :: path) s hpath
    · intro fault hfault
      obtain ⟨e, hfirst, rfl⟩ := (hf a rfl).error hfault
      exact ⟨e, hfirst.tail (h.ok rfl) hnil, rfl⟩
  | error fault =>
    constructor
    · intro b hb
      cases hb
    · intro fault' hfault
      cases hfault
      obtain ⟨e, hfirst, rfl⟩ := h.error rfl
      exact ⟨e, hfirst.head, rfl⟩

/-- A statement's own part comes before what is inside. -/
theorem below (hown : ∀ {fault}, x = .error fault ↔ ∃ e, IsPart e s ∧ fault = e.unfolded)
    (hf : ∀ a, x = .ok a → FailsFirst (at? inside (inside s)) IsPart (f a)) :
    FailsFirst (s.below? inside) IsPart (x >>= f) := by
  cases x with
  | ok a =>
    have hnone : ∀ e, ¬IsPart e s := fun e he => nomatch hown.2 ⟨e, he, rfl⟩
    constructor
    · intro b hb path t hpath
      cases path with
      | nil =>
        obtain rfl := Option.some.inj hpath
        exact hnone
      | cons i path => exact (hf a rfl).ok hb (i :: path) t hpath
    · intro fault hfault
      obtain ⟨e, hfirst, rfl⟩ := (hf a rfl).error hfault
      exact ⟨e, hfirst.inside hnone, rfl⟩
  | error fault =>
    constructor
    · intro b hb
      cases hb
    · intro fault' hfault
      cases hfault
      obtain ⟨e, he, rfl⟩ := hown.1 rfl
      exact ⟨e, .own inside he, rfl⟩

/-- Nothing but what is inside. -/
theorem of_inside (hown : ∀ e, ¬IsPart e s) (h : FailsFirst (at? inside (inside s)) IsPart x) :
    FailsFirst (s.below? inside) IsPart x := by
  have hunit : ∀ {fault}, (.ok () : Except Fault Unit) = .error fault ↔ ∃ e, IsPart e s ∧ fault = e.unfolded := by
    simp [hown]
  exact below hunit fun _ _ => h

end FailsFirst

end Stmt

theorem Expr.finalValue_eq_error {e : Expr} {fault : Fault} :
    e.finalValue = .error fault ↔ ∃ e', (e = e' ∧ ¬e'.IsLiteral) ∧ fault = e'.unfolded := by
  constructor
  · intro h
    refine ⟨e, ⟨rfl, ?_⟩, ?_⟩
    · rintro ⟨v, n, rfl⟩
      cases h
    · cases e with
      | literal => cases h
      | reference | operation => exact (Except.error.inj h).symm
  · rintro ⟨_, ⟨rfl, he⟩, rfl⟩
    cases e with
    | literal v n => exact absurd ⟨v, n, rfl⟩ he
    | reference | operation => rfl

namespace Stmt

theorem given_of_true {c : Expr} (h : c.isTrue) (body : List Stmt) (n : Note) : (ifClause c body n).given = body :=
  if_pos h

theorem given_of_not_true {c : Expr} (h : ¬c.isTrue) (body : List Stmt) (n : Note) : (ifClause c body n).given = [] :=
  if_neg h

theorem declarations_eq_given (c : Expr) (body : List Stmt) (n : Note) : (ifClause c body n).declarations = (do
    let _ ← c.finalValue
    allDeclarations (ifClause c body n).given) := by
  cases c with
  | literal v m =>
    by_cases hv : v = .flag true
    · subst hv
      rfl
    · rw [given_of_not_true (by simp [Expr.isTrue, Expr.value?, hv])]
      exact if_neg hv
  | reference | operation => rfl

mutual

theorem declarations_failsFirst : (s : Stmt) →
    FailsFirst (s.below? given) IsUnfoldedCondition s.declarations
  | assignment .. => .of_inside (fun _ => id) (.nil [])
  | declaration .. => .of_inside (fun _ => id) (.nil _)
  | rule .. => .of_inside (fun _ => id) (.nil [])
  | ifClause c body n => by
    rw [declarations_eq_given]
    refine .below Expr.finalValue_eq_error fun _ _ => ?_
    by_cases hc : c.isTrue
    · rw [given_of_true hc]
      exact allDeclarations_failsFirst body
    · rw [given_of_not_true hc]
      exact .nil []

theorem allDeclarations_failsFirst : (ss : List Stmt) →
    FailsFirst (at? given ss) IsUnfoldedCondition (allDeclarations ss)
  | [] => .nil []
  | s :: ss => by
    rw [allDeclarations, at?_cons]
    exact .beside (declarations_failsFirst s) rfl fun ds _ => (allDeclarations_failsFirst ss).map (ds ++ ·)

end

/-- The line of a declaration. -/
def lineOf (d : String × Expr) : Except Fault (String × Value) := return (d.1, ← d.2.finalValue)

mutual

theorem lines_failsFirst_of_declarations : (s : Stmt) → ∀ ds, s.declarations = .ok ds →
    FailsFirst (s.below? given) IsUnfoldedValue (ds.mapM lineOf)
  | assignment .., ds, h => by
    obtain rfl := Except.ok.inj h
    exact .of_inside (fun _ => id) (.nil [])
  | declaration p e n, ds, h => by
    obtain rfl := Except.ok.inj h
    have hline : [(p, e)].mapM lineOf = (do let v ← e.finalValue; return [(p, v)]) := by
      rw [List.mapM_cons, lineOf]
      cases e.finalValue <;> rfl
    rw [hline]
    exact .below Expr.finalValue_eq_error fun v _ => .nil _
  | rule .., ds, h => by
    obtain rfl := Except.ok.inj h
    exact .of_inside (fun _ => id) (.nil [])
  | ifClause c body n, ds, h => by
    rw [declarations_eq_given] at h
    obtain ⟨v, -, h⟩ := except_bind_eq_ok.1 h
    refine .of_inside (fun _ => id) ?_
    by_cases hc : c.isTrue
    · rw [given_of_true hc] at h ⊢
      exact lines_failsFirst_of_allDeclarations body ds h
    · rw [given_of_not_true hc] at h ⊢
      obtain rfl := Except.ok.inj h
      exact .nil []

theorem lines_failsFirst_of_allDeclarations : (ss : List Stmt) → ∀ ds, allDeclarations ss = .ok ds →
    FailsFirst (at? given ss) IsUnfoldedValue (ds.mapM lineOf)
  | [], ds, h => by
    obtain rfl := Except.ok.inj h
    exact .nil []
  | s :: ss, ds, h => by
    rw [allDeclarations] at h
    obtain ⟨first, hfirst, h⟩ := except_bind_eq_ok.1 h
    obtain ⟨rest, hrest, h⟩ := except_bind_eq_ok.1 h
    obtain rfl := Except.ok.inj h
    rw [List.mapM_append, at?_cons]
    refine .beside (lines_failsFirst_of_declarations s first hfirst) rfl fun ls _ => ?_
    exact (lines_failsFirst_of_allDeclarations ss rest hrest).map (ls ++ ·)

end

section

variable {body : List Stmt} {fault : Fault} {e e' : Expr} {s : Stmt}

theorem IsUnfoldedCondition.unique (s : Stmt) (e e' : Expr) (h : IsUnfoldedCondition e s)
    (h' : IsUnfoldedCondition e' s) : e.unfolded = e'.unfolded := by
  cases s with
  | ifClause => rw [← h.1, ← h'.1]
  | _ => cases h

theorem IsUnfoldedValue.unique (s : Stmt) (e e' : Expr) (h : IsUnfoldedValue e s) (h' : IsUnfoldedValue e' s) :
    e.unfolded = e'.unfolded := by
  cases s with
  | declaration => rw [← h.1, ← h'.1]
  | _ => cases h

theorem lines_eq_error : lines body = .error fault ↔ ∃ e, Obstacle body e ∧ fault = e.unfolded := by
  have hconditions := allDeclarations_failsFirst body
  constructor
  · intro h
    cases hds : allDeclarations body with
    | error fault' =>
      rw [lines, hds] at h
      cases h
      obtain ⟨e, hfirst, rfl⟩ := hconditions.error hds
      exact ⟨e, .condition hfirst, rfl⟩
    | ok ds =>
      rw [lines, hds] at h
      obtain ⟨e, hfirst, rfl⟩ := (lines_failsFirst_of_allDeclarations body ds hds).error h
      exact ⟨e, .value (hconditions.ok hds) hfirst, rfl⟩
  · rintro ⟨e, hobstacle, rfl⟩
    cases hobstacle with
    | condition hfirst =>
      have hds := (hconditions.eq_error_iff IsUnfoldedCondition.unique).2 ⟨e, hfirst, rfl⟩
      rw [lines, hds]
      rfl
    | value hnone hfirst =>
      cases hds : allDeclarations body with
      | error fault' =>
        obtain ⟨path, s, hpath, c, hc⟩ := hconditions.exists_error_iff.1 ⟨fault', hds⟩
        exact absurd hc (hnone path s hpath c)
      | ok ds =>
        have hvalues := lines_failsFirst_of_allDeclarations body ds hds
        rw [lines, hds]
        exact (hvalues.eq_error_iff IsUnfoldedValue.unique).2 ⟨e, hfirst, rfl⟩

/-- Something unfolded stands in the body, or in an if clause there that holds. -/
def HasUnfolded (body : List Stmt) : Prop :=
  ∃ path s e, at? given body path = some s ∧ (IsUnfoldedCondition e s ∨ IsUnfoldedValue e s)

theorem exists_obstacle_iff : (∃ e, Obstacle body e) ↔ HasUnfolded body := by
  constructor
  · rintro ⟨e, ⟨path, s, hpath, he, -⟩ | ⟨-, path, s, hpath, he, -⟩⟩
    · exact ⟨path, s, e, hpath, .inl he⟩
    · exact ⟨path, s, e, hpath, .inr he⟩
  · rintro ⟨path, s, e, hpath, he⟩
    cases hlines : lines body with
    | error fault =>
      obtain ⟨e, he, -⟩ := lines_eq_error.1 hlines
      exact ⟨e, he⟩
    | ok ls =>
      obtain ⟨ds, hds, hls⟩ := except_bind_eq_ok.1 hlines
      rcases he with he | he
      · exact absurd he ((allDeclarations_failsFirst body).ok hds path s hpath e)
      · exact absurd he ((lines_failsFirst_of_allDeclarations body ds hds).ok hls path s hpath e)

theorem IsObstacle.unique (s : Stmt) (e e' : Expr) (h : IsObstacle e s) (h' : IsObstacle e' s) :
    e.unfolded = e'.unfolded := by
  cases s with
  | rule selector body n =>
    have hlines := lines_eq_error.2 ⟨e, h, rfl⟩
    have hlines' := lines_eq_error.2 ⟨e', h', rfl⟩
    exact Except.error.inj (hlines.symm.trans hlines')
  | _ => cases h

end

mutual

theorem blocks_failsFirst (outer : List Selector) : (s : Stmt) →
    FailsFirst (s.below? entered) IsObstacle (s.blocks outer)
  | assignment .. => .of_inside (fun _ => id) (.nil [])
  | declaration .. => .of_inside (fun _ => id) (.nil [])
  | rule selector body n => by
    rw [blocks]
    refine .below lines_eq_error fun ls _ => ?_
    exact (allBlocks_failsFirst (outer ++ [selector]) body).map (⟨outer ++ [selector], ls⟩ :: ·)
  | ifClause c body n => by
    refine .of_inside (fun _ => id) ?_
    rw [blocks, entered]
    by_cases hc : c.isTrue
    · rw [if_pos hc, if_pos hc]
      exact allBlocks_failsFirst outer body
    · rw [if_neg hc, if_neg hc]
      exact .nil []

theorem allBlocks_failsFirst (outer : List Selector) : (ss : List Stmt) →
    FailsFirst (at? entered ss) IsObstacle (allBlocks outer ss)
  | [] => .nil []
  | s :: ss => by
    rw [allBlocks, at?_cons]
    exact .beside (blocks_failsFirst outer s) rfl fun bs _ => (allBlocks_failsFirst outer ss).map (bs ++ ·)

end

/-- The statement at an address that leads into a rule first. -/
def writtenAt? (ss : List Stmt) : List Nat → Option Stmt
  | [] => none
  | i :: path => (ss[i]?.filter isRule).bind fun s => s.below? entered path

theorem writtenAt?_cons (s : Stmt) (ss : List Stmt) : writtenAt? (s :: ss) =
    beside (if s.isRule then s.below? entered else fun _ => none) (writtenAt? ss) := by
  funext path
  match path with
  | [] => rfl
  | 0 :: path => by_cases hs : s.isRule <;> simp [writtenAt?, beside, Option.filter, hs]
  | (i + 1) :: path => rfl

theorem written_failsFirst (ss : List Stmt) :
    FailsFirst (writtenAt? ss) IsObstacle (allBlocks [] (ss.filter isRule)) := by
  induction ss with
  | nil => exact .of_none (fun path => by cases path <;> rfl) []
  | cons s ss ih =>
    rw [writtenAt?_cons]
    by_cases hs : s.isRule
    · rw [if_pos hs, List.filter_cons_of_pos hs, allBlocks]
      exact .beside (blocks_failsFirst [] s) rfl fun bs _ => ih.map (bs ++ ·)
    · rw [if_neg hs, List.filter_cons_of_neg hs]
      have hskip : FailsFirst (fun _ => none) IsObstacle (.ok () : Except Fault Unit) := .of_none (fun _ => rfl) ()
      exact hskip.beside rfl fun _ _ => ih

end Stmt

namespace Stylesheet

open Stmt

/-- The body of the rule at an address, if the rule is written: only rules and if clauses that hold lead there, a rule
first. -/
def WritesRule (sheet : Stylesheet) (path : List Nat) (body : List Stmt) : Prop :=
  ∃ selector n, writtenAt? sheet.body path = some (rule selector body n)

theorem css_failsFirst (sheet : Stylesheet) : FailsFirst (writtenAt? sheet.body) IsObstacle sheet.css :=
  (written_failsFirst sheet.body).map Css.text

variable {sheet other : Stylesheet} {path : List Nat} {e : Expr}

theorem exists_writesRule_iff : (∃ s, writtenAt? sheet.body path = some s ∧ ∃ e, IsObstacle e s) ↔
    ∃ body, sheet.WritesRule path body ∧ HasUnfolded body := by
  constructor
  · rintro ⟨s, hpath, e, he⟩
    cases s with
    | rule selector body n => exact ⟨body, ⟨selector, n, hpath⟩, exists_obstacle_iff.1 ⟨e, he⟩⟩
    | _ => cases he
  · rintro ⟨body, ⟨selector, n, hpath⟩, hunfolded⟩
    exact ⟨_, hpath, exists_obstacle_iff.2 hunfolded⟩

theorem isFirst_iff : IsFirst (writtenAt? sheet.body) IsObstacle e ↔
    ∃ path body, sheet.WritesRule path body ∧ Obstacle body e ∧
      ∀ path', Precedes path' path → ∀ body', sheet.WritesRule path' body' → ¬HasUnfolded body' := by
  constructor
  · rintro ⟨path, s, hpath, he, hfirst⟩
    cases s with
    | rule selector body n =>
      refine ⟨path, body, ⟨selector, n, hpath⟩, he, fun path' hlt body' hrule hunfolded => ?_⟩
      obtain ⟨t, ht, e', he'⟩ := exists_writesRule_iff.2 ⟨body', hrule, hunfolded⟩
      exact hfirst path' hlt t ht e' he'
    | _ => cases he
  · rintro ⟨path, body, ⟨selector, n, hpath⟩, he, hfirst⟩
    refine ⟨path, _, hpath, he, fun path' hlt t ht e' he' => ?_⟩
    obtain ⟨body', hrule, hunfolded⟩ := exists_writesRule_iff.1 ⟨t, ht, e', he'⟩
    exact hfirst path' hlt body' hrule hunfolded

theorem css_error_of_bare (hbare : other.bare = sheet.bare) (h : ∃ fault, other.css = .error fault) :
    ∃ fault, sheet.css = .error fault := by
  cases hcss : sheet.css with
  | error fault => exact ⟨fault, rfl⟩
  | ok text =>
    obtain ⟨fault, hfault⟩ := h
    rw [css_of_bare hcss hbare] at hfault
    cases hfault

end Stylesheet

open Stmt in
/-- A stylesheet is not written if and only if one of the rules to write has something unfolded in its body, outside the
if clauses that do not hold. The fault is in the first of these rules, at the first unfolded condition or else at the
first unfolded value. Without what is assigned and what stands in if clauses that do not hold, it is written or not just
the same. -/
theorem writing_stops_at_first_obstacle (sheet : Stylesheet) :
    ((∃ fault, sheet.css = .error fault) ↔ ∃ path body, sheet.WritesRule path body ∧ HasUnfolded body) ∧
    (∀ fault, sheet.css = .error fault ↔ ∃ e, fault = ⟨.unfolded, e.span.start⟩ ∧
      ∃ path body, sheet.WritesRule path body ∧ Obstacle body e ∧
        ∀ path', Precedes path' path → ∀ body', sheet.WritesRule path' body' → ¬HasUnfolded body') ∧
    ∀ other : Stylesheet, other.bare = sheet.bare →
      ((∃ fault, other.css = .error fault) ↔ ∃ fault, sheet.css = .error fault) := by
  refine ⟨?_, fun fault => ?_, fun other hbare => ?_⟩
  · rw [sheet.css_failsFirst.exists_error_iff]
    exact exists_congr fun path => Stylesheet.exists_writesRule_iff
  · rw [sheet.css_failsFirst.eq_error_iff IsObstacle.unique]
    refine exists_congr fun e => ?_
    rw [Stylesheet.isFirst_iff, and_comm]
    rfl
  · exact ⟨Stylesheet.css_error_of_bare hbare, Stylesheet.css_error_of_bare hbare.symm⟩

/-- An unfolded value in a nested rule, one in the rule around it and a condition there, in the order of the source. The
fault is at the condition, and there is one with an unfolded assignment in front as well. -/
theorem writing_stops_at_first_obstacle_condition :
    let ref (offset : UInt32) : Expr := .reference "X" (.clear ⟨⟨offset, "a"⟩, ⟨offset, "a"⟩⟩)
    let inner : Stmt := .rule (.className "b") [.declaration "top" (ref 1) .plain] .plain
    let outer : Stmt :=
      .rule (.tag "a") [inner, .declaration "left" (ref 2) .plain, .ifClause (ref 3) [] .plain] .plain
    let sheet : Stylesheet := ⟨[outer], .nowhere⟩
    let other : Stylesheet := ⟨[.assignment "N" (ref 4) .plain, outer], .nowhere⟩
    sheet.css = .error ⟨.unfolded, ⟨3, "a"⟩⟩ ∧
      (∃ e : Expr, (⟨.unfolded, ⟨3, "a"⟩⟩ : Fault) = ⟨.unfolded, e.span.start⟩ ∧ ∃ path body,
        sheet.WritesRule path body ∧ Stmt.Obstacle body e ∧
          ∀ path', Stmt.Precedes path' path → ∀ body', sheet.WritesRule path' body' → ¬Stmt.HasUnfolded body') ∧
      other.bare = sheet.bare ∧ ∃ fault, other.css = .error fault := by
  intro ref inner outer sheet other
  obtain ⟨-, hfault, hother⟩ := writing_stops_at_first_obstacle sheet
  have hcss : sheet.css = .error ⟨.unfolded, ⟨3, "a"⟩⟩ := rfl
  have hbare : other.bare = sheet.bare := rfl
  exact ⟨hcss, (hfault _).1 hcss, hbare, (hother other hbare).2 ⟨_, hcss⟩⟩

end TypedCss
