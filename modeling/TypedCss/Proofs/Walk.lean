import TypedCss.Proofs.ScopeMap
import TypedCss.Proofs.Slots

/-!
# Walks through the slots

The checker and the folder go through the slots in the same way: what they make of the right-hand side of
an assignment is bound to its variable, and a rule is entered and left. `Stmt.walk` is this walk, with the
variables that the pass holds in sight at each slot it comes to.
-/

namespace TypedCss

/-- What a pass makes of an expression where the given variables are in sight. It stops where it makes
nothing. -/
abbrev Pass (α : Type) := Scopes α → Expr → Option α

/-- A slot that a pass comes to: the variables in sight and what it makes of the expression. -/
structure Visit (α : Type) where
  scopes : Scopes α
  made? : Option α

/-- The slots that a pass comes to, and the variables in sight after it, if it does not stop. -/
structure Walk (α : Type) where
  visits : List (Visit α)
  after? : Option (Scopes α)

namespace Stmt

variable {α : Type}

mutual

def walk (pass : Pass α) (scopes : Scopes α) : Stmt → Walk α
  | assignment x e _ =>
    ⟨[⟨scopes, pass scopes e⟩], (pass scopes e).map fun a => scopes.declare x a⟩
  | declaration _ e _ => ⟨[⟨scopes, pass scopes e⟩], (pass scopes e).map fun _ => scopes⟩
  | rule _ body _ =>
    let w := walkAll pass scopes.enter body
    ⟨w.visits, w.after?.map Scopes.leave⟩
  | ifClause c body _ =>
    match pass scopes c with
    | none => ⟨[⟨scopes, none⟩], none⟩
    | some a =>
      let w := walkAll pass scopes body
      ⟨⟨scopes, some a⟩ :: w.visits, w.after?⟩

def walkAll (pass : Pass α) (scopes : Scopes α) : List Stmt → Walk α
  | [] => ⟨[], some scopes⟩
  | s :: ss =>
    let w := s.walk pass scopes
    match w.after? with
    | none => w
    | some next =>
      let rest := walkAll pass next ss
      ⟨w.visits ++ rest.visits, rest.after?⟩

end

variable {pass : Pass α} {scopes next : Scopes α} {s : Stmt} {ss : List Stmt}

theorem walkAll_cons_of_stop (h : (s.walk pass scopes).after? = none) :
    walkAll pass scopes (s :: ss) = s.walk pass scopes := by
  rw [walkAll, h]

theorem walkAll_cons_of_after (h : (s.walk pass scopes).after? = some next) :
    walkAll pass scopes (s :: ss) =
      ⟨(s.walk pass scopes).visits ++ (walkAll pass next ss).visits, (walkAll pass next ss).after?⟩ := by
  rw [walkAll, h]

end Stmt

variable {α β : Type}

def Visit.map (f : α → β) (v : Visit α) : Visit β := ⟨v.scopes.map f, v.made?.map f⟩

def Walk.map (f : α → β) (w : Walk α) : Walk β := ⟨w.visits.map (Visit.map f), w.after?.map (Scopes.map f)⟩

/-- Whatever `p` makes of an expression, `q` makes its image under `f`. -/
def Pass.Agrees (f : α → β) (p : Pass α) (q : Pass β) : Prop :=
  ∀ scopes e a, p scopes e = some a → q (scopes.map f) e = some (f a)

namespace Stmt

variable {f : α → β} {p : Pass α} {q : Pass β}

mutual

/-- Passes that agree walk alike, as long as the first one does not stop. -/
theorem walk_map (h : Pass.Agrees f p q) (scopes : Scopes α) : (s : Stmt) →
    (s.walk p scopes).after?.isSome → s.walk q (scopes.map f) = (s.walk p scopes).map f
  | assignment x e n, ha => by
    rw [walk] at ha ⊢
    obtain ⟨a, hp⟩ := Option.isSome_iff_exists.1 (Option.isSome_map ▸ ha)
    simp [walk, Walk.map, Visit.map, hp, h _ _ _ hp]
  | declaration x e n, ha => by
    rw [walk] at ha ⊢
    obtain ⟨a, hp⟩ := Option.isSome_iff_exists.1 (Option.isSome_map ▸ ha)
    simp [walk, Walk.map, Visit.map, hp, h _ _ _ hp]
  | rule s body n, ha => by
    rw [walk] at ha
    have hbody := walkAll_map h scopes.enter body (Option.isSome_map ▸ ha)
    have hleave : Scopes.leave ∘ Scopes.map f = Scopes.map f ∘ Scopes.leave := funext (Scopes.leave_map f)
    rw [walk, walk, Scopes.enter_map, hbody]
    simp only [Walk.map, Option.map_map, hleave]
  | ifClause c body n, ha => by
    rw [walk] at ha ⊢
    cases hp : p scopes c with
    | none => simp [hp] at ha
    | some a =>
      rw [hp] at ha
      rw [h _ _ _ hp, walk, hp]
      simp only [walkAll_map h scopes body ha]
      rfl

theorem walkAll_map (h : Pass.Agrees f p q) (scopes : Scopes α) : (ss : List Stmt) →
    (walkAll p scopes ss).after?.isSome → walkAll q (scopes.map f) ss = (walkAll p scopes ss).map f
  | [], _ => rfl
  | s :: ss, ha => by
    cases hs : (s.walk p scopes).after? with
    | none =>
      rw [walkAll_cons_of_stop hs, hs] at ha
      cases ha
    | some next =>
      rw [walkAll_cons_of_after hs] at ha
      have hfirst := walk_map h scopes s (hs ▸ rfl)
      have hafter : (s.walk q (scopes.map f)).after? = some (next.map f) := by
        rw [hfirst, Walk.map, hs, Option.map_some]
      rw [walkAll_cons_of_after hafter, walkAll_cons_of_after hs, hfirst, walkAll_map h next ss ha]
      simp [Walk.map]

end

end Stmt

/-- The checker gives every expression a type. -/
def Pass.typing : Pass ValueType := fun types e => some (e.type types)

/-- The folder stops at an expression without a value. -/
def Pass.folding : Pass Value := fun values e => (e.eval values).toOption

namespace Stmt

mutual

theorem walk_typing_after (types : Types) : (s : Stmt) →
    (s.walk .typing types).after? = some (s.check types).2
  | assignment .. => rfl
  | declaration .. => rfl
  | rule _ body _ => by
    rw [walk, walkAll_typing_after types.enter body]
    rfl
  | ifClause _ body _ => walkAll_typing_after types body

theorem walkAll_typing_after (types : Types) : (ss : List Stmt) →
    (walkAll .typing types ss).after? = some (checkAll types ss).2
  | [] => rfl
  | s :: ss => by
    rw [walkAll_cons_of_after (walk_typing_after types s)]
    exact walkAll_typing_after _ ss

end

mutual

theorem length_walk_typing (types : Types) : (s : Stmt) →
    (s.walk .typing types).visits.length = s.expressions.length
  | assignment .. => rfl
  | declaration .. => rfl
  | rule _ body _ => length_walkAll_typing types.enter body
  | ifClause _ body _ => congrArg (· + 1) (length_walkAll_typing types body)

theorem length_walkAll_typing (types : Types) : (ss : List Stmt) →
    (walkAll .typing types ss).visits.length = (allExpressions ss).length
  | [] => rfl
  | s :: ss => by
    rw [walkAll_cons_of_after (walk_typing_after types s), allExpressions, List.length_append,
      List.length_append, length_walk_typing types s, length_walkAll_typing _ ss]

end

def checkedAt (v : Visit ValueType) (e : Expr) : Expr := e.check v.scopes

mutual

theorem check_expressions (types : Types) : (s : Stmt) →
    (s.check types).1.expressions = List.zipWith checkedAt (s.walk .typing types).visits s.expressions
  | assignment .. => rfl
  | declaration .. => rfl
  | rule _ body _ => checkAll_expressions types.enter body
  | ifClause c body _ => congrArg (c.check types :: ·) (checkAll_expressions types body)

theorem checkAll_expressions (types : Types) : (ss : List Stmt) →
    allExpressions (checkAll types ss).1 =
      List.zipWith checkedAt (walkAll .typing types ss).visits (allExpressions ss)
  | [] => rfl
  | s :: ss => by
    rw [walkAll_cons_of_after (walk_typing_after types s), checkAll_cons, allExpressions, allExpressions,
      List.zipWith_append (length_walk_typing types s), check_expressions types s,
      checkAll_expressions _ ss]

end

end Stmt

/-- What folding leaves in slots that hold the given expressions: the values up to the first expression
without one, and from there on the expressions themselves. -/
inductive FoldsTo : List (Visit Value) → List Expr → List Expr → Option Fault → Prop
  | nil : FoldsTo [] [] [] none
  | stop {values : Values} {e : Expr} {fault : Fault} (es : List Expr) (h : e.eval values = .error fault) :
    FoldsTo [⟨values, none⟩] (e :: es) (e :: es) (some fault)
  | next {values : Values} {e : Expr} {v : Value} {vs : List (Visit Value)} {es folded : List Expr}
    {fault? : Option Fault} (n : Note) (h : e.eval values = .ok v) (rest : FoldsTo vs es folded fault?) :
    FoldsTo (⟨values, some v⟩ :: vs) (e :: es) (.literal v n :: folded) fault?

namespace FoldsTo

variable {vs ws : List (Visit Value)} {es fs folded folded' : List Expr} {fault : Fault}
  {fault? : Option Fault}

theorem append_of_stop (h : FoldsTo vs es folded (some fault)) (fs : List Expr) :
    FoldsTo vs (es ++ fs) (folded ++ fs) (some fault) := by
  generalize hf : some fault = fault? at h
  induction h with
  | nil => cases hf
  | stop es h =>
    cases hf
    exact .stop (es ++ fs) h
  | next n h _ ih => exact .next n h (ih hf)

theorem append (h : FoldsTo vs es folded none) (h' : FoldsTo ws fs folded' fault?) :
    FoldsTo (vs ++ ws) (es ++ fs) (folded ++ folded') fault? := by
  generalize hf : none = fault?' at h
  induction h with
  | nil => exact h'
  | stop => cases hf
  | next n h _ ih => exact .next n h (ih hf)

theorem single {values : Values} {e : Expr} {v : Value} (n : Note) (h : e.eval values = .ok v) :
    FoldsTo [⟨values, some v⟩] [e] [.literal v n] none :=
  .next n h .nil

theorem isLiteral (h : FoldsTo vs es folded none) : ∀ e ∈ folded, e.IsLiteral := by
  generalize hf : none = fault? at h
  induction h with
  | nil => simp
  | stop => cases hf
  | @next _ _ v _ _ _ _ n _ _ ih => exact List.forall_mem_cons.2 ⟨⟨v, n, rfl⟩, ih hf⟩

end FoldsTo

theorem Pass.folding_ok {values : Values} {e : Expr} {v : Value} (h : e.eval values = .ok v) :
    Pass.folding values e = some v := by
  rw [folding, h]
  rfl

theorem Pass.folding_error {values : Values} {e : Expr} {fault : Fault} (h : e.eval values = .error fault) :
    Pass.folding values e = none := by
  rw [folding, h]
  rfl

theorem Expr.foldedTo_of_eval {values : Values} {e : Expr} {v : Value} (h : e.eval values = .ok v) :
    ∃ n, e.foldedTo v = .literal v n := by
  cases e with
  | literal w n =>
    obtain rfl := Except.ok.inj h
    exact ⟨n, rfl⟩
  | reference x n => exact ⟨_, rfl⟩
  | operation op l r n => exact ⟨_, rfl⟩

namespace Stmt

mutual

theorem walk_folding_after (values : Values) : (s : Stmt) → (s.walk .folding values).after? =
    match (s.fold values).fault? with
    | none => some (s.fold values).values
    | some _ => none
  | assignment x e n => by
    rw [walk, fold]
    cases hv : e.eval values with
    | error fault => rw [Pass.folding_error hv]; rfl
    | ok v => rw [Pass.folding_ok hv]; rfl
  | declaration p e n => by
    rw [walk, fold, Expr.fold_eq_map]
    cases hv : e.eval values with
    | error fault => rw [Pass.folding_error hv]; rfl
    | ok v => rw [Pass.folding_ok hv]; rfl
  | rule s body n => by
    rw [walk, fold, walkAll_folding_after values.enter body]
    cases (foldAll values.enter body).fault? <;> rfl
  | ifClause c body n => by
    rw [walk, fold, Expr.fold_eq_map]
    cases hv : c.eval values with
    | error fault => rw [Pass.folding_error hv]; rfl
    | ok v =>
      rw [Pass.folding_ok hv]
      exact walkAll_folding_after values body

theorem walkAll_folding_after (values : Values) : (ss : List Stmt) →
    (walkAll .folding values ss).after? =
      match (foldAll values ss).fault? with
      | none => some (foldAll values ss).values
      | some _ => none
  | [] => rfl
  | s :: ss => by
    have hs := walk_folding_after values s
    cases hf : (s.fold values).fault? with
    | some fault =>
      rw [hf] at hs
      rw [walkAll_cons_of_stop hs, foldAll_cons_of_fault hf, hs]
    | none =>
      rw [hf] at hs
      rw [walkAll_cons_of_after hs, foldAll_cons_of_no_fault hf]
      exact walkAll_folding_after _ ss

end

mutual

theorem fold_expressions (values : Values) : (s : Stmt) →
    FoldsTo (s.walk .folding values).visits s.expressions (s.fold values).tree.expressions
      (s.fold values).fault?
  | assignment x e n => by
    rw [walk, fold]
    cases hv : e.eval values with
    | error fault =>
      rw [Pass.folding_error hv]
      exact .stop [] hv
    | ok v =>
      rw [Pass.folding_ok hv]
      exact .single _ hv
  | declaration p e n => by
    rw [walk, fold, Expr.fold_eq_map]
    cases hv : e.eval values with
    | error fault =>
      rw [Pass.folding_error hv]
      exact .stop [] hv
    | ok v =>
      obtain ⟨m, hm⟩ := Expr.foldedTo_of_eval hv
      simp only [Pass.folding_ok hv, Except.map, expressions, hm]
      exact .single m hv
  | rule s body n => foldAll_expressions values.enter body
  | ifClause c body n => by
    rw [walk, fold, Expr.fold_eq_map]
    cases hv : c.eval values with
    | error fault =>
      rw [Pass.folding_error hv]
      exact .stop _ hv
    | ok v =>
      obtain ⟨m, hm⟩ := Expr.foldedTo_of_eval hv
      simp only [Pass.folding_ok hv, Except.map, expressions, hm]
      exact .next m hv (foldAll_expressions values body)

theorem foldAll_expressions (values : Values) : (ss : List Stmt) →
    FoldsTo (walkAll .folding values ss).visits (allExpressions ss) (allExpressions (foldAll values ss).tree)
      (foldAll values ss).fault?
  | [] => .nil
  | s :: ss => by
    have hs := fold_expressions values s
    have hafter := walk_folding_after values s
    cases hf : (s.fold values).fault? with
    | some fault =>
      rw [hf] at hs hafter
      rw [walkAll_cons_of_stop hafter, foldAll_cons_of_fault hf]
      exact hs.append_of_stop _
    | none =>
      rw [hf] at hs hafter
      rw [walkAll_cons_of_after hafter, foldAll_cons_of_no_fault hf]
      exact hs.append (foldAll_expressions _ ss)

end

end Stmt

theorem Stylesheet.fold_expressions (sheet : Stylesheet) :
    FoldsTo (Stmt.walkAll .folding .empty sheet.body).visits sheet.expressions sheet.fold.tree.expressions
      sheet.fold.fault? :=
  Stmt.foldAll_expressions .empty sheet.body

theorem Stylesheet.check_expressions (sheet : Stylesheet) :
    sheet.check.expressions =
      List.zipWith Stmt.checkedAt (Stmt.walkAll .typing .empty sheet.body).visits sheet.expressions :=
  Stmt.checkAll_expressions .empty sheet.body

end TypedCss
