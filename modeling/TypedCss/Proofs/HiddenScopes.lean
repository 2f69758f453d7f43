import TypedCss.Proofs.Approval

/-!
# Hidden scopes

A name that is bound in several open scopes stands for one of these bindings, and the others are hidden. The rule for
lengths along an axis looks at all of them. It reports a variable in pixels or a percentage if a hidden scope binds its
name to a type that is no length, and the report names that type.
-/

namespace TypedCss

namespace Scopes

variable {α : Type}

/-- The open scopes that are passed over when the name is looked up: those between the innermost and the global one,
and the global one itself where the innermost binds the name. -/
def hidden (s : Scopes α) (name : String) : List (Frame α) :=
  s.inner.tail ++ if (s.own? name).isSome then [s.global] else []

/-- If the binding in sight does not pass the test, the search for one that does goes on in the hidden scopes. -/
theorem find?_eq_findSome?_hidden {s : Scopes α} {name : String} {test : α → Bool} {a : α}
    (h : s.resolve? name = some a) (ha : test a = false) :
    s.find? name test = (s.hidden name).findSome? fun f => (f.lookup name).filter test := by
  have hfails {f : Frame α} (hf : f.lookup name = some a) : (f.lookup name).filter test = none := by
    rw [hf, Option.filter_some, ha]
    rfl
  obtain ⟨inner, global⟩ := s
  rw [resolve?_eq_own?_or] at h
  cases inner with
  | nil =>
    have hglobal : (global.lookup name).filter test = none := hfails h
    simp [find?, frames, hidden, own?, hglobal]
  | cons f fs =>
    rw [find?, frames, hidden, List.cons_append, List.findSome?_cons]
    cases hown : f.lookup name with
    | some b =>
      -- the own binding is in sight, and everything else is hidden
      obtain rfl : b = a := by simpa [own?, hown] using h
      simp [own?, hown, Option.filter_some, ha]
    | none =>
      -- the global binding is in sight, and the scopes in between are hidden
      have hglobal : (global.lookup name).filter test = none := hfails (by simpa [own?, getGlobal?, hown] using h)
      simp [own?, hown, hglobal]

end Scopes

namespace Stmt

mutual

/-- The notes of the statements that have slots, in the order of the slots. -/
def slotNotes : Stmt → List Note
  | assignment _ _ n => [n]
  | declaration _ _ n => [n]
  | rule _ body _ => allSlotNotes body
  | ifClause _ body n => n :: allSlotNotes body

def allSlotNotes : List Stmt → List Note
  | [] => []
  | s :: ss => s.slotNotes ++ allSlotNotes ss

end

mutual

theorem length_slotNotes : (s : Stmt) → s.slotNotes.length = s.uses.length
  | assignment .. => rfl
  | declaration .. => rfl
  | rule _ body _ => length_allSlotNotes body
  | ifClause _ body _ => congrArg (· + 1) (length_allSlotNotes body)

theorem length_allSlotNotes : (ss : List Stmt) → (allSlotNotes ss).length = (allUses ss).length
  | [] => rfl
  | s :: ss => by
    rw [allSlotNotes, allUses, List.length_append, List.length_append, length_slotNotes s, length_allSlotNotes ss]

end

/-- What the checker finds wrong with the use in a slot that it comes to. -/
def problemAt (use : Use × Expr) (v : Visit ValueType) : Option Problem := use.1.problem? v.scopes use.2

theorem length_problemsAt (types : Types) (s : Stmt) :
    (List.zipWith problemAt s.uses (s.walk .typing types).visits).length = s.slotNotes.length := by
  have huses : s.uses.length = s.expressions.length := by rw [← uses_map_snd, List.length_map]
  rw [List.length_zipWith, length_walk_typing, length_slotNotes, huses, Nat.min_self]

mutual

/-- The checker attaches to the statement of a slot what it finds wrong with its use, and nothing else. -/
theorem check_slotNotes (types : Types) : (s : Stmt) → (s.check types).1.slotNotes =
    List.zipWith Note.report s.slotNotes (List.zipWith problemAt s.uses (s.walk .typing types).visits)
  | assignment _ _ n => congrArg ([·]) n.report_none.symm
  | declaration .. => rfl
  | rule _ body _ => checkAll_slotNotes types.enter body
  | ifClause c body n => congrArg (n.report (conditionProblem? types c) :: ·) (checkAll_slotNotes types body)

theorem checkAll_slotNotes (types : Types) : (ss : List Stmt) → allSlotNotes (checkAll types ss).1 =
    List.zipWith Note.report (allSlotNotes ss) (List.zipWith problemAt (allUses ss) (walkAll .typing types ss).visits)
  | [] => rfl
  | s :: ss => by
    have hlength : s.uses.length = (s.walk .typing types).visits.length := by
      rw [length_walk_typing, ← uses_map_snd, List.length_map]
    rw [walkAll_cons_of_after (walk_typing_after types s), checkAll_cons, allSlotNotes, allSlotNotes, allUses,
      List.zipWith_append hlength, List.zipWith_append (length_problemsAt types s).symm, check_slotNotes types s,
      checkAll_slotNotes _ ss]

end

/-- The types that the checker holds at slot `i`, when it comes to the statements with the given types. -/
def typesAt? (types : Types) (ss : List Stmt) (i : Nat) : Option Types :=
  (walkAll .typing types ss).visits[i]?.map Visit.scopes

theorem slotNotes_of_check {types inSight : Types} {ss : List Stmt} {i : Nat} {use : Use} {e : Expr}
    (huse : (allUses ss)[i]? = some (use, e)) (hsight : typesAt? types ss i = some inSight) :
    ∃ n, (allSlotNotes ss)[i]? = some n ∧
      (allSlotNotes (checkAll types ss).1)[i]? = some (n.report (use.problem? inSight e)) := by
  obtain ⟨v, hv, rfl⟩ := Option.map_eq_some_iff.1 hsight
  obtain ⟨hlt, -⟩ := List.getElem?_eq_some_iff.1 huse
  rw [← length_allSlotNotes] at hlt
  have hn := List.getElem?_eq_getElem hlt
  refine ⟨_, hn, ?_⟩
  rw [checkAll_slotNotes, List.getElem?_zipWith, hn, List.getElem?_zipWith, huse, hv]
  rfl

end Stmt

/-- The types of variables that cannot be a length along an axis. -/
def ValueType.isUnfit (t : ValueType) : Bool := t == .number .scalar || t == .color || t == .flag

/-- What the checker finds wrong with a length along an axis that names a variable in pixels or a percentage: the
innermost unfit type that a hidden scope binds the name to. -/
theorem declarationProblem?_of_length {types : Types} {property x : String} {m : Note} {unit : Measure}
    (hdimension : wantsDimension property) (hcolor : wantsColor property = false)
    (htype : (Expr.reference x m).type types = .number unit) (hunit : unit = .pixel ∨ unit = .percentage) :
    declarationProblem? types property (.reference x m) =
      ((types.hidden x).findSome? fun f => (f.lookup x).filter ValueType.isUnfit).map
        (.invalidDimension property) := by
  have hresolve : types.resolve? x = some (.number unit) := by
    cases hx : types.resolve? x with
    | none => simp [Expr.type, hx] at htype
    | some t => simpa [Expr.type, hx] using htype
  have hfit : (ValueType.number unit).isUnfit = false := by rcases hunit with rfl | rfl <;> rfl
  have hcolor' : ¬(wantsColor property ∧ ¬(Expr.reference x m).isColor types) := by simp [hcolor]
  rw [declarationProblem?, if_neg hcolor', if_pos hdimension, ← Scopes.find?_eq_findSome?_hidden hresolve hfit]
  rfl

open Stmt in
/-- Whatever the checker has in sight before it comes to some statements: a length along an axis that names a variable
in pixels or a percentage is not reported if and only if no hidden scope binds the name to a plain number, a color or
a truth value. Otherwise the report names the innermost of these types. -/
theorem length_is_accepted_iff_no_hidden_misfit {types inSight : Types} {ss : List Stmt} {i : Nat}
    {property x : String} {m : Note} {unit : Measure}
    (huse : (allUses ss)[i]? = some (.declared property, .reference x m))
    (hdimension : wantsDimension property) (hcolor : wantsColor property = false)
    (hsight : typesAt? types ss i = some inSight)
    (htype : (Expr.reference x m).type inSight = .number unit) (hunit : unit = .pixel ∨ unit = .percentage) :
    ∃ n attached?, (allSlotNotes ss)[i]? = some n ∧
      (allSlotNotes (checkAll types ss).1)[i]? = some (n.report attached?) ∧
      (attached? = none ↔ ∀ f ∈ inSight.hidden x, ∀ t ∈ f.lookup x, t.isUnfit = false) ∧
      ∀ p ∈ attached?, ∃ inner f outer found, p = .invalidDimension property found ∧
        inSight.hidden x = inner ++ f :: outer ∧ f.lookup x = some found ∧ found.isUnfit ∧
        ∀ g ∈ inner, ∀ t ∈ g.lookup x, t.isUnfit = false := by
  obtain ⟨n, hn, hchecked⟩ := slotNotes_of_check huse hsight
  have hproblem := declarationProblem?_of_length hdimension hcolor htype hunit
  refine ⟨n, _, hn, hchecked, ?_, ?_⟩
  · rw [Use.problem?, hproblem]
    simp [Option.filter_eq_none_iff]
  · intro p hp
    rw [Use.problem?, hproblem] at hp
    obtain ⟨found, hfound, rfl⟩ := Option.map_eq_some_iff.1 hp
    obtain ⟨inner, f, outer, hframes, hlookup, hinner⟩ := List.findSome?_eq_some_iff.1 hfound
    obtain ⟨hlookup, hunfit⟩ := Option.filter_eq_some_iff.1 hlookup
    refine ⟨inner, f, outer, found, rfl, hframes, hlookup, hunfit, fun g hg t ht => ?_⟩
    simpa using Option.filter_eq_none_iff.1 (hinner g hg) t ht

open Stmt in
/-- The percentage of the nested rule is in sight. The plain number of the rule around it is reported, though the name
stands for it nowhere in the nested rule. -/
theorem length_is_accepted_iff_no_hidden_misfit_nested :
    let n : Note := .clear .nowhere
    let assign (v : Value) : Stmt := .assignment "W" (.literal v n) n
    let ss : List Stmt := [assign (.number .pixel 5), .rule (.tag "a") [assign (.number .scalar 3),
      .rule (.tag "p") [assign (.number .percentage 10), .declaration "width" (.reference "W" n) n] n] n]
    let inSight : Types := ⟨[[("W", .number .percentage)], [("W", .number .scalar)]], [("W", .number .pixel)]⟩
    (allUses ss)[3]? = some (.declared "width", .reference "W" n) ∧ typesAt? .empty ss 3 = some inSight ∧
      (Expr.reference "W" n).type inSight = .number .percentage ∧
      ∃ m attached?, (allSlotNotes ss)[3]? = some m ∧
        (allSlotNotes (checkAll .empty ss).1)[3]? = some (m.report attached?) ∧
        (attached? = none ↔ ∀ f ∈ inSight.hidden "W", ∀ t ∈ f.lookup "W", t.isUnfit = false) ∧
        ∀ p ∈ attached?, ∃ inner f outer found, p = .invalidDimension "width" found ∧
          inSight.hidden "W" = inner ++ f :: outer ∧ f.lookup "W" = some found ∧ found.isUnfit ∧
          ∀ g ∈ inner, ∀ t ∈ g.lookup "W", t.isUnfit = false := by
  intro n assign ss inSight
  have huse : (allUses ss)[3]? = some (.declared "width", .reference "W" n) := rfl
  have hsight : typesAt? .empty ss 3 = some inSight := rfl
  have htype : (Expr.reference "W" n).type inSight = .number .percentage := rfl
  have haccepted := length_is_accepted_iff_no_hidden_misfit huse (by decide) (by decide) hsight htype (.inr rfl)
  exact ⟨huse, hsight, htype, haccepted⟩

/-- The width is a variable in pixels and would be written as such. It is reported for the plain number that the global
scope binds to the same name. -/
theorem length_is_reported_for_hidden_scalar :
    let n : Note := .clear .nowhere
    let assign (v : Value) : Stmt := .assignment "Size" (.literal v n) n
    let sheet : Stylesheet := ⟨[assign (.number .scalar 3), .rule (.tag "a")
      [assign (.number .pixel 10), .declaration "width" (.reference "Size" n) n] n], .nowhere⟩
    wantsDimension "width" ∧ wantsColor "width" = false ∧
      (sheet.typesAt? 2).map (Expr.reference "Size" n).type = some (.number .pixel) ∧
      sheet.check.diagnostics = [⟨.invalidDimension "width" (.number .scalar), .nowhere⟩] ∧
      sheet.fold.tree.css.toOption = some "a \x7b\n  width: 10px;\n\x7d\n" := by
  decide +kernel

end TypedCss
