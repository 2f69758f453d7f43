import TypedCss.Proofs.Editing
import TypedCss.Proofs.Soundness

/-!
# If clauses are transparent

An if clause shares the scope around it, and what stands in a clause that holds is written where the clause
stands. So it makes no difference whether statements of a rule stand in a clause with the condition `TRUE`. A
clause with the condition `FALSE` is not written at all, and if it assigns no variable it can be left out.
-/

namespace TypedCss

namespace Stmt

/-- The clause `if [TRUE] { body }`. -/
def ifTrue (condition clause : Span) (body : List Stmt) : Stmt :=
  ifClause (.literal (.flag true) (.clear condition)) body (.clear clause)

/-- Puts the first `length` statements into an if clause that holds. -/
def wrapFirst (condition clause : Span) (length : Nat) (ss : List Stmt) : List Stmt :=
  ifTrue condition clause (ss.take length) :: ss.drop length

/-- Puts `length` statements from statement `start` on into an if clause that holds. -/
def wrap (condition clause : Span) (start length : Nat) (ss : List Stmt) : List Stmt :=
  ss.modifyTailIdx start (wrapFirst condition clause length)

theorem checkAll_append (types : Types) (ss ts : List Stmt) : checkAll types (ss ++ ts) =
    ((checkAll types ss).1 ++ (checkAll (checkAll types ss).2 ts).1, (checkAll (checkAll types ss).2 ts).2) := by
  induction ss generalizing types with
  | nil => rfl
  | cons s ss ih => rw [List.cons_append, checkAll_cons, ih, checkAll_cons, List.cons_append]

theorem length_checkAll (types : Types) (ss : List Stmt) : (checkAll types ss).1.length = ss.length := by
  induction ss generalizing types with
  | nil => rfl
  | cons s ss ih => rw [checkAll_cons, List.length_cons, List.length_cons, ih]

theorem length_foldAll (values : Values) (ss : List Stmt) : (foldAll values ss).tree.length = ss.length := by
  induction ss generalizing values with
  | nil => rfl
  | cons s ss ih =>
    cases hs : (s.fold values).fault? with
    | some fault => rw [foldAll_cons_of_fault hs, List.length_cons, List.length_cons]
    | none => rw [foldAll_cons_of_no_fault hs, List.length_cons, List.length_cons, ih]

theorem foldAll_append_of_fault {values : Values} {ss : List Stmt} {fault : Fault}
    (h : (foldAll values ss).fault? = some fault) (ts : List Stmt) :
    foldAll values (ss ++ ts) = ⟨(foldAll values ss).tree ++ ts, (foldAll values ss).values, some fault⟩ := by
  induction ss generalizing values with
  | nil => cases h
  | cons s ss ih =>
    cases hs : (s.fold values).fault? with
    | some fault' =>
      rw [foldAll_cons_of_fault hs] at h ⊢
      rw [List.cons_append, foldAll_cons_of_fault hs, ← h, List.cons_append]
    | none =>
      rw [foldAll_cons_of_no_fault hs] at h ⊢
      rw [List.cons_append, foldAll_cons_of_no_fault hs, ih h, List.cons_append]

theorem foldAll_append_of_no_fault {values : Values} {ss : List Stmt}
    (h : (foldAll values ss).fault? = none) (ts : List Stmt) :
    foldAll values (ss ++ ts) =
      ⟨(foldAll values ss).tree ++ (foldAll (foldAll values ss).values ts).tree,
        (foldAll (foldAll values ss).values ts).values, (foldAll (foldAll values ss).values ts).fault?⟩ := by
  induction ss generalizing values with
  | nil => rfl
  | cons s ss ih =>
    cases hs : (s.fold values).fault? with
    | some fault =>
      rw [foldAll_cons_of_fault hs] at h
      cases h
    | none =>
      rw [foldAll_cons_of_no_fault hs] at h ⊢
      rw [List.cons_append, foldAll_cons_of_no_fault hs, ih h, List.cons_append]

section

variable {condition clause : Span} {length : Nat} {ss : List Stmt}

/-- What stands where the run stood goes into the clause, and what stands where the rest stood stays behind it. -/
theorem wrapFirst_append {run rest : List Stmt} (hrun : run.length = (ss.take length).length)
    (hrest : rest.length = (ss.drop length).length) :
    wrapFirst condition clause length (run ++ rest) = ifTrue condition clause run :: rest := by
  rw [List.length_take] at hrun
  rw [List.length_drop] at hrest
  have htake : (run ++ rest).take length = run := by
    rw [List.take_append, List.take_of_length_le (by omega), List.append_right_eq_self, List.take_eq_nil_iff,
      ← List.length_eq_zero_iff]
    omega
  have hdrop : (run ++ rest).drop length = rest := by
    rw [List.drop_append, List.drop_of_length_le (by omega), List.nil_append]
    by_cases hzero : length ≤ run.length
    · rw [Nat.sub_eq_zero_of_le hzero, List.drop_zero]
    · have hempty : rest = [] := List.length_eq_zero_iff.1 (by omega)
      rw [hempty, List.drop_nil]
  rw [wrapFirst, htake, hdrop]

theorem check_ifTrue (types : Types) (body : List Stmt) : (ifTrue condition clause body).check types =
    (ifTrue condition clause (checkAll types body).1, (checkAll types body).2) := by
  rw [ifTrue, check_ifClause]
  rfl

theorem checksAlike_wrapFirst (condition clause : Span) (length : Nat) (ss : List Stmt) :
    ChecksAlike (wrapFirst condition clause length) ss := by
  intro types
  have hsplit := checkAll_append types (ss.take length) (ss.drop length)
  rw [List.take_append_drop] at hsplit
  rw [hsplit, wrapFirst_append (length_checkAll _ _) (length_checkAll _ _), wrapFirst, checkAll_cons, check_ifTrue]

theorem foldsAlike_wrapFirst (condition clause : Span) (length : Nat) (ss : List Stmt) :
    FoldsAlike (fun _ => True) (wrapFirst condition clause length) ss := by
  intro values _
  have hwrapped : wrapFirst condition clause length ss =
      ifTrue condition clause (ss.take length) :: ss.drop length := rfl
  cases hrun : (foldAll values (ss.take length)).fault? with
  | some fault =>
    have hsplit := foldAll_append_of_fault hrun (ss.drop length)
    rw [List.take_append_drop] at hsplit
    rw [hsplit, hwrapped, foldAll_cons_of_fault (s := ifTrue condition clause (ss.take length)) hrun, Folded.map,
      wrapFirst_append (length_foldAll _ _) rfl]
    rfl
  | none =>
    have hsplit := foldAll_append_of_no_fault hrun (ss.drop length)
    rw [List.take_append_drop] at hsplit
    rw [hsplit, hwrapped, foldAll_cons_of_no_fault (s := ifTrue condition clause (ss.take length)) hrun, Folded.map,
      wrapFirst_append (length_foldAll _ _) (length_foldAll _ _)]
    rfl

theorem allDeclarations_append_eq_bind (ss ts : List Stmt) : allDeclarations (ss ++ ts) = do
    return (← allDeclarations ss) ++ (← allDeclarations ts) := by
  induction ss with
  | nil => exact (bind_pure (allDeclarations ts)).symm
  | cons s ss ih => simp only [List.cons_append, allDeclarations, ih, bind_assoc, pure_bind, List.append_assoc]

theorem allBlocks_append_eq_bind (outer : List Selector) (ss ts : List Stmt) : allBlocks outer (ss ++ ts) = do
    return (← allBlocks outer ss) ++ (← allBlocks outer ts) := by
  induction ss with
  | nil => exact (bind_pure (allBlocks outer ts)).symm
  | cons s ss ih => simp only [List.cons_append, allBlocks, ih, bind_assoc, pure_bind, List.append_assoc]

theorem writesAlike_wrapFirst (condition clause : Span) (length : Nat) (ss : List Stmt) :
    WritesAlike (wrapFirst condition clause length) ss := by
  constructor
  · have hsplit := allDeclarations_append_eq_bind (ss.take length) (ss.drop length)
    rw [List.take_append_drop] at hsplit
    rw [hsplit]
    rfl
  · intro outer
    have hsplit := allBlocks_append_eq_bind outer (ss.take length) (ss.drop length)
    rw [List.take_append_drop] at hsplit
    rw [hsplit]
    rfl

end

section

variable {ss : List Stmt} {i : Nat} {s : Stmt}

theorem drop_of_getElem? (h : ss[i]? = some s) : ∃ rest, ss.drop i = s :: rest := by
  obtain ⟨hlt, rfl⟩ := List.getElem?_eq_some_iff.1 h
  exact ⟨ss.drop (i + 1), List.drop_eq_getElem_cons hlt⟩

theorem eraseIdx_eq_modifyTailIdx (i : Nat) :
    (fun ss : List Stmt => ss.eraseIdx i) = fun ss => ss.modifyTailIdx i List.tail :=
  funext fun ss => List.eraseIdx_eq_modifyTailIdx i ss

/-- What an edit does at a statement it does in any list where the statement stands. -/
theorem IsLocal.eraseIdx {P : (List Stmt → List Stmt) → List Stmt → Prop} (hP : IsLocal P)
    (hs : ss[i]? = some s) (h : ∀ rest, P List.tail (s :: rest)) : P (fun ss => ss.eraseIdx i) ss := by
  obtain ⟨rest, hdrop⟩ := drop_of_getElem? hs
  rw [eraseIdx_eq_modifyTailIdx]
  exact hP.further (hdrop ▸ h rest)

end

/-- If there are no problems in the statements, there are none in the edited ones. -/
def StaysClear (f : List Stmt → List Stmt) (ss : List Stmt) : Prop :=
  allDiagnostics ss = [] → allDiagnostics (f ss) = []

theorem staysClear_local : IsLocal StaysClear where
  nil hf _ := by rw [hf]; rfl
  further {f i ss} h := by
    induction i generalizing ss with
    | zero => exact h
    | succ i ih =>
      cases ss with
      | nil => exact fun _ => rfl
      | cons s ss =>
        intro hclear
        obtain ⟨hs, hss⟩ := List.append_eq_nil_iff.1 hclear
        exact List.append_eq_nil_iff.2 ⟨hs, ih h hss⟩
  inside {f s ss} h hclear := by
    obtain ⟨hs, hss⟩ := List.append_eq_nil_iff.1 hclear
    refine List.append_eq_nil_iff.2 ⟨?_, hss⟩
    cases s with
    | rule t body n =>
      obtain ⟨hn, hbody⟩ := List.append_eq_nil_iff.1 hs
      exact List.append_eq_nil_iff.2 ⟨hn, h body rfl hbody⟩
    | ifClause c body n =>
      obtain ⟨hn, hs⟩ := List.append_eq_nil_iff.1 hs
      obtain ⟨hc, hbody⟩ := List.append_eq_nil_iff.1 hs
      exact List.append_eq_nil_iff.2 ⟨hn, List.append_eq_nil_iff.2 ⟨hc, h body rfl hbody⟩⟩
    | _ => exact hs

theorem staysClear_tail (s : Stmt) (ss : List Stmt) : StaysClear List.tail (s :: ss) :=
  fun h => (List.append_eq_nil_iff.1 h).2

section

variable {m n : Note} {body : List Stmt}

theorem writesAlike_tail_of_false (ss : List Stmt) :
    WritesAlike List.tail (ifClause (.literal (.flag false) m) body n :: ss) := by
  constructor
  · exact (bind_pure (allDeclarations ss)).symm
  · intro outer
    exact (bind_pure (allBlocks outer ss)).symm

/-- A clause with the condition `FALSE` still has it when it is folded. -/
theorem getElem?_foldAll_false {values : Values} {ss : List Stmt} {i : Nat}
    (h : (foldAll values ss).fault? = none) (hs : ss[i]? = some (ifClause (.literal (.flag false) m) body n)) :
    ∃ folded, (foldAll values ss).tree[i]? = some (ifClause (.literal (.flag false) m) folded n) := by
  have hlength : i < (foldAll values ss).tree.length := by
    rw [length_foldAll]
    exact (List.getElem?_eq_some_iff.1 hs).1
  obtain ⟨inside, source, hsource, hfault, htree⟩ := getElem?_foldAll h (List.getElem?_eq_getElem hlength)
  obtain rfl := Option.some.inj (hs.symm.trans hsource)
  exact ⟨_, (List.getElem?_eq_getElem hlength).trans (congrArg some htree.symm)⟩

/-- Leaving out a clause that does not hold changes nothing of what is written of the folded statements. -/
theorem writesRulesAlike_eraseIdx {values : Values} {path : List Nat} {ss : List Stmt} {i : Nat}
    (h : (foldAll values ss).fault? = none)
    (hclause : (bodyAt? path ss).bind (·[i]?) = some (ifClause (.literal (.flag false) m) body n)) :
    WritesRulesAlike (editAt (·.eraseIdx i) path) (foldAll values ss).tree := by
  obtain ⟨found, hfound, hat⟩ := Option.bind_eq_some_iff.1 hclause
  cases path with
  | nil =>
    obtain rfl := Option.some.inj hfound
    obtain ⟨folded, hfolded⟩ := getElem?_foldAll_false h hat
    obtain ⟨rest, hdrop⟩ := drop_of_getElem? hfolded
    change WritesRulesAlike (fun ss => ss.eraseIdx i) _
    rw [eraseIdx_eq_modifyTailIdx]
    exact WritesRulesAlike.further (hdrop ▸ fun outer => rfl)
  | cons j path =>
    refine WritesRulesAlike.of_inside fun inner hinner => ?_
    obtain ⟨inside, source, hsource, hfault, rfl⟩ := bodyAt?_foldAll h hinner
    obtain rfl := Option.some.inj (hfound.symm.trans hsource)
    obtain ⟨folded, hfolded⟩ := getElem?_foldAll_false hfault hat
    exact writesAlike_local.eraseIdx hfolded writesAlike_tail_of_false

end

end Stmt

open Stmt

theorem Stylesheet.wrap_transparent (sheet : Stylesheet) (i : Nat) (path : List Nat) (start length : Nat)
    (condition clause : Span) :
    let wrapped := mapBody (editAt (wrap condition clause start length) (i :: path))
    (wrapped sheet).check = wrapped sheet.check ∧ (wrapped sheet).fold = sheet.fold.map wrapped ∧
      (wrapped sheet).fold.tree.css = sheet.fold.tree.css := by
  intro wrapped
  have hchecks : ∀ body, ChecksAlike (wrap condition clause start length) body := fun body =>
    checksAlike_local.further (checksAlike_wrapFirst condition clause length _)
  have hlocal : IsLocal (FoldsAlike fun _ => True) := foldsAlike_local trivial
  have hfolds : ∀ body, FoldsAlike (fun _ => True) (wrap condition clause start length) body := fun body =>
    hlocal.further (foldsAlike_wrapFirst condition clause length _)
  have hwrites : ∀ body, WritesAlike (wrap condition clause start length) body := fun body =>
    writesAlike_local.further (writesAlike_wrapFirst condition clause length _)
  have hfold : (wrapped sheet).fold = sheet.fold.map wrapped :=
    fold_mapBody (hlocal.editAt fun body _ => hfolds body) trivial
  refine ⟨check_mapBody (checksAlike_local.editAt fun body _ => hchecks body), hfold, ?_⟩
  rw [hfold]
  exact css_mapBody (WritesRulesAlike.of_inside fun body _ => hwrites body)

theorem Stylesheet.prune_transparent {sheet : Stylesheet} {path : List Nat} {i : Nat} {m n : Note}
    {body : List Stmt}
    (hclause : (bodyAt? path sheet.body).bind (·[i]?) = some (ifClause (.literal (.flag false) m) body n))
    (hbody : anyAssigns body = false) (h : sheet.check.diagnostics = []) :
    let pruned := sheet.mapBody (editAt (·.eraseIdx i) path)
    pruned.check.diagnostics = [] ∧ ∃ css, sheet.compile = .ok css ∧ pruned.compile = .ok css := by
  intro pruned
  have hself := check_eq_self h
  have hat : ∀ inner, bodyAt? path sheet.body = some inner →
      inner[i]? = some (ifClause (.literal (.flag false) m) body n) := by
    intro inner hinner
    rwa [hinner] at hclause
  have hchecks : ChecksAlike (editAt (·.eraseIdx i) path) sheet.body := checksAlike_local.editAt
    fun inner hinner => checksAlike_local.eraseIdx (hat inner hinner) (checksAlike_tail hbody)
  have hlocal : IsLocal (FoldsAlike (· = none)) := foldsAlike_local rfl
  have hfolds : FoldsAlike (· = none) (editAt (·.eraseIdx i) path) sheet.body := hlocal.editAt
    fun inner hinner => hlocal.eraseIdx (hat inner hinner) (foldsAlike_tail hbody)
  have hclear : StaysClear (editAt (·.eraseIdx i) path) sheet.body := staysClear_local.editAt
    fun inner hinner => staysClear_local.eraseIdx (hat inner hinner) (staysClear_tail _)
  have hfault : sheet.fold.fault? = none := hself ▸ fold_ok_of_check h
  have hpruned : pruned.check.diagnostics = [] := by
    rw [check_mapBody hchecks, hself]
    exact hclear (hself ▸ h)
  obtain ⟨css, hcss⟩ := compile_ok_of_check h
  rw [hself] at hcss
  refine ⟨hpruned, css, hcss, ?_⟩
  have hfold : pruned.fold = sheet.fold.map (mapBody (editAt (·.eraseIdx i) path)) :=
    fold_mapBody hfolds hfault
  have hwritten : (sheet.fold.tree.mapBody (editAt (·.eraseIdx i) path)).css = sheet.fold.tree.css :=
    css_mapBody (writesRulesAlike_eraseIdx hfault hclause)
  rw [← hcss, compile, compile, hfold, Folded.map, hwritten]

/-- Whether statements of a rule stand in a clause that holds makes no difference: the checker finds the same
problems at the same nodes and none in the clause, folding ends with the same fault or with the same values, and the
text is the same. Where the checker finds nothing, a clause that does not hold and that assigns nothing can be left
out, and the text is the same. -/
theorem if_clauses_are_transparent (sheet : Stylesheet) :
    (∀ (i : Nat) (path : List Nat) (start length : Nat) (condition clause : Span),
      let wrapped := Stylesheet.mapBody (editAt (wrap condition clause start length) (i :: path))
      (wrapped sheet).check = wrapped sheet.check ∧ (wrapped sheet).fold = sheet.fold.map wrapped ∧
        (wrapped sheet).fold.tree.css = sheet.fold.tree.css) ∧
    ∀ (path : List Nat) (i : Nat) (m n : Note) (body : List Stmt),
      (bodyAt? path sheet.body).bind (·[i]?) = some (ifClause (.literal (.flag false) m) body n) →
      anyAssigns body = false → sheet.check.diagnostics = [] →
        let pruned := sheet.mapBody (editAt (·.eraseIdx i) path)
        pruned.check.diagnostics = [] ∧ ∃ css, sheet.compile = .ok css ∧ pruned.compile = .ok css :=
  ⟨sheet.wrap_transparent, fun _ _ _ _ _ hclause hbody h => Stylesheet.prune_transparent hclause hbody h⟩

/-- The wrapped run ends with an assignment that the rest of the rule reads, and in the clause that does not hold
only a nested rule assigns. -/
theorem if_clauses_are_transparent_assigning :
    let n : Note := .clear .nowhere
    let pixels (p : Int32) : Expr := .literal (.number .pixel p) n
    let width (e : Expr) : Stmt := .declaration "width" e n
    let set (p : Int32) : Stmt := .assignment "W" (pixels p) n
    let clause : Stmt := .ifClause (.literal (.flag false) n)
      [.rule (.tag "b") [set 2, width (.reference "W" n)] n, width (pixels 3)] n
    let sheet : Stylesheet := ⟨[.rule (.tag "a")
      [width (pixels 0), .rule (.tag "p") [] n, set 1, clause, width (.reference "W" n)] n], .nowhere⟩
    let wrapped := Stylesheet.mapBody (editAt (wrap .nowhere .nowhere 1 2) [0])
    let pruned : Stylesheet := ⟨[.rule (.tag "a")
      [width (pixels 0), .rule (.tag "p") [] n, set 1, width (.reference "W" n)] n], .nowhere⟩
    sheet.check.diagnostics = [] ∧ (wrapped sheet).fold = sheet.fold.map wrapped ∧
      ∃ css, sheet.compile = .ok css ∧ pruned.compile = .ok css := by
  intro n pixels width set clause sheet wrapped pruned
  have hclear : sheet.check.diagnostics = [] := by decide +kernel
  obtain ⟨hwrap, hprune⟩ := if_clauses_are_transparent sheet
  exact ⟨hclear, (hwrap 0 [] 1 2 .nowhere .nowhere).2.1, (hprune [0] 3 n n _ rfl rfl hclear).2⟩

end TypedCss
