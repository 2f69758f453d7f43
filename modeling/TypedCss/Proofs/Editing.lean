import TypedCss.Proofs.Bare
import TypedCss.Proofs.Confinement

/-!
# Edits of stylesheets

An edit changes the statements of one body, which is found by a path of positions. If the checker, the folder
and the generator treat the body and the edited one alike, they treat the whole stylesheet and the edited one
alike.
-/

namespace TypedCss

/-- The same outcome with the tree changed. -/
def Folded.map {α β : Type} (f : α → β) (r : Folded α) : Folded β := { r with tree := f r.tree }

namespace Stmt

def body? : Stmt → Option (List Stmt)
  | rule _ body _ => some body
  | ifClause _ body _ => some body
  | _ => none

def mapBody (f : List Stmt → List Stmt) : Stmt → Stmt
  | rule s body n => rule s (f body) n
  | ifClause c body n => ifClause c (f body) n
  | s => s

/-- The body at a path: each position on it is that of a statement in the body before. -/
def bodyAt? : List Nat → List Stmt → Option (List Stmt)
  | [], ss => some ss
  | i :: path, ss => ss[i]?.bind fun s => s.body?.bind (bodyAt? path)

/-- Edits the body at a path. -/
def editAt (f : List Stmt → List Stmt) : List Nat → List Stmt → List Stmt
  | [], ss => f ss
  | i :: path, ss => ss.modifyTailIdx i (List.modifyHead (mapBody (editAt f path)))

theorem isRule_mapBody (f : List Stmt → List Stmt) (s : Stmt) : (s.mapBody f).isRule = s.isRule := by
  cases s <;> rfl

/-- The body at a path that begins with a statement of the given list. -/
theorem bodyAt?_cons_of_drop {i : Nat} {path : List Nat} {ss rest : List Stmt} {s : Stmt} {body : List Stmt}
    (hs : ss.drop i = s :: rest) (hbody : s.body? = some body) : bodyAt? (i :: path) ss = bodyAt? path body := by
  have hget : ss[i]? = some s := by rw [← List.head?_drop, hs, List.head?_cons]
  rw [bodyAt?, hget, Option.bind_some, hbody, Option.bind_some]

/-- A property of edits that carries over to edits further back in a list, and inside a statement of it. -/
structure IsLocal (P : (List Stmt → List Stmt) → List Stmt → Prop) : Prop where
  nil : ∀ {f}, f [] = [] → P f []
  further : ∀ {f i ss}, P f (ss.drop i) → P (fun ss => ss.modifyTailIdx i f) ss
  inside : ∀ {f s ss}, (∀ body, s.body? = some body → P f body) → P (List.modifyHead (mapBody f)) (s :: ss)

theorem IsLocal.editAt {P : (List Stmt → List Stmt) → List Stmt → Prop} (hP : IsLocal P)
    {f : List Stmt → List Stmt} {path : List Nat} {ss : List Stmt}
    (h : ∀ body, bodyAt? path ss = some body → P f body) : P (Stmt.editAt f path) ss := by
  induction path generalizing ss with
  | nil => exact h ss rfl
  | cons i path ih =>
    refine hP.further ?_
    cases hs : ss.drop i with
    | nil => exact hP.nil rfl
    | cons s rest =>
      refine hP.inside fun body hbody => ih fun inner hinner => h inner ?_
      rw [bodyAt?_cons_of_drop hs hbody, hinner]

/-- The checker finds in the edited statements what it finds in these statements, and the same types after
them. -/
def ChecksAlike (f : List Stmt → List Stmt) (ss : List Stmt) : Prop :=
  ∀ types, checkAll types (f ss) = (f (checkAll types ss).1, (checkAll types ss).2)

theorem checksAlike_local : IsLocal ChecksAlike where
  nil hf types := by simp [hf, checkAll]
  further {f i ss} h := by
    induction i generalizing ss with
    | zero => exact h
    | succ i ih =>
      cases ss with
      | nil => exact fun types => rfl
      | cons s ss =>
        intro types
        have hss := ih h (s.check types).2
        simp only [checkAll_cons, List.modifyTailIdx_succ_cons, hss]
  inside {f s ss} h types := by
    cases s with
    | rule t body n => simp only [List.modifyHead_cons, mapBody, checkAll_cons, check_rule, h body rfl types.enter]
    | ifClause c body n =>
      simp only [List.modifyHead_cons, mapBody, checkAll_cons, check_ifClause, h body rfl types]
    | _ => rfl

theorem checkAll_cons_of_not_assigns {s : Stmt} (h : s.assigns = false) (ss : List Stmt) (types : Types) :
    checkAll types (s :: ss) = ((s.check types).1 :: (checkAll types ss).1, (checkAll types ss).2) := by
  rw [checkAll_cons, check_types_of_not_assigns types h]

theorem checksAlike_tail {s : Stmt} (h : s.assigns = false) (ss : List Stmt) :
    ChecksAlike List.tail (s :: ss) := by
  intro types
  rw [checkAll_cons_of_not_assigns h]
  rfl

/-- The edited statements fold to the edited outcome of folding, if the fault in this one is as given. -/
def FoldsAlike (ok : Option Fault → Prop) (f : List Stmt → List Stmt) (ss : List Stmt) : Prop :=
  ∀ values, ok (foldAll values ss).fault? → foldAll values (f ss) = (foldAll values ss).map f

theorem fold_mapBody {ok : Option Fault → Prop} {f : List Stmt → List Stmt} {values : Values} {s : Stmt}
    (h : ∀ body, s.body? = some body → FoldsAlike ok f body) (hok : ok (s.fold values).fault?) :
    (s.mapBody f).fold values = (s.fold values).map (mapBody f) := by
  cases s with
  | assignment x e n =>
    change (assignment x e n).fold values = _
    rw [fold]
    cases e.eval values <;> rfl
  | declaration p e n =>
    change (declaration p e n).fold values = _
    rw [fold]
    cases e.fold values <;> rfl
  | rule s body n =>
    rw [mapBody, fold, h body rfl values.enter hok, fold]
    rfl
  | ifClause c body n =>
    rw [fold] at hok
    rw [mapBody, fold, fold]
    cases hc : c.fold values with
    | error fault => rfl
    | ok v =>
      simp only [hc] at hok
      simp only [h body rfl values hok]
      rfl

theorem foldsAlike_local {ok : Option Fault → Prop} (hnone : ok none) : IsLocal (FoldsAlike ok) where
  nil hf values _ := by simp [hf, foldAll, Folded.map]
  further {f i ss} h := by
    induction i generalizing ss with
    | zero => exact h
    | succ i ih =>
      cases ss with
      | nil => exact fun values _ => rfl
      | cons s ss =>
        intro values hok
        change foldAll values (s :: ss.modifyTailIdx i f) = _
        cases hs : (s.fold values).fault? with
        | some fault =>
          rw [foldAll_cons_of_fault hs, foldAll_cons_of_fault hs]
          rfl
        | none =>
          rw [foldAll_cons_of_no_fault hs] at hok
          rw [foldAll_cons_of_no_fault hs, foldAll_cons_of_no_fault hs, ih h _ hok]
          rfl
  inside {f s ss} h values hok := by
    change foldAll values (s.mapBody f :: ss) = _
    cases hs : (s.fold values).fault? with
    | some fault =>
      rw [foldAll_cons_of_fault hs] at hok ⊢
      have hhead := fold_mapBody h (hs ▸ hok)
      have hfault : ((s.mapBody f).fold values).fault? = some fault := by rw [hhead, ← hs, Folded.map]
      rw [foldAll_cons_of_fault hfault, hhead]
      rfl
    | none =>
      have hhead := fold_mapBody h (hs ▸ hnone)
      have hfault : ((s.mapBody f).fold values).fault? = none := by rw [hhead, ← hs, Folded.map]
      rw [foldAll_cons_of_no_fault hfault, foldAll_cons_of_no_fault hs, hhead]
      rfl

/-- A statement without assignments of its own, in front of others, folds where they fold too. -/
theorem foldAll_cons_of_not_assigns {s : Stmt} {ss : List Stmt} {values : Values} (h : s.assigns = false)
    (hs : (s.fold values).fault? = none) :
    foldAll values (s :: ss) =
      ⟨(s.fold values).tree :: (foldAll values ss).tree, (foldAll values ss).values, (foldAll values ss).fault?⟩ := by
  rw [foldAll_cons_of_no_fault hs, fold_values_of_not_assigns h hs]

theorem fold_ok_of_cons {s : Stmt} {ss : List Stmt} {values : Values}
    (h : (foldAll values (s :: ss)).fault? = none) : (s.fold values).fault? = none := by
  cases hs : (s.fold values).fault? with
  | none => rfl
  | some fault =>
    rw [foldAll_cons_of_fault hs] at h
    cases h

theorem foldsAlike_tail {s : Stmt} (h : s.assigns = false) (ss : List Stmt) :
    FoldsAlike (· = none) List.tail (s :: ss) := by
  intro values hok
  rw [foldAll_cons_of_not_assigns h (fold_ok_of_cons hok)]
  rfl

/-- The generator collects the same declarations and the same blocks from the edited statements. -/
structure WritesAlike (f : List Stmt → List Stmt) (ss : List Stmt) : Prop where
  declarations : allDeclarations (f ss) = allDeclarations ss
  blocks : ∀ outer, allBlocks outer (f ss) = allBlocks outer ss

section

variable {f : List Stmt → List Stmt} {s : Stmt}

theorem declarations_mapBody (h : ∀ body, s.body? = some body → WritesAlike f body) :
    (s.mapBody f).declarations = s.declarations := by
  cases s with
  | ifClause c body n => simp only [mapBody, declarations, (h body rfl).declarations]
  | _ => rfl

theorem blocks_mapBody (h : ∀ body, s.body? = some body → WritesAlike f body) (outer : List Selector) :
    (s.mapBody f).blocks outer = s.blocks outer := by
  cases s with
  | rule t body n => simp only [mapBody, blocks, lines, (h body rfl).declarations, (h body rfl).blocks]
  | ifClause c body n => simp only [mapBody, blocks, (h body rfl).blocks]
  | _ => rfl

end

theorem writesAlike_local : IsLocal WritesAlike where
  nil hf := ⟨by rw [hf], fun outer => by rw [hf]⟩
  further {f i ss} h := by
    induction i generalizing ss with
    | zero => exact h
    | succ i ih =>
      cases ss with
      | nil => exact ⟨rfl, fun _ => rfl⟩
      | cons s ss =>
        obtain ⟨hdeclarations, hblocks⟩ := ih h
        constructor
        · simp only [List.modifyTailIdx_succ_cons, allDeclarations, hdeclarations]
        · intro outer
          simp only [List.modifyTailIdx_succ_cons, allBlocks, hblocks]
  inside h := by
    constructor
    · simp only [List.modifyHead_cons, allDeclarations, declarations_mapBody h]
    · intro outer
      simp only [List.modifyHead_cons, allBlocks, blocks_mapBody h]

/-- The generator collects the same blocks from the rules among the edited statements. -/
def WritesRulesAlike (f : List Stmt → List Stmt) (ss : List Stmt) : Prop :=
  ∀ outer, allBlocks outer ((f ss).filter isRule) = allBlocks outer (ss.filter isRule)

theorem WritesRulesAlike.further {f : List Stmt → List Stmt} {i : Nat} {ss : List Stmt}
    (h : WritesRulesAlike f (ss.drop i)) : WritesRulesAlike (fun ss => ss.modifyTailIdx i f) ss := by
  induction i generalizing ss with
  | zero => exact h
  | succ i ih =>
    cases ss with
    | nil => exact fun outer => rfl
    | cons s ss =>
      intro outer
      have hss := ih h outer
      by_cases hs : s.isRule
      · simp only [List.modifyTailIdx_succ_cons, List.filter_cons_of_pos hs, allBlocks, hss]
      · simp only [List.modifyTailIdx_succ_cons, List.filter_cons_of_neg hs, hss]

/-- An edit inside a statement at the top level. -/
theorem WritesRulesAlike.of_inside {f : List Stmt → List Stmt} {i : Nat} {path : List Nat} {ss : List Stmt}
    (h : ∀ body, bodyAt? (i :: path) ss = some body → WritesAlike f body) :
    WritesRulesAlike (editAt f (i :: path)) ss := by
  refine further fun outer => ?_
  cases hs : ss.drop i with
  | nil => rfl
  | cons s rest =>
    have hbody : ∀ body, s.body? = some body → WritesAlike (editAt f path) body := fun body hbody =>
      writesAlike_local.editAt fun inner hinner => h inner ((bodyAt?_cons_of_drop hs hbody).trans hinner)
    by_cases hrule : s.isRule
    · have hedited : (s.mapBody (editAt f path)).isRule := (isRule_mapBody _ s).trans hrule
      simp only [List.modifyHead_cons, List.filter_cons_of_pos hrule, List.filter_cons_of_pos hedited, allBlocks,
        blocks_mapBody hbody]
    · have hedited : ¬(s.mapBody (editAt f path)).isRule := by rwa [isRule_mapBody]
      simp only [List.modifyHead_cons, List.filter_cons_of_neg hrule, List.filter_cons_of_neg hedited]

/-- A statement of a folded list is a folded statement. -/
theorem getElem?_foldAll {values : Values} {ss : List Stmt} {i : Nat} {s : Stmt}
    (h : (foldAll values ss).fault? = none) (hs : (foldAll values ss).tree[i]? = some s) :
    ∃ inside source, ss[i]? = some source ∧ (source.fold inside).fault? = none ∧
      (source.fold inside).tree = s := by
  induction ss generalizing values i with
  | nil => cases hs
  | cons t ss ih =>
    cases ht : (t.fold values).fault? with
    | some fault =>
      rw [foldAll_cons_of_fault ht] at h
      cases h
    | none =>
      rw [foldAll_cons_of_no_fault ht] at h hs
      cases i with
      | zero => exact ⟨values, t, rfl, ht, Option.some.inj hs⟩
      | succ i => exact ih h hs

theorem body?_fold {values : Values} {s : Stmt} {body : List Stmt} (h : (s.fold values).fault? = none)
    (hbody : (s.fold values).tree.body? = some body) :
    ∃ inside source, s.body? = some source ∧ (foldAll inside source).fault? = none ∧
      (foldAll inside source).tree = body := by
  cases s with
  | assignment x e n =>
    rw [fold] at hbody
    cases he : e.eval values <;> rw [he] at hbody <;> cases hbody
  | declaration p e n =>
    rw [fold] at hbody
    cases he : e.fold values <;> rw [he] at hbody <;> cases hbody
  | rule s source n => exact ⟨values.enter, source, rfl, h, Option.some.inj hbody⟩
  | ifClause c source n =>
    rw [fold] at h hbody
    cases hc : c.fold values with
    | error fault =>
      rw [hc] at h
      cases h
    | ok v =>
      rw [hc] at h hbody
      exact ⟨values, source, rfl, h, Option.some.inj hbody⟩

/-- A body of a folded list is a folded body. -/
theorem bodyAt?_foldAll {values : Values} {path : List Nat} {ss body : List Stmt}
    (h : (foldAll values ss).fault? = none) (hbody : bodyAt? path (foldAll values ss).tree = some body) :
    ∃ inside source, bodyAt? path ss = some source ∧ (foldAll inside source).fault? = none ∧
      (foldAll inside source).tree = body := by
  induction path generalizing values ss with
  | nil => exact ⟨values, ss, rfl, h, Option.some.inj hbody⟩
  | cons i path ih =>
    obtain ⟨s, hs, hbody⟩ := Option.bind_eq_some_iff.1 hbody
    obtain ⟨first, hfirst, hbody⟩ := Option.bind_eq_some_iff.1 hbody
    obtain ⟨_, source, hsource, hfault, rfl⟩ := getElem?_foldAll h hs
    obtain ⟨_, firstSource, hfirstSource, hfault, rfl⟩ := body?_fold hfault hfirst
    obtain ⟨inside, found, hfound, hfault, rfl⟩ := ih hfault hbody
    refine ⟨inside, found, ?_, hfault, rfl⟩
    rw [bodyAt?, hsource, Option.bind_some, hfirstSource, Option.bind_some, hfound]

end Stmt

/-- The stylesheet with its statements edited. -/
def Stylesheet.mapBody (f : List Stmt → List Stmt) (sheet : Stylesheet) : Stylesheet :=
  { sheet with body := f sheet.body }

namespace Stylesheet

variable {f : List Stmt → List Stmt} {sheet : Stylesheet}

theorem check_mapBody (h : Stmt.ChecksAlike f sheet.body) : (sheet.mapBody f).check = sheet.check.mapBody f := by
  simp only [check, checkIn, mapBody, h .empty]

theorem fold_mapBody {ok : Option Fault → Prop} (h : Stmt.FoldsAlike ok f sheet.body)
    (hok : ok sheet.fold.fault?) : (sheet.mapBody f).fold = sheet.fold.map (mapBody f) := by
  simp only [fold, foldIn, mapBody, h .empty hok]
  rfl

theorem css_mapBody (h : Stmt.WritesRulesAlike f sheet.body) : (sheet.mapBody f).css = sheet.css := by
  simp only [css, blocks, mapBody, h []]

end Stylesheet

end TypedCss
