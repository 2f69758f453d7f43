import Mathlib.Data.List.Infix
import Mathlib.Data.List.Induction
import TypedCss.Proofs.BindingSite

/-!
# Scopes and their history

What scopes hold can be said without a stack, by the calls that were made on them. A scope is named by the number of the
call that opened it. It is open for as long as no later call has closed it, and a variable in it has the value that was
declared last while it was the innermost one.
-/

namespace TypedCss

namespace Scopes

/-- What can be done to scopes. -/
inductive Call (α : Type) where
  | enter
  | leave
  | declare (name : String) (a : α)

namespace Call

variable {α : Type}

def isEnter : Call α → Bool
  | enter => true
  | _ => false

def isLeave : Call α → Bool
  | leave => true
  | _ => false

/-- The name that is declared, and its value. -/
def binding? : Call α → Option (String × α)
  | declare name a => some (name, a)
  | _ => none

/-- At no time do the calls close more scopes than they open. -/
def keepOpen (calls : List (Call α)) : Bool :=
  calls.inits.all fun early => early.countP isLeave ≤ early.countP isEnter

/-- The call with this number opens a scope, and no later call closes it. -/
def isOpening (calls : List (Call α)) (i : Nat) : Bool := calls[i]?.any isEnter && keepOpen (calls.drop (i + 1))

/-- The numbers of the calls that opened the scopes which are still open, in their order. -/
def openings (calls : List (Call α)) : List Nat := (List.range calls.length).filter (isOpening calls)

/-- The number of the call that opened the innermost scope, unless this is the global one. -/
def innermost? (calls : List (Call α)) : Option Nat := (openings calls).getLast?

/-- All open scopes from the innermost out. The global one was opened by no call. -/
def openScopes (calls : List (Call α)) : List (Option Nat) := (openings calls).reverse.map some ++ [none]

/-- The value that was last declared for the name at a time when the calls so far passed the test. -/
def lastDeclared? (calls : List (Call α)) (name : String) (test : List (Call α) → Bool) : Option α :=
  (latest? (fun i => (calls[i]?.bind binding?).any (·.1 == name) && test (calls.take i)) calls.length).bind
    fun i => (calls[i]?.bind binding?).map Prod.snd

/-- The value of the name in a scope: the last one declared while the scope was the innermost. -/
def current? (calls : List (Call α)) (name : String) (scope? : Option Nat) : Option α :=
  lastDeclared? calls name fun before => innermost? before == scope?

end Call

variable {α : Type}

def apply (s : Scopes α) : Call α → Scopes α
  | .enter => s.enter
  | .leave => s.leave
  | .declare name a => s.declare name a

/-- The scopes after some calls; there is only the global one at first. -/
def after (calls : List (Call α)) : Scopes α := calls.foldl apply empty

theorem after_concat (calls : List (Call α)) (c : Call α) : after (calls ++ [c]) = (after calls).apply c := by
  rw [after, List.foldl_append]
  rfl

namespace Call

variable {calls : List (Call α)} {c : Call α} {i j : Nat}

section Openings

theorem keepOpen_iff : keepOpen calls ↔ ∀ early, early <+: calls → early.countP isLeave ≤ early.countP isEnter := by
  simp only [keepOpen, List.all_eq_true, List.mem_inits, decide_eq_true_eq]

theorem keepOpen_concat : keepOpen (calls ++ [c]) ↔
    keepOpen calls ∧ (calls ++ [c]).countP isLeave ≤ (calls ++ [c]).countP isEnter := by
  simp only [keepOpen_iff]
  constructor
  · exact fun h => ⟨fun early hearly => h early (hearly.trans (List.prefix_append calls [c])), h _ List.prefix_rfl⟩
  · rintro ⟨h, hall⟩ early hearly
    rcases List.prefix_concat_iff.1 hearly with rfl | hearly
    · exact hall
    · exact h early hearly

/-- The calls after an opening close no more scopes than they open. -/
theorem count_le_of_isOpening (h : isOpening calls i) :
    (calls.drop (i + 1)).countP isLeave ≤ (calls.drop (i + 1)).countP isEnter :=
  keepOpen_iff.1 (Bool.and_eq_true_iff.1 h).2 _ List.prefix_rfl

theorem lt_length_of_isOpening (h : isOpening calls i) : i < calls.length := by
  refine Nat.lt_of_not_le fun hle => ?_
  rw [isOpening, List.getElem?_eq_none hle] at h
  cases h

theorem mem_openings : i ∈ openings calls ↔ isOpening calls i := by
  rw [openings, List.mem_filter, List.mem_range]
  exact and_iff_right_of_imp lt_length_of_isOpening

theorem isOpening_drop (n i : Nat) : isOpening (calls.drop n) i = isOpening calls (n + i) := by
  rw [isOpening, isOpening, List.getElem?_drop, List.drop_drop, Nat.add_assoc]

/-- Where no scope stays open, more are closed than opened from any time on. -/
theorem count_le_of_no_opening (h : ∀ i, isOpening calls i = false) {later : List (Call α)} (hlater : later <:+ calls) :
    later.countP isEnter ≤ later.countP isLeave := by
  induction calls generalizing later with
  | nil =>
    obtain rfl := List.suffix_nil.1 hlater
    exact Nat.le_refl 0
  | cons c calls ih =>
    have hrest {later : List (Call α)} (hlater : later <:+ calls) := ih (fun i => h (i + 1)) hlater
    rcases List.suffix_cons_iff.1 hlater with rfl | hlater
    · have hcalls := hrest List.suffix_rfl
      cases c with
      | leave =>
        simp only [List.countP_cons, isEnter, isLeave, Bool.false_eq_true, if_false, if_true]
        omega
      | declare x a => exact hcalls
      | enter =>
        -- Some early calls close the scope again, and later ones open none that stays.
        have hclosed : keepOpen calls = false := h 0
        obtain ⟨early, ⟨later, rfl⟩, hearly⟩ : ∃ early, early <+: calls ∧
            ¬early.countP isLeave ≤ early.countP isEnter := by
          simpa [keepOpen_iff] using mt keepOpen_iff.2 (Bool.eq_false_iff.1 hclosed)
        have hlater := hrest (List.suffix_append early later)
        simp only [List.countP_append, List.countP_cons, isEnter, isLeave, Bool.false_eq_true, if_false, if_true]
          at hlater ⊢
        omega
    · exact hrest hlater

theorem isOpening_concat_of_lt (h : i < calls.length) (c : Call α) : isOpening (calls ++ [c]) i ↔
    isOpening calls i ∧
      (calls.drop (i + 1) ++ [c]).countP isLeave ≤ (calls.drop (i + 1) ++ [c]).countP isEnter := by
  rw [isOpening, List.getElem?_append_left h, List.drop_append_of_le_length h, Bool.and_eq_true_iff, keepOpen_concat,
    ← and_assoc, ← Bool.and_eq_true_iff]
  rfl

/-- Between an opening and a later one, as many scopes are opened as closed at least. -/
theorem count_lt_of_isOpening (hi : isOpening calls i) (hj : isOpening calls j) (hij : i < j) :
    (calls.drop (i + 1)).countP isLeave < (calls.drop (i + 1)).countP isEnter := by
  have hbetween := keepOpen_iff.1 (Bool.and_eq_true_iff.1 hi).2 _ (List.take_prefix (j - (i + 1)) _)
  have hafter := count_le_of_isOpening hj
  have hlt := lt_length_of_isOpening hj
  have henter : calls[j].isEnter := by
    simpa [List.getElem?_eq_getElem hlt] using (Bool.and_eq_true_iff.1 hj).1
  have hleave : calls[j].isLeave = false := by
    cases hcall : calls[j] <;> simp_all [isEnter, isLeave]
  have hsplit : calls.drop (i + 1) = (calls.drop (i + 1)).take (j - (i + 1)) ++ calls[j] :: calls.drop (j + 1) := by
    rw [← List.drop_eq_getElem_cons hlt]
    conv => lhs; rw [← List.take_append_drop (j - (i + 1)) (calls.drop (i + 1)), List.drop_drop, Nat.add_sub_of_le hij]
  rw [hsplit, List.countP_append, List.countP_append, List.countP_cons_of_pos henter,
    List.countP_cons_of_neg (Bool.eq_false_iff.1 hleave)]
  omega

theorem openings_concat (calls : List (Call α)) (c : Call α) : openings (calls ++ [c]) =
    (openings calls).filter (fun i => (calls.drop (i + 1) ++ [c]).countP isLeave ≤
      (calls.drop (i + 1) ++ [c]).countP isEnter) ++ if c.isEnter then [calls.length] else [] := by
  have hlast : isOpening (calls ++ [c]) calls.length = c.isEnter := by
    rw [isOpening, List.getElem?_concat_length, List.drop_eq_nil_of_le (by simp)]
    exact Bool.and_true _
  rw [openings, List.length_append, List.length_singleton, List.range_succ, List.filter_append, List.filter_singleton,
    hlast, Bool.cond_eq_ite, openings, List.filter_filter]
  congr 1
  refine List.filter_congr fun i hi => ?_
  rw [Bool.eq_iff_iff, isOpening_concat_of_lt (List.mem_range.1 hi), and_comm, Bool.and_eq_true_iff, decide_eq_true_iff]

theorem openings_concat_of_not_isLeave (h : c.isLeave = false) :
    openings (calls ++ [c]) = openings calls ++ if c.isEnter then [calls.length] else [] := by
  rw [openings_concat, List.filter_eq_self.2]
  intro i hi
  have hle := count_le_of_isOpening (mem_openings.1 hi)
  rw [decide_eq_true_iff, List.countP_append, List.countP_append, List.countP_singleton, h]
  exact Nat.le_add_right_of_le hle

theorem openings_pairwise (calls : List (Call α)) : (openings calls).Pairwise (· < ·) := List.pairwise_lt_range.filter _

/-- Leaving closes the scope that was opened last. -/
theorem openings_concat_leave (calls : List (Call α)) : openings (calls ++ [leave]) = (openings calls).dropLast := by
  rw [openings_concat]
  rcases List.eq_nil_or_concat (openings calls) with hnil | ⟨ks, k, hks⟩
  · rw [hnil]
    rfl
  rw [List.concat_eq_append] at hks
  have hmem (i : Nat) : isOpening calls i ↔ i ∈ ks ∨ i = k := by
    rw [← mem_openings, hks, List.mem_append, List.mem_singleton]
  have hsorted := openings_pairwise calls
  rw [hks, List.pairwise_append] at hsorted
  have hlt : ∀ i ∈ ks, i < k := fun i hi => hsorted.2.2 i hi k List.mem_cons_self
  have hks' : ks.filter (fun i => (calls.drop (i + 1) ++ [leave]).countP isLeave ≤
      (calls.drop (i + 1) ++ [leave]).countP isEnter) = ks := by
    refine List.filter_eq_self.2 fun i hi => ?_
    have hcount := count_lt_of_isOpening ((hmem i).2 (.inl hi)) ((hmem k).2 (.inr rfl)) (hlt i hi)
    rw [decide_eq_true_iff, List.countP_append, List.countP_append]
    exact hcount
  -- No scope that was opened after the last of these is open.
  have hnone (i : Nat) : isOpening (calls.drop (k + 1)) i = false := by
    rw [isOpening_drop, Bool.eq_false_iff]
    intro hopen
    rcases (hmem _).1 hopen with hi | hi
    · have := hlt _ hi
      omega
    · omega
  have hk := count_le_of_no_opening hnone List.suffix_rfl
  have hk' : ¬(calls.drop (k + 1) ++ [leave]).countP isLeave ≤ (calls.drop (k + 1) ++ [leave]).countP isEnter := by
    rw [List.countP_append, List.countP_append]
    exact Nat.not_le_of_lt (Nat.lt_succ_of_le hk)
  rw [hks, List.filter_append, hks', List.dropLast_concat, List.filter_singleton, decide_eq_false hk']
  exact (List.append_nil _).trans (List.append_nil ks)

theorem lt_length_of_innermost? (h : innermost? calls = some i) : i < calls.length :=
  lt_length_of_isOpening (mem_openings.1 (List.mem_of_getLast? h))

end Openings

section Frames

/-- What is declared in a scope, the latest first. -/
def frame (calls : List (Call α)) (scope? : Option Nat) : Frame α :=
  ((List.range calls.length).filterMap fun i =>
    if innermost? (calls.take i) = scope? then calls[i]?.bind binding? else none).reverse

theorem frame_concat (calls : List (Call α)) (c : Call α) (scope? : Option Nat) : frame (calls ++ [c]) scope? =
    (if innermost? calls = scope? then c.binding? else none).toList ++ frame calls scope? := by
  have hlast : (calls ++ [c])[calls.length]?.bind binding? = c.binding? := by
    rw [List.getElem?_concat_length, Option.bind_some]
  have hbefore : ∀ i ∈ List.range calls.length,
      (if innermost? ((calls ++ [c]).take i) = scope? then (calls ++ [c])[i]?.bind binding? else none) =
        if innermost? (calls.take i) = scope? then calls[i]?.bind binding? else none := by
    intro i hi
    have hlt := List.mem_range.1 hi
    rw [List.take_append_of_le_length (Nat.le_of_lt hlt), List.getElem?_append_left hlt]
  rw [frame, List.length_append, List.length_singleton, List.range_succ, List.filterMap_append,
    List.filterMap_congr hbefore, List.reverse_append, frame]
  congr 1
  rw [List.filterMap_cons, List.take_left, hlast]
  cases (if innermost? calls = scope? then c.binding? else none) <;> rfl

theorem frame_concat_of_binding?_eq_none (h : c.binding? = none) (scope? : Option Nat) :
    frame (calls ++ [c]) scope? = frame calls scope? := by
  rw [frame_concat, h, ite_self]
  rfl

theorem lastDeclared?_concat (calls : List (Call α)) (c : Call α) (name : String) (test : List (Call α) → Bool) :
    lastDeclared? (calls ++ [c]) name test =
      if c.binding?.any (·.1 == name) && test calls then c.binding?.map Prod.snd
      else lastDeclared? calls name test := by
  have hlast : (calls ++ [c])[calls.length]?.bind binding? = c.binding? := by
    rw [List.getElem?_concat_length, Option.bind_some]
  have hbefore (i : Nat) (hi : i < calls.length) :
      (calls ++ [c])[i]? = calls[i]? ∧ (calls ++ [c]).take i = calls.take i :=
    ⟨List.getElem?_append_left hi, List.take_append_of_le_length (Nat.le_of_lt hi)⟩
  rw [lastDeclared?, List.length_append, List.length_singleton, latest?, List.take_left, hlast]
  split
  · rw [Option.bind_some, hlast]
  · rw [latest?_congr fun i hi => by rw [(hbefore i hi).1, (hbefore i hi).2]]
    refine Option.bind_congr fun i hi => ?_
    rw [(hbefore i (latest?_eq_some.1 hi).1).1]

theorem lookup_frame (calls : List (Call α)) (scope? : Option Nat) (name : String) :
    (frame calls scope?).lookup name = current? calls name scope? := by
  induction calls using List.reverseRecOn with
  | nil => rfl
  | append_singleton calls c ih =>
    rw [frame_concat, current?, lastDeclared?_concat, ← current?, ← ih]
    by_cases hscope : innermost? calls = scope?
    · cases c with
      | enter => simp [binding?]
      | leave => simp [binding?]
      | declare x a =>
        have hname : (name == x) = (x == name) := Bool.beq_comm
        cases hx : x == name <;> simp [binding?, hscope, List.lookup_cons, hname, hx]
    · simp [hscope]

/-- No call has been made in the scope that the next one opens. -/
theorem frame_fresh (calls : List (Call α)) : frame calls (some calls.length) = [] := by
  rw [frame, List.reverse_eq_nil_iff, List.filterMap_eq_nil_iff]
  intro i hi
  refine if_neg fun h => ?_
  have hlt := lt_length_of_innermost? h
  rw [List.length_take] at hlt
  omega

end Frames

end Call

open Call

/-- The scopes are those that the calls leave open, each with what was declared in it. -/
theorem after_eq (calls : List (Call α)) :
    after calls = ⟨(openings calls).reverse.map fun i => frame calls (some i), frame calls none⟩ := by
  induction calls using List.reverseRecOn with
  | nil => rfl
  | append_singleton calls c ih =>
    rw [after_concat, ih]
    cases c with
    | enter =>
      have hframe : ∀ scope?, frame (calls ++ [.enter]) scope? = frame calls scope? :=
        frame_concat_of_binding?_eq_none rfl
      rw [openings_concat_of_not_isLeave rfl, List.reverse_append]
      simp only [hframe, isEnter, if_true, List.reverse_singleton, List.singleton_append, List.map_cons, frame_fresh]
      rfl
    | leave =>
      have hframe : ∀ scope?, frame (calls ++ [.leave]) scope? = frame calls scope? :=
        frame_concat_of_binding?_eq_none rfl
      rw [openings_concat_leave, ← List.tail_reverse, List.map_tail]
      simp only [hframe]
      rfl
    | declare name a =>
      have hopenings : openings (calls ++ [.declare name a]) = openings calls :=
        (openings_concat_of_not_isLeave rfl).trans (List.append_nil _)
      have hframe (scope? : Option Nat) : frame (calls ++ [.declare name a]) scope? =
          if (openings calls).getLast? = scope? then (name, a) :: frame calls scope? else frame calls scope? := by
        rw [frame_concat, innermost?, binding?]
        split <;> rfl
      rw [hopenings]
      rcases List.eq_nil_or_concat (openings calls) with hnil | ⟨ks, k, hks⟩
      · simp [hnil, hframe, apply, Scopes.declare]
      · have hne : ∀ i ∈ ks, k ≠ i := by
          have hsorted := openings_pairwise calls
          rw [hks, List.concat_eq_append, List.pairwise_append] at hsorted
          exact fun i hi => Nat.ne_of_gt (hsorted.2.2 i hi k List.mem_cons_self)
        simpa [hks, hframe, apply, Scopes.declare] using hne

theorem depth_after (calls : List (Call α)) : (after calls).depth = (openings calls).length + 1 := by
  rw [after_eq, depth, List.length_map, List.length_reverse]

theorem frames_after (calls : List (Call α)) : (after calls).frames = (openScopes calls).map (frame calls) := by
  rw [after_eq, frames, openScopes, List.map_append, List.map_map]
  rfl

/-- All scopes in the order in which they were opened. -/
def stack (s : Scopes α) : List (Frame α) := s.frames.reverse

theorem length_stack (s : Scopes α) : s.stack.length = s.depth := by
  rw [stack, List.length_reverse, frames, List.length_append]
  rfl

theorem stack_zero (s : Scopes α) : s.stack[0]? = some s.global := by
  rw [stack, frames, List.reverse_append]
  rfl

theorem stack_last (s : Scopes α) : s.stack[s.depth - 1]? = some (s.inner.headD s.global) := by
  rw [← length_stack, ← List.getLast?_eq_getElem?, stack, List.getLast?_reverse]
  obtain ⟨_ | ⟨f, fs⟩, global⟩ := s <;> rfl

/-- A declaration changes the scope that was opened last, and no other one. -/
theorem stack_declare (s : Scopes α) (name : String) (a : α) :
    (s.declare name a).stack = s.stack.set (s.depth - 1) ((name, a) :: s.inner.headD s.global) := by
  obtain ⟨_ | ⟨f, fs⟩, global⟩ := s
  · rfl
  · have hsplit (f : Frame α) : stack ⟨f :: fs, global⟩ = (fs ++ [global]).reverse ++ [f] := List.reverse_cons
    have hlast : depth ⟨f :: fs, global⟩ - 1 = (fs ++ [global]).reverse.length := by simp [depth]
    rw [hsplit, hlast, List.set_append_right _ _ (Nat.le_refl _), Nat.sub_self]
    exact hsplit _

/-- What scopes hold is what the calls that were made on them say, however many and in whatever order. There is a scope
for each opening that was not closed, and the global one. A name has in the global scope the value that was declared
last while no other scope was open, and in any other scope the value that was declared last while this was the innermost
one. A name is resolved in the innermost scope and then in the global one, and is found in the innermost scope where
its value passes the test. All indices into the stack of scopes are in its range. -/
theorem scopes_follow_their_history (calls : List (Call α)) (name : String) (test : α → Bool) :
    let s := after calls
    (1 ≤ s.depth ∧ s.depth = 1 + (openings calls).length) ∧
    s.getGlobal? name = lastDeclared? calls name (fun before => (after before).depth == 1) ∧
    s.resolve? name = (current? calls name (innermost? calls)).or (s.getGlobal? name) ∧
    s.find? name test =
      (openScopes calls).findSome? (fun scope? => (current? calls name scope?).filter test) ∧
    (s.find? name test = none ↔
      ∀ scope? ∈ openScopes calls, ∀ a, current? calls name scope? = some a → test a = false) ∧
    s.stack.length = s.depth ∧
    (∃ global, s.stack[0]? = some global ∧ s.getGlobal? name = global.lookup name) ∧
    ∃ innermost, s.stack[s.stack.length - 1]? = some innermost ∧
      s.resolve? name = (innermost.lookup name).or (s.getGlobal? name) ∧
      ∀ a, (s.declare name a).stack = s.stack.set (s.stack.length - 1) ((name, a) :: innermost) := by
  have hglobal : (after calls).getGlobal? name = current? calls name none := by
    rw [after_eq]
    exact lookup_frame calls none name
  have hinnermost : (after calls).inner.headD (after calls).global = frame calls (innermost? calls) := by
    rw [after_eq, innermost?, ← List.head?_reverse]
    cases (openings calls).reverse <;> rfl
  refine ⟨⟨Nat.le_add_left 1 _, (depth_after calls).trans (Nat.add_comm _ 1)⟩, ?_, ?_, ?_, ?_, length_stack _,
    ⟨_, stack_zero _, rfl⟩, _, by rw [length_stack, stack_last], rfl, fun a => by rw [length_stack, stack_declare]⟩
  · rw [hglobal, current?]
    congr 1
    funext before
    rw [depth_after, innermost?, Bool.eq_iff_iff, beq_iff_eq, beq_iff_eq, List.getLast?_eq_none_iff, Nat.add_eq_right,
      List.length_eq_zero_iff]
  · rw [resolve?, hinnermost, lookup_frame]
  · simp only [find?, frames_after, List.findSome?_map, Function.comp_def, lookup_frame]
  · simp only [find?_eq_none, frames_after, List.forall_mem_map, lookup_frame]

/-- What was declared in a scope is lost with it, also for the next scope of the same depth. -/
example : let calls : List (Call Nat) := [.declare "x" 1, .leave, .enter, .declare "x" 2, .leave, .enter]
    openings calls = [5] ∧ (after calls).resolve? "x" = some 1 := by decide

end Scopes

end TypedCss
