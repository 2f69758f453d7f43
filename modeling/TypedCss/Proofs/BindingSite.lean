import TypedCss.Proofs.Walk

/-!
# Binding sites

A name stands for the latest earlier assignment to it in the same rule, or else for the latest earlier one
outside every rule. If clauses do not matter. Scopes that are entered and left and overwritten come to the
same: at each slot that a pass comes to, a name resolves to what the pass made of its binding site.
-/

namespace TypedCss

/-- The last index below the bound that has the property. -/
def latest? (p : Nat → Bool) : Nat → Option Nat
  | 0 => none
  | i + 1 => if p i then some i else latest? p i

theorem latest?_eq_some {p : Nat → Bool} {i j : Nat} :
    latest? p i = some j ↔ j < i ∧ p j ∧ ∀ k, j < k → k < i → p k = false := by
  induction i with
  | zero => simp [latest?]
  | succ i ih =>
    rw [latest?]
    by_cases hp : p i
    · rw [if_pos hp]
      constructor
      · intro h
        obtain rfl := Option.some.inj h
        exact ⟨by omega, hp, by omega⟩
      · rintro ⟨hlt, -, hlast⟩
        by_cases hji : j = i
        · rw [hji]
        · have := hlast i (by omega) (by omega)
          simp [hp] at this
    · rw [if_neg hp, ih]
      constructor
      · rintro ⟨hlt, hj, hlast⟩
        refine ⟨by omega, hj, ?_⟩
        intro k hjk hk
        by_cases hki : k = i
        · simpa [hki] using hp
        · exact hlast k hjk (by omega)
      · rintro ⟨hlt, hj, hlast⟩
        have hne : j ≠ i := by
          rintro rfl
          exact hp hj
        exact ⟨by omega, hj, fun k hjk hk => hlast k hjk (by omega)⟩

theorem latest?_congr {p q : Nat → Bool} {i : Nat} (h : ∀ j < i, p j = q j) : latest? p i = latest? q i := by
  induction i with
  | zero => rfl
  | succ i ih => rw [latest?, latest?, h i (by omega), ih fun j hj => h j (by omega)]

/-- Whether the slot is assigned to the variable directly in the given rule, or outside every rule. -/
def Slot.assigns (name : String) (rule? : Option Nat) (slot : Slot) : Bool :=
  slot.target? == some name && slot.rules.head? == rule?

/-- The slot that a name stands for in slot `i`. -/
def bindingSite? (slots : List Slot) (i : Nat) (name : String) : Option Nat :=
  let innermost? := slots[i]?.bind fun slot => slot.rules.head?
  (latest? (fun j => slots[j]?.any (Slot.assigns name innermost?)) i).or
    (latest? (fun j => slots[j]?.any (Slot.assigns name none)) i)

theorem bindingSite?_lt {slots : List Slot} {i j : Nat} {x : String} (h : bindingSite? slots i x = some j) :
    j < i := by
  rcases Option.or_eq_some_iff.1 h with h | ⟨-, h⟩
  · exact (latest?_eq_some.1 h).1
  · exact (latest?_eq_some.1 h).1

/-- The slots that a pass has left behind, the latest first, with what it made of them. -/
abbrev Past (α : Type) := List (Slot × α)

variable {α : Type}

namespace Past

/-- The assignments directly in the given rule, or outside every rule. -/
def frame (past : Past α) (rule? : Option Nat) : Frame α :=
  past.filterMap fun p => if p.1.rules.head? = rule? then p.1.target?.map (·, p.2) else none

/-- The scopes of open rules after the given past. -/
def scopes (past : Past α) (rules : List Nat) : Scopes α :=
  ⟨rules.map fun r => past.frame (some r), past.frame none⟩

theorem frame_cons_of_ne {slot : Slot} {a : α} {past : Past α} {rule? : Option Nat}
    (h : slot.rules.head? ≠ rule?) : frame ((slot, a) :: past) rule? = past.frame rule? := by
  rw [frame, List.filterMap_cons, if_neg h]
  rfl

theorem frame_cons_target (e : Expr) (rules : List Nat) (x : String) (a : α) (past : Past α) :
    frame ((⟨e, rules, some x⟩, a) :: past) rules.head? = (x, a) :: past.frame rules.head? := by
  rw [frame, List.filterMap_cons, if_pos rfl]
  rfl

theorem frame_cons_of_no_target (e : Expr) (rules : List Nat) (a : α) (past : Past α) (rule? : Option Nat) :
    frame ((⟨e, rules, none⟩, a) :: past) rule? = past.frame rule? := by
  rw [frame, List.filterMap_cons]
  by_cases h : rules.head? = rule?
  · rw [if_pos h]
    rfl
  · rw [if_neg h]
    rfl

theorem scopes_of_no_target (e : Expr) (rules rules' : List Nat) (a : α) (past : Past α) :
    scopes ((⟨e, rules, none⟩, a) :: past) rules' = past.scopes rules' := by
  simp only [scopes, frame_cons_of_no_target]

theorem declare_scopes {rules : List Nat} (hrules : rules.Nodup) (e : Expr) (x : String) (a : α)
    (past : Past α) :
    (past.scopes rules).declare x a = scopes ((⟨e, rules, some x⟩, a) :: past) rules := by
  cases rules with
  | nil =>
    have hglobal := frame_cons_target e [] x a past
    simp only [scopes, List.map_nil, Scopes.declare]
    rw [List.head?_nil] at hglobal
    rw [hglobal]
  | cons r rules =>
    -- The frames of the outer rules stay as they are: no rule is open twice.
    have hinner : rules.map (fun r' => frame ((⟨e, r :: rules, some x⟩, a) :: past) (some r')) =
        rules.map fun r' => past.frame (some r') := by
      apply List.map_congr_left
      intro r' hr'
      apply frame_cons_of_ne
      rintro h
      obtain rfl : r = r' := by simpa using h
      exact (List.nodup_cons.1 hrules).1 hr'
    have hinnermost := frame_cons_target e (r :: rules) x a past
    have hglobal : frame ((⟨e, r :: rules, some x⟩, a) :: past) none = past.frame none :=
      frame_cons_of_ne (by simp)
    rw [List.head?_cons] at hinnermost
    simp only [scopes, List.map_cons, Scopes.declare]
    rw [hinner, hinnermost, hglobal]

theorem enter_scopes {past : Past α} {next : Nat} (hpast : ∀ p ∈ past, ∀ r ∈ p.1.rules, r < next)
    (rules : List Nat) : (past.scopes rules).enter = past.scopes (next :: rules) := by
  -- The number of the new rule is fresh, so nothing of the past lies directly in it.
  have hnew : past.frame (some next) = [] := by
    apply List.filterMap_eq_nil_iff.2
    intro p hp
    apply if_neg
    intro h
    have := hpast p hp next (List.mem_of_mem_head? h)
    omega
  simp only [scopes, Scopes.enter, List.map_cons, hnew]

theorem resolve?_scopes (past : Past α) (rules : List Nat) (x : String) :
    (past.scopes rules).resolve? x =
      ((past.frame rules.head?).lookup x).or ((past.frame none).lookup x) := by
  cases rules <;> rfl

/-- In the first `i` slots of a history, a name is bound to what was made of the latest assignment. -/
theorem lookup_frame (history : List (Slot × α)) (i : Nat) (x : String) (rule? : Option Nat) :
    (frame (history.take i).reverse rule?).lookup x =
      (latest? (fun j => history[j]?.any fun p => p.1.assigns x rule?) i).bind
        fun j => history[j]?.map Prod.snd := by
  induction i with
  | zero => rfl
  | succ i ih =>
    rw [List.take_add_one, List.reverse_append, latest?]
    cases hp : history[i]? with
    | none => simpa [hp] using ih
    | some p =>
      obtain ⟨⟨e, rules, target?⟩, a⟩ := p
      simp only [Option.toList_some, List.reverse_singleton, List.singleton_append, Option.any_some]
      by_cases hrule : rules.head? = rule?
      · subst hrule
        cases target? with
        | none =>
          rw [frame_cons_of_no_target, ih]
          simp [Slot.assigns]
        | some y =>
          rw [frame_cons_target]
          by_cases hy : x = y
          · subst hy
            simp [Slot.assigns, hp]
          · have hyx : y ≠ x := fun h => hy h.symm
            rw [List.lookup_cons, beq_false_of_ne hy, ih]
            simp [Slot.assigns, hyx]
      · rw [frame_cons_of_ne hrule, ih]
        simp [Slot.assigns, hrule]

end Past

/-- A pass through slots from a given past on: at each slot it has the scopes of the past in sight. What it
leaves behind is the past of what follows, unless it stops. -/
inductive Follows (pass : Pass α) : Past α → List Slot → List (Visit α) → Option (Past α) → Prop
  | nil (past : Past α) : Follows pass past [] [] (some past)
  | stop {past : Past α} {slot : Slot} (slots : List Slot)
    (h : pass (past.scopes slot.rules) slot.value = none) :
    Follows pass past (slot :: slots) [⟨past.scopes slot.rules, none⟩] none
  | next {past : Past α} {slot : Slot} {a : α} {slots : List Slot} {vs : List (Visit α)}
    {after? : Option (Past α)} (h : pass (past.scopes slot.rules) slot.value = some a)
    (rest : Follows pass ((slot, a) :: past) slots vs after?) :
    Follows pass past (slot :: slots) (⟨past.scopes slot.rules, some a⟩ :: vs) after?

namespace Follows

variable {pass : Pass α} {past next : Past α} {slots slots' : List Slot} {vs ws : List (Visit α)}
  {after? : Option (Past α)}

theorem append_of_stop (h : Follows pass past slots vs none) (slots' : List Slot) :
    Follows pass past (slots ++ slots') vs none := by
  generalize ha : none = after? at h
  induction h with
  | nil => cases ha
  | stop slots h => exact .stop (slots ++ slots') h
  | next h _ ih => exact .next h (ih ha)

theorem append (h : Follows pass past slots vs (some next)) (h' : Follows pass next slots' ws after?) :
    Follows pass past (slots ++ slots') (vs ++ ws) after? := by
  generalize ha : some next = after?' at h
  induction h with
  | nil =>
    cases ha
    exact h'
  | stop => cases ha
  | next h _ ih => exact .next h (ih ha)

theorem mem_after (h : Follows pass past slots vs (some next)) :
    ∀ p ∈ next, p ∈ past ∨ p.1 ∈ slots := by
  generalize ha : some next = after? at h
  induction h with
  | nil =>
    cases ha
    exact fun p hp => .inl hp
  | stop => cases ha
  | next h _ ih =>
    intro p hp
    rcases ih ha p hp with hp | hp
    · rcases List.mem_cons.1 hp with rfl | hp
      · exact .inr List.mem_cons_self
      · exact .inl hp
    · exact .inr (List.mem_cons_of_mem _ hp)

end Follows

/-- Rules open after a past: all of them, and those of the past, have begun before rule `next`. -/
structure Past.Opened (past : Past α) (rules : List Nat) (next : Nat) : Prop where
  nodup : rules.Nodup
  rules_lt : ∀ r ∈ rules, r < next
  past_lt : ∀ p ∈ past, ∀ r ∈ p.1.rules, r < next

namespace Past.Opened

variable {past : Past α} {rules : List Nat} {next : Nat}

theorem enter (h : past.Opened rules next) : past.Opened (next :: rules) (next + 1) := by
  refine ⟨List.nodup_cons.2 ⟨fun hr => ?_, h.nodup⟩, fun r hr => ?_, fun p hp r hr => ?_⟩
  · have := h.rules_lt next hr
    omega
  · rcases List.mem_cons.1 hr with rfl | hr
    · omega
    · have := h.rules_lt r hr
      omega
  · have := h.past_lt p hp r hr
    omega

theorem after {pass : Pass α} {s : Stmt} {vs : List (Visit α)} {past' : Past α} (h : past.Opened rules next)
    (hs : Follows pass past (s.slots next rules) vs (some past')) :
    past'.Opened rules (next + s.ruleCount) := by
  refine ⟨h.nodup, fun r hr => ?_, fun p hp r hr => ?_⟩
  · have := h.rules_lt r hr
    omega
  · rcases hs.mem_after p hp with hp | hp
    · have := h.past_lt p hp r hr
      omega
    · exact Stmt.lt_of_mem_slots h.rules_lt s p.1 hp r hr

end Past.Opened

namespace Stmt

mutual

theorem walk_follows (pass : Pass α) {past : Past α} {rules : List Nat} {next : Nat}
    (h : past.Opened rules next) : (s : Stmt) →
    ∃ after?, Follows pass past (s.slots next rules) (s.walk pass (past.scopes rules)).visits after? ∧
      (s.walk pass (past.scopes rules)).after? = after?.map (·.scopes rules)
  | assignment x e n => by
    rw [walk]
    cases ha : pass (past.scopes rules) e with
    | none => exact ⟨none, .stop [] ha, rfl⟩
    | some a =>
      refine ⟨_, .next ha (.nil _), ?_⟩
      exact congrArg some (Past.declare_scopes h.nodup e x a past)
  | declaration p e n => by
    rw [walk]
    cases ha : pass (past.scopes rules) e with
    | none => exact ⟨none, .stop [] ha, rfl⟩
    | some a =>
      refine ⟨_, .next ha (.nil _), ?_⟩
      exact congrArg some (Past.scopes_of_no_target e rules rules a past).symm
  | rule s body n => by
    obtain ⟨after?, hbody, hafter⟩ := walkAll_follows pass h.enter body
    rw [walk, Past.enter_scopes h.past_lt]
    refine ⟨after?, hbody, ?_⟩
    rw [hafter, Option.map_map]
    rfl
  | ifClause c body n => by
    rw [walk]
    cases ha : pass (past.scopes rules) c with
    | none => exact ⟨none, .stop _ ha, rfl⟩
    | some a =>
      have hscopes := Past.scopes_of_no_target c rules rules a past
      have hopened : Past.Opened ((⟨c, rules, none⟩, a) :: past) rules next :=
        ⟨h.nodup, h.rules_lt, List.forall_mem_cons.2 ⟨h.rules_lt, h.past_lt⟩⟩
      obtain ⟨after?, hbody, hafter⟩ := walkAll_follows pass hopened body
      rw [hscopes] at hbody hafter
      exact ⟨after?, .next ha hbody, hafter⟩

theorem walkAll_follows (pass : Pass α) {past : Past α} {rules : List Nat} {next : Nat}
    (h : past.Opened rules next) : (ss : List Stmt) →
    ∃ after?, Follows pass past (allSlots next rules ss) (walkAll pass (past.scopes rules) ss).visits after? ∧
      (walkAll pass (past.scopes rules) ss).after? = after?.map (·.scopes rules)
  | [] => ⟨some past, .nil past, rfl⟩
  | s :: ss => by
    obtain ⟨after?, hs, hafter⟩ := walk_follows pass h s
    cases after? with
    | none =>
      rw [walkAll_cons_of_stop hafter]
      exact ⟨none, hs.append_of_stop _, hafter⟩
    | some past' =>
      obtain ⟨after?, hss, hafter'⟩ := walkAll_follows pass (h.after hs) ss
      rw [walkAll_cons_of_after hafter]
      exact ⟨after?, hs.append hss, hafter'⟩

end

end Stmt

namespace Follows

variable {pass : Pass α} {past : Past α} {slots : List Slot} {vs : List (Visit α)} {after? : Option (Past α)}

/-- The slots that the pass comes to, in terms of a history: the slots that it has left behind, the first
one first. -/
theorem exists_history (h : Follows pass past slots vs after?) : ∃ history : List (Slot × α),
    (∀ (i : Nat) (v : Visit α), vs[i]? = some v → i ≤ history.length ∧ ∃ slot, slots[i]? = some slot ∧
      v.made? = pass v.scopes slot.value ∧
      v.scopes = Past.scopes ((history.take i).reverse ++ past) slot.rules) ∧
    ∀ (j : Nat) (p : Slot × α), history[j]? = some p →
      slots[j]? = some p.1 ∧ ∃ v, vs[j]? = some v ∧ v.made? = some p.2 := by
  induction h with
  | nil past => exact ⟨[], by simp, by simp⟩
  | @stop past slot slots h =>
    refine ⟨[], ?_, by simp⟩
    intro i v hv
    obtain ⟨rfl, rfl⟩ : i = 0 ∧ _ = v := by simpa [List.getElem?_singleton] using hv
    exact ⟨Nat.le_refl 0, slot, rfl, h.symm, rfl⟩
  | @next past slot a slots vs after? h _ ih =>
    obtain ⟨history, hvisit, hpast⟩ := ih
    refine ⟨(slot, a) :: history, ?_, ?_⟩
    · intro i v hv
      cases i with
      | zero =>
        obtain rfl := Option.some.inj hv
        exact ⟨Nat.zero_le _, slot, rfl, h.symm, rfl⟩
      | succ i =>
        obtain ⟨hle, slot', hslot, hmade, hscopes⟩ := hvisit i v hv
        refine ⟨Nat.succ_le_succ hle, slot', hslot, hmade, ?_⟩
        rw [hscopes, List.take_succ_cons, List.reverse_cons, List.append_assoc, List.singleton_append]
    · intro j p hp
      cases j with
      | zero =>
        obtain rfl := Option.some.inj hp
        exact ⟨rfl, _, rfl, rfl⟩
      | succ j => exact hpast j p hp

theorem made_before (h : Follows pass past slots vs after?) {i j : Nat} {v : Visit α} (hv : vs[i]? = some v)
    (hj : j < i) : ∃ w a, vs[j]? = some w ∧ w.made? = some a := by
  obtain ⟨history, hvisit, hpast⟩ := h.exists_history
  obtain ⟨hle, -⟩ := hvisit i v hv
  have hlt : j < history.length := Nat.lt_of_lt_of_le hj hle
  obtain ⟨-, w, hw, hmade⟩ := hpast j _ (List.getElem?_eq_getElem hlt)
  exact ⟨w, _, hw, hmade⟩

/-- At each slot that a pass comes to, a name resolves to what the pass has made of its binding site. -/
theorem resolve?_eq (h : Follows pass [] slots vs after?) {i : Nat} {v : Visit α} (hv : vs[i]? = some v)
    (x : String) :
    v.scopes.resolve? x = (bindingSite? slots i x).bind fun j => vs[j]?.bind Visit.made? := by
  obtain ⟨history, hvisit, hpast⟩ := h.exists_history
  obtain ⟨hle, slot, hslot, -, hscopes⟩ := hvisit i v hv
  have hbefore : ∀ j < i, ∃ p, history[j]? = some p :=
    fun j hj => ⟨_, List.getElem?_eq_getElem (Nat.lt_of_lt_of_le hj hle)⟩
  have hassigns : ∀ rule?, latest? (fun j => history[j]?.any fun p => p.1.assigns x rule?) i =
      latest? (fun j => slots[j]?.any (Slot.assigns x rule?)) i := by
    intro rule?
    apply latest?_congr
    intro j hj
    obtain ⟨p, hp⟩ := hbefore j hj
    rw [hp, (hpast j p hp).1, Option.any_some, Option.any_some]
  have hmade : ∀ j < i, ∃ a, history[j]?.map Prod.snd = some a ∧ vs[j]?.bind Visit.made? = some a := by
    intro j hj
    obtain ⟨p, hp⟩ := hbefore j hj
    obtain ⟨-, w, hw, hmade⟩ := hpast j p hp
    exact ⟨p.2, by rw [hp, Option.map_some], by rw [hw, Option.bind_some, hmade]⟩
  rw [hscopes, List.append_nil, Past.resolve?_scopes, Past.lookup_frame, Past.lookup_frame, hassigns, hassigns,
    bindingSite?, hslot, Option.bind_some]
  cases hinner : latest? (fun j => slots[j]?.any (Slot.assigns x slot.rules.head?)) i with
  | some j =>
    obtain ⟨a, ha, hv⟩ := hmade j (latest?_eq_some.1 hinner).1
    simp only [Option.bind_some, Option.some_or, ha, hv]
  | none =>
    rw [Option.bind_none, Option.none_or, Option.none_or]
    cases hglobal : latest? (fun j => slots[j]?.any (Slot.assigns x none)) i with
    | none => rfl
    | some j =>
      obtain ⟨a, ha, hv⟩ := hmade j (latest?_eq_some.1 hglobal).1
      rw [Option.bind_some, Option.bind_some, ha, hv]

end Follows

end TypedCss
