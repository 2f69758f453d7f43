import TypedCss.Proofs.Refolding

/-!
# Folding that ends with a fault

A fault in one slot does not show anywhere else. The slots before it are folded and those after it are untouched, and
the folder keeps what was assigned outside every rule, and nothing of the rules that were open.
-/

namespace TypedCss

/-- What slots that hold literals add to the global scope, the latest first. -/
def globalBindings (slots : List Slot) : Frame Value := (slots.filterMap Slot.globalBinding?).reverse

theorem globalBindings_cons (slot : Slot) (slots : List Slot) :
    globalBindings (slot :: slots) = globalBindings slots ++ slot.globalBinding?.toList := by
  rw [globalBindings, globalBindings, List.filterMap_cons]
  cases slot.globalBinding? with
  | none => exact (List.append_nil _).symm
  | some b => exact List.reverse_cons

/-- A run that ends with a fault has folded the slots in front of one that has no value, and has bound what they assign
outside every rule. -/
theorem FoldRun.exists_failing {global after : Frame Value} {slots slots' : List Slot} {fault : Fault}
    (h : FoldRun global slots slots' (some fault) after) :
    ∃ (earlier folded later : List Slot) (failing : Slot) (values : Values),
      slots = earlier ++ failing :: later ∧ slots' = folded ++ failing :: later ∧
        List.Forall₂ Slot.SettlesTo earlier folded ∧
        failing.value.eval values = .error fault ∧ values.depth = failing.rules.length + 1 ∧
        values.global = after ∧ after = globalBindings folded ++ global := by
  generalize hf : some fault = fault? at h
  induction h with
  | nil => cases hf
  | @stop values slot _ later h hdepth =>
    cases hf
    exact ⟨[], [], later, slot, values, rfl, rfl, .nil, h, hdepth, rfl, rfl⟩
  | @next global _ slot slot' _ _ _ hslot _ ih =>
    obtain ⟨earlier, folded, later, failing, values, hslots, hslots', hsettles, heval, hdepth, hglobal, hafter⟩ :=
      ih hf
    refine ⟨slot :: earlier, slot' :: folded, later, failing, values, ?_, ?_, .cons hslot hsettles, heval, hdepth,
      hglobal, ?_⟩
    · rw [hslots, List.cons_append]
    · rw [hslots', List.cons_append]
    · rw [hafter, globalBindings_cons, List.append_assoc]

/-- Whatever the folder has been used for, if it meets a fault in a stylesheet then there is a slot without a value such
that the earlier slots are folded and this one, the later ones and all that is no slot are as before. The folder is left
with the global scope alone. What is new in it is what the earlier slots outside every rule assign. -/
theorem faults_leave_only_global_assignments {values : Values} (hvalues : Reached values) {sheet : Stylesheet}
    {fault : Fault} (h : (sheet.foldIn values).fault? = some fault) :
    ∃ (earlier folded later : List Slot) (failing : Slot) (inSight : Values),
      sheet.slots = earlier ++ failing :: later ∧
        (sheet.foldIn values).tree.slots = folded ++ failing :: later ∧
        List.Forall₂ Slot.SettlesTo earlier folded ∧
        failing.value.eval inSight = .error fault ∧ inSight.depth = failing.rules.length + 1 ∧
        inSight.global = (sheet.foldIn values).values.global ∧
        (∀ e, (sheet.foldIn values).tree.filledWith e = sheet.filledWith e) ∧
        values.depth = 1 ∧ (sheet.foldIn values).values.depth = 1 ∧
        (sheet.foldIn values).values = ⟨[], globalBindings folded ++ values.global⟩ := by
  have hrun := sheet.foldIn_run hvalues
  rw [h] at hrun
  obtain ⟨earlier, folded, later, failing, inSight, hslots, hslots', hsettles, heval, hsight, hglobal, hafter⟩ :=
    hrun.exists_failing
  have hdepth : (sheet.foldIn values).values.depth = 1 := (hvalues.fold sheet).depth
  have hinner : (sheet.foldIn values).values.inner = [] := by
    rw [Scopes.depth] at hdepth
    exact List.length_eq_zero_iff.1 (by omega)
  refine ⟨earlier, folded, later, failing, inSight, hslots, hslots', hsettles, heval, hsight, hglobal,
    fun e => sheet.filledWith_foldIn e values, hvalues.depth, hdepth, ?_⟩
  rw [← hafter, ← hinner]

/-- The folder has failed once already. It fails again in a rule inside a rule, where both have bound variables, and
assignments follow. -/
theorem faults_leave_only_global_assignments_nested :
    let n : Note := .clear .nowhere
    let number (i : Int32) : Expr := .literal (.number .pixel i) n
    let broken : Stylesheet := ⟨[.assignment "X" (number 1) n,
      .rule (.tag "p") [.assignment "Y" (number 2) n, .declaration "width" (.reference "Z" n) n] n], .nowhere⟩
    let sheet : Stylesheet := ⟨[.assignment "W" (.operation .add (.reference "X" n) (number 3) n) n,
      .rule (.tag "a") [.assignment "W" (number 4) n, .ifClause (.literal (.flag true) n)
        [.rule (.tag "b") [.assignment "V" (number 5) n, .declaration "height" (.reference "Y" n) n] n] n] n,
      .assignment "X" (number 6) n], .nowhere⟩
    let values := (broken.foldIn .empty).values
    let fault : Fault := ⟨.unassigned "Y", .nowhere⟩
    Reached values ∧ (sheet.foldIn values).fault? = some fault ∧
      ∃ (earlier folded later : List Slot) (failing : Slot) (inSight : Values),
        sheet.slots = earlier ++ failing :: later ∧
          (sheet.foldIn values).tree.slots = folded ++ failing :: later ∧
          List.Forall₂ Slot.SettlesTo earlier folded ∧
          failing.value.eval inSight = .error fault ∧ inSight.depth = failing.rules.length + 1 ∧
          inSight.global = (sheet.foldIn values).values.global ∧
          (∀ e, (sheet.foldIn values).tree.filledWith e = sheet.filledWith e) ∧
          values.depth = 1 ∧ (sheet.foldIn values).values.depth = 1 ∧
          (sheet.foldIn values).values = ⟨[], globalBindings folded ++ values.global⟩ := by
  intro n number broken sheet values fault
  have hvalues : Reached values := .fold .start broken
  have hfault : (sheet.foldIn values).fault? = some fault := by decide
  exact ⟨hvalues, hfault, faults_leave_only_global_assignments hvalues hfault⟩

end TypedCss
