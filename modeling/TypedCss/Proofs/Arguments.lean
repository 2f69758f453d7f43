import TypedCss.CommandLine.Arguments

/-!
# Reading arguments

A run has at least one input. The check flag in front of arguments that ask for a run sets the flag, and changes
nothing else, unless they give it themselves.
-/

namespace TypedCss.CommandLine

namespace Pending

/-- Whether the request is open, or settled and no run. -/
def IsNoRun : Pending → Prop
  | settled (.run _) => False
  | _ => True

theorem isNoRun_ofOptions (o? : Option Options) : (ofOptions o?).IsNoRun := by
  cases o? <;> trivial

end Pending

theorem readLetters_isNoRun (o : Options) (letters : List Char) : (readLetters o letters).IsNoRun := by
  fun_induction readLetters o letters with
  | case2 letters ih => exact ih
  | case6 path | case7 path => exact Pending.isNoRun_ofOptions _
  | _ => trivial

theorem readLong_isNoRun (o : Options) (flag : List Char) : (readLong o flag).IsNoRun := by
  unfold readLong
  dsimp only
  split <;> first | trivial | exact Pending.isNoRun_ofOptions _

theorem readArgument_isNoRun (o : Options) (arg : String) : (readArgument o arg).IsNoRun := by
  unfold readArgument
  split
  · exact readLong_isNoRun o _
  · exact readLetters_isNoRun o _
  · exact Pending.isNoRun_ofOptions _

theorem inputs_ne_nil_of_finish {o r : Options} (h : finish o = .run r) : r.inputs ≠ [] := by
  unfold finish at h
  split at h
  case isTrue => cases h
  case isFalse hempty =>
    cases h
    simpa using hempty

theorem inputs_ne_nil_of_readInputs {o r : Options} {args : List String} (h : readInputs o args = .run r) :
    r.inputs ≠ [] := by
  fun_induction readInputs o args with
  | case1 o => exact inputs_ne_nil_of_finish h
  | case2 o arg args o' ho ih => exact ih h
  | case3 => cases h

theorem inputs_ne_nil_of_readArguments {p : Pending} {r : Options} {args : List String} (hp : p.IsNoRun)
    (h : readArguments p args = .run r) : r.inputs ≠ [] := by
  fun_induction readArguments p args with
  | case1 args request =>
    subst h
    exact hp.elim
  | case2 o => exact inputs_ne_nil_of_finish h
  | case3 => cases h
  | case4 o args => exact inputs_ne_nil_of_readInputs h
  | case5 o arg args _ ih => exact ih (readArgument_isNoRun o arg) h
  | case6 => cases h
  | case7 o arg args _ ih => exact ih (Pending.isNoRun_ofOptions _) h

theorem Request.inputs_ne_nil {args : List String} {o : Options} (h : ofArguments args = .run o) : o.inputs ≠ [] :=
  inputs_ne_nil_of_readArguments (p := .nothing .none) trivial h

/-- The options with the check flag. -/
def Options.withCheck (o : Options) : Options := { o with check := true }

def Request.withCheck : Request → Request
  | run o => run o.withCheck
  | r => r

namespace Pending

def withCheck : Pending → Pending
  | nothing o => nothing o.withCheck
  | output o => output o.withCheck
  | settled r => settled r.withCheck

theorem withCheck_withCheck (p : Pending) : p.withCheck.withCheck = p.withCheck := by
  cases p with
  | nothing o | output o => rfl
  | settled r => cases r <;> rfl

theorem ofOptions_withCheck (o? : Option Options) : ofOptions (o?.map .withCheck) = (ofOptions o?).withCheck := by
  cases o? <;> rfl

end Pending

variable (o : Options)

theorem addInput?_withCheck (path : String) :
    o.withCheck.addInput? path = (o.addInput? path).map .withCheck := by
  unfold Options.addInput?
  split <;> rfl

theorem setOutput?_withCheck (path : String) :
    o.withCheck.setOutput? path = (o.setOutput? path).map .withCheck := by
  unfold Options.setOutput?
  rw [show o.withCheck.output? = o.output? from rfl]
  split <;> rfl

theorem readLetters_withCheck (letters : List Char) :
    readLetters o.withCheck letters = (readLetters o letters).withCheck := by
  fun_induction readLetters o letters with
  | case2 letters ih => rw [readLetters, ih]
  | case6 path => rw [readLetters, setOutput?_withCheck, Pending.ofOptions_withCheck]
  | case7 path =>
    rw [readLetters, setOutput?_withCheck, Pending.ofOptions_withCheck]
    all_goals assumption
  | case8 =>
    rw [readLetters]
    all_goals first | rfl | assumption
  | _ => rfl

theorem readLong_withCheck {flag : List Char} (h : flag ≠ "check".toList) :
    readLong o.withCheck flag = (readLong o flag).withCheck := by
  have hflag := List.takeWhile_append_dropWhile (p := (· != '=')) (l := flag)
  unfold readLong
  dsimp only
  split
  case h_2 =>
    rw [setOutput?_withCheck, Pending.ofOptions_withCheck]
  case h_3 hname hrest =>
    rw [hrest, List.append_nil] at hflag
    rw [hflag] at hname
    exact absurd (String.ofList_injective hname) h
  all_goals rfl

theorem readArgument_withCheck {arg : String} (h : arg ≠ "--check") :
    readArgument o.withCheck arg = (readArgument o arg).withCheck := by
  unfold readArgument
  split
  case h_1 flag harg =>
    refine readLong_withCheck o fun hflag => h (String.toList_injective ?_)
    rw [harg, hflag]
    rfl
  case h_2 => exact readLetters_withCheck o _
  case h_3 => rw [addInput?_withCheck, Pending.ofOptions_withCheck]

theorem readArgument_check :
    readArgument o "--check" = if o.check then .settled .misuse else .nothing o.withCheck := by
  rw [show readArgument o "--check" = .ofOptions o.setCheck? from rfl, Options.setCheck?]
  split <;> rfl

theorem finish_withCheck : finish o.withCheck = (finish o).withCheck := by
  unfold finish
  rw [show o.withCheck.inputs = o.inputs from rfl]
  split <;> rfl

theorem readInputs_withCheck (args : List String) :
    readInputs o.withCheck args = (readInputs o args).withCheck := by
  fun_induction readInputs o args with
  | case1 o => exact finish_withCheck o
  | case2 o arg args o' ho ih =>
    rw [readInputs, addInput?_withCheck, ho]
    exact ih
  | case3 o arg args ho =>
    rw [readInputs, addInput?_withCheck, ho]
    rfl

/-- Where the flag is set, reading goes on in the same way, as long as the arguments do not set it themselves.
If they do, a run that they ask for has it. -/
theorem readArguments_withCheck (p : Pending) (args : List String) :
    readArguments p.withCheck args = (readArguments p args).withCheck ∨
      (readArguments p args).withCheck = readArguments p args := by
  fun_induction readArguments p args with
  | case1 args r => exact .inl (by rw [Pending.withCheck, readArguments])
  | case2 o => exact .inl (finish_withCheck o)
  | case3 => exact .inl rfl
  | case4 o args =>
    refine .inl ?_
    rw [Pending.withCheck, readArguments, if_pos rfl, readInputs_withCheck]
  | case5 o arg args hend ih =>
    by_cases harg : arg = "--check"
    · -- a second flag is a misuse, and the first one stays set
      subst harg
      refine .inr ?_
      rw [readArgument_check] at ih ⊢
      by_cases hset : o.check
      · rw [if_pos hset, readArguments]
        rfl
      · have hopen : Pending.nothing o.withCheck = (Pending.nothing o).withCheck := rfl
        rw [if_neg hset, hopen, Pending.withCheck_withCheck] at ih
        rw [if_neg hset, hopen]
        exact ih.elim Eq.symm id
    · rw [Pending.withCheck, readArguments, if_neg hend, readArgument_withCheck o harg]
      exact ih
  | case6 o arg args hflag =>
    refine .inl ?_
    rw [Pending.withCheck, readArguments, if_pos hflag]
    rfl
  | case7 o arg args hflag ih =>
    rw [Pending.withCheck, readArguments, if_neg hflag, setOutput?_withCheck, Pending.ofOptions_withCheck]
    exact ih

theorem Request.ofArguments_check {args : List String} {o : Options} (h : ofArguments args = .run o)
    (hcheck : o.check = false) : ofArguments ("--check" :: args) = .run o.withCheck := by
  have hfront : ofArguments ("--check" :: args) = readArguments (Pending.withCheck (.nothing .none)) args := rfl
  rw [hfront]
  rw [ofArguments] at h
  rcases readArguments_withCheck (.nothing .none) args with hset | hset
  · rw [hset, h]
    rfl
  · rw [h] at hset
    have hset := congrArg Options.check (Request.run.inj hset)
    rw [hcheck] at hset
    cases hset

end TypedCss.CommandLine
