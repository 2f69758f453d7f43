import TypedCss.CommandLine.Run
import TypedCss.Proofs.Arguments
import TypedCss.Proofs.Bare
import TypedCss.Proofs.Soundness

/-!
# Runs on files

What becomes of an input depends on the files and on nothing that was done before. Without an output to write to, a
run prints and complains of one input after the other, and it leaves all files alone. The two ways to run differ only
in what they print for a source without problems. With an output, only a finished stylesheet is written. All this is
shown of the options that a run has, and so of all arguments that ask for these options.
-/

namespace TypedCss.CommandLine

variable {files : FileSystem} {o : Options} {args : List String} {path : String} {w : World}

/-- What there is to print or to write for an input, or else to complain of. -/
def Options.result (o : Options) (files : FileSystem) (path : String) : Except String String :=
  match files.read path with
  | .ok source => o.answer path source
  | .error e => .error (accessMessage path e)

def printed : Except String String → String
  | .ok text => text
  | .error _ => ""

def complained : Except String String → String
  | .ok _ => ""
  | .error message => message ++ "\n"

section Model

variable {α β : Type}

theorem run_bind (x : StateM World α) (f : α → StateM World β) (w : World) :
    (x >>= f).run w = (f (x.run w).1).run (x.run w).2 := rfl

theorem run_pure (a : α) (w : World) : (pure a : StateM World α).run w = (a, w) := rfl

theorem run_read (path : String) (w : World) : (Host.model.read path).run w = (w.files.read path, w) := rfl

theorem run_print (text : String) (w : World) :
    (Host.model.print text).run w = ((), { w with printed := w.printed ++ text }) := rfl

theorem run_complain (text : String) (w : World) :
    (Host.model.complain text).run w = ((), { w with complaints := w.complaints ++ text }) := rfl

theorem run_write {path text : String} {w : World} : (Host.model.write path text).run w =
    match w.files.write path text with
    | .ok files => (.ok (), { w with files })
    | .error e => (.error e, w) := by
  change StateT.run (match w.files.write path text with
    | .ok files => do
      set { w with files }
      return .ok ()
    | .error e => return .error e : StateM World (Except AccessError Unit)) w = _
  cases w.files.write path text <;> rfl

end Model

/-- What becomes of an input. -/
theorem run_processInput : (processInput .model o path).run w =
    match o.result w.files path with
    | .error message => (some message, w)
    | .ok text =>
      match if o.check then none else o.output? with
      | none => (none, { w with printed := w.printed ++ text })
      | some out =>
        match w.files.write out text with
        | .ok files => (none, { w with files })
        | .error e => (some (accessMessage out e), w) := by
  unfold processInput Options.result
  rw [run_bind, run_read]
  cases w.files.read path with
  | error e => rfl
  | ok source =>
    dsimp only
    cases o.answer path source with
    | error message => rfl
    | ok text =>
      dsimp only
      cases (if o.check then none else o.output?) with
      | none => rw [run_bind, run_print, run_pure]
      | some out =>
        dsimp only
        rw [run_bind, run_write]
        cases w.files.write out text <;> rfl

theorem processInput_of_error {message : String} (h : o.result w.files path = .error message) :
    (processInput .model o path).run w = (some message, w) := by
  rw [run_processInput, h]

/-- The text for an input is printed if it is not for a file. -/
theorem processInput_of_prints {text : String} (h : o.result w.files path = .ok text)
    (hprints : (if o.check then none else o.output?) = none) :
    (processInput .model o path).run w = (none, { w with printed := w.printed ++ text }) := by
  rw [run_processInput, h, hprints]

theorem processInput_of_target {text out : String} {l : Location} (h : o.result w.files path = .ok text)
    (hout : (if o.check then none else o.output?) = some out) (htarget : w.files.target out = .ok l) :
    (processInput .model o path).run w = (none, { w with files := w.files.put l text.toUTF8 }) := by
  rw [run_processInput, h, hout]
  dsimp only
  rw [FileSystem.write_of_target htarget]

theorem processInput_of_no_target {text out : String} {e : AccessError} (h : o.result w.files path = .ok text)
    (hout : (if o.check then none else o.output?) = some out) (htarget : w.files.target out = .error e) :
    (processInput .model o path).run w = (some (accessMessage out e), w) := by
  rw [run_processInput, h, hout]
  dsimp only
  rw [FileSystem.write_of_no_target htarget]

/-- What is printed for all inputs, what is complained of, and whether all went well. -/
theorem processInputs_of_prints (hprints : (if o.check then none else o.output?) = none) (paths : List String)
    (w : World) : (processInputs .model o paths).run w =
      (paths.all fun path => (o.result w.files path).isOk,
        ⟨w.files, w.printed ++ String.join (paths.map fun path => printed (o.result w.files path)),
          w.complaints ++ String.join (paths.map fun path => complained (o.result w.files path))⟩) := by
  induction paths generalizing w with
  | nil =>
    rw [processInputs, run_pure]
    simp
  | cons path paths ih =>
    rw [processInputs, run_bind]
    cases hresult : o.result w.files path with
    | ok text =>
      rw [processInput_of_prints hresult hprints]
      dsimp only
      rw [ih]
      simp [hresult, printed, complained, Except.isOk, Except.toBool, String.append_assoc]
    | error message =>
      rw [processInput_of_error hresult]
      dsimp only
      rw [run_bind, run_complain, run_bind, ih, run_pure]
      simp [hresult, printed, complained, Except.isOk, Except.toBool, String.append_assoc]

theorem exit_eq_zero {b : Bool} : (if b then 0 else 1 : UInt32) = 0 ↔ b := by
  cases b <;> decide

theorem runOn_of_run (files : FileSystem) (h : Request.ofArguments args = .run o) :
    runOn files args = o.runOn files := by
  unfold runOn run
  rw [h]
  rfl

/-- A run that only prints. -/
theorem runOn_of_prints (files : FileSystem) (hout : o.output? = none) :
    o.runOn files = (if o.inputs.all fun path => (o.result files path).isOk then 0 else 1,
      ⟨files, String.join (o.inputs.map fun path => printed (o.result files path)),
        String.join (o.inputs.map fun path => complained (o.result files path))⟩) := by
  have hprints : (if o.check then none else o.output?) = none := by
    rw [hout]
    exact ite_self none
  unfold Options.runOn runOptions
  rw [hout, Option.isSome_none, Bool.false_and, if_neg Bool.false_ne_true, run_bind,
    processInputs_of_prints hprints, String.empty_append, String.empty_append]
  dsimp only
  split <;> rfl

/-- A run on a single input that only prints. -/
theorem runOn_of_prints_singleton (files : FileSystem) (hinputs : o.inputs = [path]) (hout : o.output? = none) :
    o.runOn files = (if (o.result files path).isOk then 0 else 1,
      ⟨files, printed (o.result files path), complained (o.result files path)⟩) := by
  rw [runOn_of_prints files hout, hinputs]
  simp

/-- A run on several inputs prints, complains and fails as the runs on each of them do. -/
theorem inputs_are_independent (files : FileSystem) (paths : List String) (check : Bool) :
    let together := Options.runOn ⟨paths, none, check⟩ files
    let alone (path : String) := Options.runOn ⟨[path], none, check⟩ files
    (together.2.printed = String.join (paths.map fun path => (alone path).2.printed) ∧
      together.2.complaints = String.join (paths.map fun path => (alone path).2.complaints) ∧
      together.1 = (if ∀ path ∈ paths, (alone path).1 = 0 then 0 else 1) ∧
      together.2.files = files ∧ ∀ path ∈ paths, (alone path).2.files = files) ∧
    (∀ args, Request.ofArguments args = .run ⟨paths, none, check⟩ → runOn files args = together) ∧
    ∀ path args, Request.ofArguments args = .run ⟨[path], none, check⟩ → runOn files args = alone path := by
  -- what becomes of an input depends on the mode of the run and not on its other inputs
  have hsingle : ∀ path, Options.runOn ⟨[path], none, check⟩ files =
      (if (Options.result ⟨paths, none, check⟩ files path).isOk then 0 else 1,
        ⟨files, printed (Options.result ⟨paths, none, check⟩ files path),
          complained (Options.result ⟨paths, none, check⟩ files path)⟩) := by
    intro path
    exact runOn_of_prints_singleton (o := ⟨[path], none, check⟩) files rfl rfl
  dsimp only
  refine ⟨?_, fun args => runOn_of_run files, fun path args => runOn_of_run files⟩
  rw [runOn_of_prints files rfl]
  refine ⟨?_, ?_, ?_, rfl, fun path _ => by rw [hsingle path]⟩
  · exact congrArg String.join (List.map_congr_left fun path _ => by rw [hsingle path])
  · exact congrArg String.join (List.map_congr_left fun path _ => by rw [hsingle path])
  · refine ite_congr (propext ?_) (fun _ => rfl) fun _ => rfl
    rw [List.all_eq_true]
    refine forall₂_congr fun path _ => ?_
    rw [hsingle path, exit_eq_zero]

/-- A missing file, a broken one and a repeated one, between others. -/
theorem inputs_are_independent_mixed :
    let files := ((FileSystem.bare ["work"]).place "a.icss" (.file "a \x7b width: 1px; \x7d".toUTF8)).place "b.icss"
      (.file "b \x7b".toUTF8)
    let args := ["a.icss", "none.icss", "-v", "b.icss", "--", "a.icss"]
    let alone (path : String) := ["--", path]
    Request.ofArguments args = .run ⟨["a.icss", "none.icss", "b.icss", "a.icss"], none, false⟩ ∧
      (runOn files args).2.printed = "a \x7b\n  width: 1px;\n\x7d\na \x7b\n  width: 1px;\n\x7d\n" ∧
      (runOn files args).2.printed = String.join (["a.icss", "none.icss", "b.icss", "a.icss"].map fun path =>
        (runOn files (alone path)).2.printed) ∧ (runOn files args).1 = 1 := by
  intro files args alone
  have hargs : Request.ofArguments args = .run ⟨["a.icss", "none.icss", "b.icss", "a.icss"], none, false⟩ := by
    decide +kernel
  have halone : ∀ path ∈ ["a.icss", "none.icss", "b.icss", "a.icss"],
      Request.ofArguments (alone path) = .run ⟨[path], none, false⟩ := by decide +kernel
  obtain ⟨⟨hprinted, -⟩, htogether, hsingle⟩ :=
    inputs_are_independent files ["a.icss", "none.icss", "b.icss", "a.icss"] false
  refine ⟨hargs, by decide +kernel, ?_, by decide +kernel⟩
  rw [htogether args hargs, hprinted]
  exact congrArg String.join (List.map_congr_left fun path hpath => by rw [hsingle path _ (halone path hpath)])

/-- Checking and compiling complain of the same, and what passes the checks has CSS. -/
theorem Options.result_withCheck (hcheck : o.check = false) (files : FileSystem) (path : String) :
    (∃ source css, files.read path = .ok source ∧ compile (reportName path) source = .ok css ∧
        o.result files path = .ok css ∧ o.withCheck.result files path = .ok (path ++ ": ok\n")) ∨
      ∃ message, o.result files path = .error message ∧ o.withCheck.result files path = .error message := by
  unfold result answer
  cases hread : files.read path with
  | error e => exact .inr ⟨_, rfl, rfl⟩
  | ok source =>
    simp only [hcheck, withCheck, if_true, Bool.false_eq_true, if_false]
    rcases compile_cases (reportName path) source with
      ⟨fault, hsheet, hcompile⟩ | ⟨sheet, ds, hchecked, hds, hcompile⟩ | ⟨sheet, css, hchecked, hcompile⟩
    · have hchecked := check_eq_error.2 hsheet
      rw [hcompile, hchecked]
      exact .inr ⟨_, rfl, rfl⟩
    · rw [hcompile, hchecked]
      cases ds with
      | nil => exact absurd rfl hds
      | cons d ds => exact .inr ⟨_, rfl, rfl⟩
    · rw [hcompile, hchecked]
      exact .inl ⟨source, css, rfl, hcompile, rfl, rfl⟩

/-- With the check flag, a run on one input has the same exit code and the same complaints. In the place of the CSS of
the input, it prints that the input is in order. -/
theorem checking_ends_like_compiling (files : FileSystem) (path : String) :
    let compiled := Options.runOn ⟨[path], none, false⟩ files
    let checked := Options.runOn ⟨[path], none, true⟩ files
    (checked.1 = compiled.1 ∧ checked.2.complaints = compiled.2.complaints ∧
      ((compiled.1 = 0 ∧ checked.2.printed = path ++ ": ok\n" ∧
          ∃ source, files.read path = .ok source ∧
            compile (reportName path) source = .ok compiled.2.printed) ∨
        (compiled.1 = 1 ∧ checked.2.printed = "" ∧ compiled.2.printed = ""))) ∧
    ∀ args, Request.ofArguments args = .run ⟨[path], none, false⟩ →
      runOn files args = compiled ∧ runOn files ("--check" :: args) = checked := by
  dsimp only
  refine ⟨?_, fun args h => ⟨runOn_of_run files h, runOn_of_run files (Request.ofArguments_check h rfl)⟩⟩
  rw [runOn_of_prints_singleton files rfl rfl, runOn_of_prints_singleton files rfl rfl]
  rcases Options.result_withCheck (o := ⟨[path], none, false⟩) rfl files path with
    ⟨source, css, hread, hcss, hresult, hresult'⟩ | ⟨message, hresult, hresult'⟩
  · rw [Options.withCheck] at hresult'
    rw [hresult, hresult']
    exact ⟨rfl, rfl, .inl ⟨rfl, rfl, source, hread, hcss⟩⟩
  · rw [Options.withCheck] at hresult'
    rw [hresult, hresult']
    exact ⟨rfl, rfl, .inr ⟨rfl, rfl, rfl⟩⟩

/-- One input with a problem, and one without. -/
theorem checking_ends_like_compiling_color :
    let files := ((FileSystem.bare ["work"]).place "bad.icss" (.file "a \x7b color: 1px; \x7d".toUTF8)).place
      "good.icss" (.file "C := #ff0000; a \x7b color: C; \x7d".toUTF8)
    Request.ofArguments ["bad.icss"] = .run ⟨["bad.icss"], none, false⟩ ∧
      Request.ofArguments ["-v", "good.icss"] = .run ⟨["good.icss"], none, false⟩ ∧
      (runOn files ["--check", "bad.icss"]).1 = (runOn files ["bad.icss"]).1 ∧
      (runOn files ["--check", "bad.icss"]).2.complaints = (runOn files ["bad.icss"]).2.complaints ∧
      (runOn files ["--check", "bad.icss"]).1 = 1 ∧
      (runOn files ["--check", "-v", "good.icss"]).1 = (runOn files ["-v", "good.icss"]).1 ∧
      (runOn files ["--check", "-v", "good.icss"]).2.printed = "good.icss: ok\n" ∧
      (runOn files ["-v", "good.icss"]).2.printed = "a \x7b\n  color: #ff0000;\n\x7d\n" := by
  intro files
  have hbad : Request.ofArguments ["bad.icss"] = .run ⟨["bad.icss"], none, false⟩ := by decide +kernel
  have hgood : Request.ofArguments ["-v", "good.icss"] = .run ⟨["good.icss"], none, false⟩ := by decide +kernel
  obtain ⟨⟨hcode, hcomplaints, -⟩, hbads⟩ := checking_ends_like_compiling files "bad.icss"
  obtain ⟨⟨hcode', -⟩, hgoods⟩ := checking_ends_like_compiling files "good.icss"
  obtain ⟨hcompiled, hchecked⟩ := hbads _ hbad
  obtain ⟨hcompiled', hchecked'⟩ := hgoods _ hgood
  refine ⟨hbad, hgood, ?_, ?_, by decide +kernel, ?_, by decide +kernel, by decide +kernel⟩
  · rw [hcompiled, hchecked, hcode]
  · rw [hcompiled, hchecked, hcomplaints]
  · rw [hcompiled', hchecked', hcode']

/-- The run is to write this CSS. It is that of the only input, and more is asked for than a check. -/
def Options.Finishes (o : Options) (files : FileSystem) (css : String) : Prop :=
  o.check = false ∧ ∃ path source, o.inputs = [path] ∧ files.read path = .ok source ∧
    compile (reportName path) source = .ok css

/-- Only a check is asked for, of a single input, and nothing is wrong with it. -/
def Options.Passes (o : Options) (files : FileSystem) : Prop :=
  o.check = true ∧ ∃ path source sheet, o.inputs = [path] ∧ files.read path = .ok source ∧
    TypedCss.check (reportName path) source = .ok (sheet, [])

theorem Options.result_eq_ok {text : String} : o.result files path = .ok text ↔
    ∃ source, files.read path = .ok source ∧ o.answer path source = .ok text := by
  unfold result
  cases files.read path <;> simp

theorem Options.answer_of_compiling {source css : String} (hcheck : o.check = false) :
    o.answer path source = .ok css ↔ compile (reportName path) source = .ok css := by
  unfold answer
  rw [hcheck, if_neg Bool.false_ne_true]
  cases compile (reportName path) source with
  | error fault => exact ⟨nofun, nofun⟩
  | ok text => exact ⟨fun h => congrArg Except.ok (Except.ok.inj h), fun h => congrArg Except.ok (Except.ok.inj h)⟩

theorem Options.answer_of_checking {source : String} (hcheck : o.check = true) :
    (∃ text, o.answer path source = .ok text) ↔
      ∃ sheet, TypedCss.check (reportName path) source = .ok (sheet, []) := by
  unfold answer
  rw [if_pos hcheck]
  cases TypedCss.check (reportName path) source with
  | error fault => simp
  | ok checked =>
    obtain ⟨sheet, ds⟩ := checked
    cases ds <;> simp

theorem Options.finishes_iff {css : String} (hcheck : o.check = false) (hinputs : o.inputs = [path]) :
    o.Finishes files css ↔ o.result files path = .ok css := by
  rw [result_eq_ok]
  constructor
  · rintro ⟨-, path', source, hpath, hread, hcss⟩
    obtain rfl : path = path' := List.singleton_inj.1 (hinputs ▸ hpath)
    exact ⟨source, hread, (answer_of_compiling hcheck).2 hcss⟩
  · rintro ⟨source, hread, hcss⟩
    exact ⟨hcheck, path, source, hinputs, hread, (answer_of_compiling hcheck).1 hcss⟩

theorem Options.passes_iff (hcheck : o.check = true) (hinputs : o.inputs = [path]) :
    o.Passes files ↔ ∃ text, o.result files path = .ok text := by
  simp only [result_eq_ok]
  constructor
  · rintro ⟨-, path', source, sheet, hpath, hread, hsheet⟩
    obtain rfl : path = path' := List.singleton_inj.1 (hinputs ▸ hpath)
    obtain ⟨text, htext⟩ := (answer_of_checking hcheck).2 ⟨sheet, hsheet⟩
    exact ⟨text, source, hread, htext⟩
  · rintro ⟨text, source, hread, htext⟩
    obtain ⟨sheet, hsheet⟩ := (answer_of_checking hcheck).1 ⟨text, htext⟩
    exact ⟨hcheck, path, source, sheet, hinputs, hread, hsheet⟩

/-- A run on a single input. -/
theorem runOn_of_singleton (hinputs : o.inputs = [path]) :
    o.runOn files =
      match (processInput .model o path).run ⟨files, "", ""⟩ with
      | (none, w) => (0, w)
      | (some message, w) => (1, { w with complaints := w.complaints ++ (message ++ "\n") }) := by
  unfold Options.runOn runOptions
  rw [hinputs, List.length_singleton, if_neg (by simp), run_bind, processInputs, run_bind]
  rcases (processInput .model o path).run ⟨files, "", ""⟩ with ⟨message?, w⟩
  cases message? <;> rfl

/-- A run that names an output for several inputs does nothing. -/
theorem runOn_of_several (hout : o.output?.isSome) (hinputs : 1 < o.inputs.length) :
    o.runOn files = (1, ⟨files, "", "--output can only be used with a single input file\n"⟩) := by
  unfold Options.runOn runOptions
  rw [hout, Bool.true_and, if_pos (decide_eq_true hinputs), run_bind, run_complain]
  rfl

/-- There is nothing to write, or nowhere to write it to, and the exit code of a run with an output says whether
that is in order. -/
structure Leaves (o : Options) (files : FileSystem) (code : UInt32) : Prop where
  unfinished : ∀ out css l, o.output? = some out → o.Finishes files css → files.target out ≠ .ok l
  passes : o.output?.isSome → o.Passes files → code = 0
  fails : o.output?.isSome → ¬o.Passes files → code = 1

theorem leaves_of_several (hinputs : 1 < o.inputs.length) : Leaves o files 1 := by
  have hne : ∀ path, o.inputs ≠ [path] := by
    rintro path hpath
    simp [hpath] at hinputs
  refine ⟨?_, ?_, fun _ _ => rfl⟩
  · rintro out css l - ⟨-, path, source, hpath, -⟩
    exact absurd hpath (hne path)
  · rintro - ⟨-, path, source, sheet, hpath, -⟩
    exact absurd hpath (hne path)

theorem leaves_of_error {message : String} (hinputs : o.inputs = [path])
    (h : o.result files path = .error message) : Leaves o files 1 := by
  refine ⟨?_, ?_, fun _ _ => rfl⟩
  · intro out css l _ hfinishes
    rw [Options.finishes_iff hfinishes.1 hinputs, h] at hfinishes
    cases hfinishes
  · intro _ hpasses
    rw [Options.passes_iff hpasses.1 hinputs, h] at hpasses
    obtain ⟨text, htext⟩ := hpasses
    cases htext

theorem leaves_of_checking {text : String} (hcheck : o.check = true) (hinputs : o.inputs = [path])
    (h : o.result files path = .ok text) : Leaves o files 0 := by
  refine ⟨?_, fun _ _ => rfl, ?_⟩
  · rintro out css l - ⟨hcompiling, -⟩
    rw [hcheck] at hcompiling
    cases hcompiling
  · intro _ hfails
    exact absurd ((Options.passes_iff hcheck hinputs).2 ⟨text, h⟩) hfails

theorem leaves_of_no_target {out : String} {e : AccessError} (hcheck : o.check = false) (hout : o.output? = some out)
    (h : files.target out = .error e) : Leaves o files 1 := by
  refine ⟨?_, ?_, fun _ _ => rfl⟩
  · rintro out' css l hout' -
    obtain rfl := Option.some.inj (hout.symm.trans hout')
    rw [h]
    nofun
  · rintro - ⟨hchecking, -⟩
    rw [hcheck] at hchecking
    cases hchecking

/-- A run writes a finished stylesheet and does nothing else, or it leaves the files as they are. -/
theorem runOn_writes_or_leaves (files : FileSystem) (hne : o.inputs ≠ []) :
    (∃ out css l, o.output? = some out ∧ o.Finishes files css ∧ files.target out = .ok l ∧
      o.runOn files = (0, ⟨files.put l css.toUTF8, "", ""⟩)) ∨
    ((o.runOn files).2.files = files ∧ Leaves o files (o.runOn files).1) := by
  cases hout : o.output? with
  | none =>
    refine .inr ⟨by rw [runOn_of_prints files hout], ?_, ?_, ?_⟩
    all_goals simp [hout]
  | some out =>
    by_cases hseveral : 1 < o.inputs.length
    · rw [runOn_of_several (by simp [hout]) hseveral]
      exact .inr ⟨rfl, leaves_of_several hseveral⟩
    · obtain ⟨path, hinputs⟩ : ∃ path, o.inputs = [path] := by
        have := List.length_pos_iff.2 hne
        exact List.length_eq_one_iff.1 (by omega)
      rw [runOn_of_singleton hinputs]
      cases hresult : o.result files path with
      | error message =>
        rw [processInput_of_error (w := ⟨files, "", ""⟩) hresult]
        exact .inr ⟨rfl, leaves_of_error hinputs hresult⟩
      | ok text =>
        cases hcheck : o.check with
        | true =>
          have hprints : (if o.check then none else o.output?) = none := by rw [hcheck, if_pos rfl]
          rw [processInput_of_prints (w := ⟨files, "", ""⟩) hresult hprints]
          exact .inr ⟨rfl, leaves_of_checking hcheck hinputs hresult⟩
        | false =>
          have htext : (if o.check then none else o.output?) = some out := by
            rw [hcheck, if_neg Bool.false_ne_true, hout]
          cases htarget : files.target out with
          | error e =>
            rw [processInput_of_no_target (w := ⟨files, "", ""⟩) hresult htext htarget]
            exact .inr ⟨rfl, leaves_of_no_target hcheck hout htarget⟩
          | ok l =>
            rw [processInput_of_target (w := ⟨files, "", ""⟩) hresult htext htarget]
            exact .inl ⟨out, text, l, rfl, (Options.finishes_iff hcheck hinputs).2 hresult, htarget, rfl⟩

theorem Options.Finishes.unique {css css' : String} (h : o.Finishes files css) (h' : o.Finishes files css') :
    css = css' := by
  obtain ⟨-, path, source, hpath, hread, hcss⟩ := h
  obtain ⟨-, path', source', hpath', hread', hcss'⟩ := h'
  obtain rfl := List.singleton_inj.1 (hpath.symm.trans hpath')
  obtain rfl := Except.ok.inj (hread.symm.trans hread')
  exact Except.ok.inj (hcss.symm.trans hcss')

/-- The only change that a run makes to the files is that the output gets the CSS of the only input, where it has
some. Then nothing is printed and the exit code is 0. In all other runs with an output, the files stay as they are,
and the exit code is 1 unless only a check was asked for and passed. -/
theorem only_finished_css_is_written (files : FileSystem) (o : Options) :
    (o.inputs ≠ [] →
      let code := (o.runOn files).1
      let world := (o.runOn files).2
      (∀ l, world.files.entryAt? l ≠ files.entryAt? l →
        ∃ out css, o.output? = some out ∧ files.target out = .ok l ∧ o.Finishes files css) ∧
      world.files.working = files.working ∧ world.files.refusal? = files.refusal? ∧
      ∀ out, o.output? = some out →
        (∀ css l, o.Finishes files css → files.target out = .ok l →
          world.files.entryAt? l = some (.file css.toUTF8) ∧ world.printed = "" ∧ code = 0) ∧
        ((∀ css l, o.Finishes files css → files.target out ≠ .ok l) →
          world.files = files ∧ (o.Passes files → code = 0) ∧ (¬o.Passes files → code = 1))) ∧
    ∀ args, Request.ofArguments args = .run o → o.inputs ≠ [] ∧ runOn files args = o.runOn files := by
  refine ⟨fun hne => ?_, fun args h => ⟨Request.inputs_ne_nil h, runOn_of_run files h⟩⟩
  dsimp only
  rcases runOn_writes_or_leaves files hne with
    ⟨out, css, l, hout, hfinishes, htarget, hrun⟩ | ⟨hfiles, hleaves⟩
  · rw [hrun]
    refine ⟨?_, rfl, rfl, fun out' hout' => ?_⟩
    · intro k hk
      by_cases hkl : k = l
      · subst hkl
        exact ⟨out, css, hout, htarget, hfinishes⟩
      · exact absurd (FileSystem.entryAt?_put_of_ne files css.toUTF8 hkl) hk
    · obtain rfl := Option.some.inj (hout.symm.trans hout')
      refine ⟨fun css' l' hfinishes' htarget' => ?_, fun hnone => absurd htarget (hnone css l hfinishes)⟩
      obtain rfl := hfinishes.unique hfinishes'
      obtain rfl := Except.ok.inj (htarget.symm.trans htarget')
      exact ⟨files.entryAt?_put_self l css.toUTF8, rfl, rfl⟩
  · rw [hfiles]
    refine ⟨fun l hl => absurd rfl hl, rfl, rfl, fun out hout => ?_⟩
    have hsome : o.output?.isSome := by simp [hout]
    refine ⟨fun css l hfinishes htarget => ?_, fun _ => ⟨rfl, hleaves.passes hsome, hleaves.fails hsome⟩⟩
    exact absurd htarget (hleaves.unfinished out css l hout hfinishes)

/-- The output is the input itself. -/
theorem only_finished_css_is_written_over_input :
    let source := "a \x7b width: 1px + 2px; \x7d"
    let files := (FileSystem.bare ["work"]).place "a.icss" (.file source.toUTF8)
    let args := ["-o", "./a.icss", "a.icss"]
    let o : Options := ⟨["a.icss"], some "./a.icss", false⟩
    let css := "a \x7b\n  width: 3px;\n\x7d\n"
    Request.ofArguments args = .run o ∧ o.Finishes files css ∧ files.target "./a.icss" = .ok ["a.icss", "work"] ∧
      (runOn files args).1 = 0 ∧ (runOn files args).2.printed = "" ∧
      (runOn files args).2.files.entryAt? ["a.icss", "work"] = some (.file css.toUTF8) ∧
      ∀ l, (runOn files args).2.files.entryAt? l ≠ files.entryAt? l → l = ["a.icss", "work"] := by
  intro source files args o css
  have hargs : Request.ofArguments args = .run o := by decide +kernel
  have htarget : files.target "./a.icss" = .ok ["a.icss", "work"] := rfl
  have hread : files.read "a.icss" = .ok source := toOption_eq_some.1 (by decide +kernel)
  have hcompile : compile (reportName "a.icss") source = .ok css := toOption_eq_some.1 (by decide +kernel)
  have hfinishes : o.Finishes files css := ⟨rfl, "a.icss", source, rfl, hread, hcompile⟩
  obtain ⟨hwrites, hruns⟩ := only_finished_css_is_written files o
  obtain ⟨hne, hrun⟩ := hruns args hargs
  obtain ⟨hchanged, -, -, hout⟩ := hwrites hne
  obtain ⟨hentry, hprinted, hcode⟩ := (hout "./a.icss" rfl).1 css _ hfinishes htarget
  rw [hrun]
  refine ⟨hargs, hfinishes, htarget, hcode, hprinted, hentry, fun l hl => ?_⟩
  obtain ⟨out, _, hout', hl', -⟩ := hchanged l hl
  obtain rfl := Option.some.inj hout'
  rw [htarget] at hl'
  exact (Except.ok.inj hl').symm

end TypedCss.CommandLine
