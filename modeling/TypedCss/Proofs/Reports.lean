import TypedCss.Proofs.CorrectPrefix
import TypedCss.Proofs.LinePlaces
import TypedCss.Proofs.PlacelessReading
import TypedCss.Proofs.Placing
import TypedCss.Proofs.Soundness
import TypedCss.Report

/-!
# Reports point at what they name

Each fault in reading a source and each problem in its stylesheet is at an offset in the source, and what it names
stands there. So every report ends with the line of the source that has this offset, and a caret below it.
-/

namespace TypedCss

variable {file source : String}

namespace Note.StandsAt

variable {n : Note} {text : String}

theorem report (h : n.StandsAt file source text) {new? : Option Problem}
    (hnew : ∀ p ∈ new?, p.subject = text ∨ p.subject = "") : (n.report new?).StandsAt file source text := by
  refine ⟨h.start, ?_⟩
  cases new? with
  | none => exact h.problem
  | some p =>
    intro p' hp'
    obtain rfl := Option.some.inj hp'
    rcases hnew p rfl with hp | hp
    · rw [hp]
      exact h.start
    · rw [hp]
      exact h.start.front

theorem diagnostics (h : n.StandsAt file source text) :
    ∀ d ∈ n.diagnostics, d.span.start.PointsAt file source d.problem.subject := by
  intro d hd
  obtain ⟨p, hp, rfl⟩ := List.mem_map.1 hd
  exact h.problem p (Option.mem_toList.1 hp)

end Note.StandsAt

theorem Operator.subject_of_resultType {op : Operator} {l r : ValueType} {p : Problem}
    (h : op.resultType l r = .error p) : p.subject = "" := by
  unfold resultType at h
  split at h
  · cases h
  · cases h
  · split at h
    · cases h
    · split at h
      · cases h
      · cases h
        rfl
  · split at h
    · cases h
    · cases h
      rfl

theorem subject_of_declarationProblem? {types : Types} {property : String} {value : Expr} {p : Problem}
    (h : declarationProblem? types property value = some p) : p.subject = property := by
  unfold declarationProblem? at h
  split at h
  · cases h
    rfl
  · split at h
    · obtain ⟨found, -, rfl⟩ := Option.map_eq_some_iff.1 h
      rfl
    · cases h

theorem subject_of_conditionProblem? {types : Types} {condition : Expr} {p : Problem}
    (h : conditionProblem? types condition = some p) : p.subject = "if" := by
  unfold conditionProblem? at h
  split at h
  · cases h
  · cases h
    rfl

namespace Expr

theorem check_isPlaced (types : Types) {e : Expr} (h : e.IsPlaced file source) :
    (e.check types).IsPlaced file source := by
  induction e with
  | literal v n => exact h
  | reference x n =>
    refine Note.StandsAt.report h fun p hp => ?_
    split at hp
    · obtain rfl := Option.some.inj hp
      exact .inl rfl
    · cases hp
  | operation op l r n ihl ihr =>
    obtain ⟨hn, hl, hr⟩ := h
    refine ⟨hn.report fun p hp => .inr ?_, ihl hl, ihr hr⟩
    cases hresult : op.resultType (l.type types) (r.type types) with
    | ok t =>
      rw [hresult] at hp
      cases hp
    | error p' =>
      rw [hresult] at hp
      obtain rfl := Option.some.inj hp
      exact Operator.subject_of_resultType hresult

theorem diagnostics_of_isPlaced {e : Expr} (h : e.IsPlaced file source) :
    ∀ d ∈ e.diagnostics, d.span.start.PointsAt file source d.problem.subject := by
  induction e with
  | literal v n => exact Note.StandsAt.diagnostics h
  | reference x n => exact Note.StandsAt.diagnostics h
  | operation op l r n ihl ihr =>
    obtain ⟨hn, hl, hr⟩ := h
    exact List.forall_mem_append.2 ⟨hn.diagnostics, List.forall_mem_append.2 ⟨ihl hl, ihr hr⟩⟩

end Expr

namespace Stmt

mutual

/-- Checking reports nothing but problems of what a node begins with. -/
theorem check_isPlaced (types : Types) : (s : Stmt) → s.IsPlaced file source →
    (s.check types).1.IsPlaced file source
  | assignment .., h => ⟨h.1, Expr.check_isPlaced types h.2⟩
  | declaration .., h =>
    ⟨h.1.report fun _ hp => .inl (subject_of_declarationProblem? hp), Expr.check_isPlaced types h.2⟩
  | rule _ body _, h => ⟨h.1, checkAll_isPlaced types.enter body h.2⟩
  | ifClause _ body _, h =>
    ⟨h.1.report fun _ hp => .inl (subject_of_conditionProblem? hp), Expr.check_isPlaced types h.2.1,
      checkAll_isPlaced types body h.2.2⟩

theorem checkAll_isPlaced (types : Types) : (ss : List Stmt) → AllPlaced file source ss →
    AllPlaced file source (checkAll types ss).1
  | [], _ => trivial
  | s :: ss, h => ⟨check_isPlaced types s h.1, checkAll_isPlaced (s.check types).2 ss h.2⟩

end

mutual

theorem diagnostics_of_isPlaced : (s : Stmt) → s.IsPlaced file source →
    ∀ d ∈ s.diagnostics, d.span.start.PointsAt file source d.problem.subject
  | assignment .., h => List.forall_mem_append.2 ⟨h.1.diagnostics, Expr.diagnostics_of_isPlaced h.2⟩
  | declaration .., h => List.forall_mem_append.2 ⟨h.1.diagnostics, Expr.diagnostics_of_isPlaced h.2⟩
  | rule _ body _, h => List.forall_mem_append.2 ⟨h.1.diagnostics, diagnostics_of_allPlaced body h.2⟩
  | ifClause _ body _, h =>
    List.forall_mem_append.2 ⟨h.1.diagnostics,
      List.forall_mem_append.2 ⟨Expr.diagnostics_of_isPlaced h.2.1, diagnostics_of_allPlaced body h.2.2⟩⟩

theorem diagnostics_of_allPlaced : (ss : List Stmt) → AllPlaced file source ss →
    ∀ d ∈ allDiagnostics ss, d.span.start.PointsAt file source d.problem.subject
  | [], _ => nofun
  | s :: ss, h => List.forall_mem_append.2 ⟨diagnostics_of_isPlaced s h.1, diagnostics_of_allPlaced ss h.2⟩

end

end Stmt

namespace Stylesheet

open Grammar

variable {sheet : Stylesheet} {fault : Fault} {ts : List Token}

theorem ofTokens_isPlaced (hsize : source.utf8ByteSize < 4294967296) (hts : Token.ofSource file source = .ok ts) :
    YieldsAt file source (fun sheet => Stmt.AllPlaced file source sheet.body) (stylesheet .standard file)
      (.ofTokens file ts) := by
  have hplaced := Token.isPlaced_of_ofSource hsize hts
  obtain ⟨w, last, rfl, -, -⟩ := Token.exists_of_ofSource hts
  rw [Stream.ofTokens_append_singleton]
  have hs : Stream.IsPlaced file source ⟨w ++ [last], last⟩ :=
    ⟨hplaced, hplaced last (List.mem_append_right w List.mem_cons_self)⟩
  refine .peek (Parse.get_apply _) (.bind (topStatementsWithin_yields _ _ hs) fun ss s' hs' hss => ?_)
  exact .peek (Parse.position_apply s') (.pure hs' hss)

/-- The parser does not run in circles on the tokens of a source. -/
theorem cause_ne_runaway (hts : Token.ofSource file source = .ok ts) (h : ofTokens file ts = .error fault) :
    fault.cause ≠ .runaway := by
  by_cases houtside : IsOutside fault
  · obtain ⟨t, ht⟩ := houtside
    rw [ht]
    nofun
  · obtain ⟨w, last, rfl, hlast, hw⟩ := Token.exists_of_ofSource hts
    have hrun := error_of_stylesheet (Parse.outcome_eq_error h)
    rw [Stream.ofTokens_append_singleton] at hrun
    have hbudget : 2 * (w ++ [last]).length + 2 < Stream.budget ⟨w ++ [last], last⟩ := by
      exact Nat.add_lt_add_left (by decide) _
    exact (topStatementsWithin_stops _ (Stream.isSpelled_of_tokens hlast hw) hbudget hrun houtside).fault.cause

theorem isPlaced_of_read (hsize : source.utf8ByteSize < 4294967296) (h : ofSource file source = .ok sheet) :
    Stmt.AllPlaced file source sheet.body := by
  obtain ⟨ts, hts, hread⟩ := except_bind_eq_ok.1 h
  exact ((ofTokens_isPlaced hsize hts).ok (Parse.outcome_eq_ok.1 hread)).2

/-- The token at which reading the source stops, if the source has tokens. -/
def stop? (file source : String) : Option Token :=
  match Token.ofSource file source with
  | .ok ts => some ((stylesheet .standard file).outcome (.ofTokens file ts)).2.current
  | .error _ => none

theorem isPlaced_of_fault (hsize : source.utf8ByteSize < 4294967296) (h : ofSource file source = .error fault) :
    fault.IsPlaced file source (stop? file source) := by
  cases hts : Token.ofSource file source with
  | error fault' =>
    rw [ofSource, hts] at h
    obtain rfl := Except.error.inj h
    exact Token.isPlaced_of_unrecognised hsize hts _
  | ok ts =>
    rw [ofSource_of_tokens hts] at h
    rw [stop?, hts]
    exact (ofTokens_isPlaced hsize hts).error (Parse.outcome_eq_error h) (cause_ne_runaway hts h)

/-- Nothing is wrong with the empty source. -/
theorem ofSource_empty (file : String) : ofSource file "" = .ok ⟨[], ⟨0, file⟩, ⟨0, file⟩⟩ := by
  have hlexemes : Lexeme.all "".toList = ([], []) := Lexeme.all_of_none rfl
  have hts : Token.ofSource file "" = .ok [.endOfInput file 0] := by
    rw [Token.ofSource_eq_ok, hlexemes]
    exact ⟨rfl, rfl⟩
  rw [ofSource_of_tokens hts]
  rfl

end Stylesheet

namespace Text

/-- The line consists of the spaces and tabs it begins with, what is shown of it, and the white space at its end. -/
structure IsTrimmed (line indent shown trail : List Char) : Prop where
  parts : line = indent ++ (shown ++ trail)
  inner_head : ∀ c ∈ (shown ++ trail).head?, ¬(c = ' ' ∨ c = '\t')
  shown_last : ∀ c ∈ shown.getLast?, ¬isBlank c
  blank_indent : ∀ c ∈ indent, c = ' ' ∨ c = '\t'
  blank_trail : ∀ c ∈ trail, isBlank c

theorem isTrimmed (line : List Char) :
    IsTrimmed line (indentation line) (trimEnd (dropIndent line)) (trail (dropIndent line)) where
  parts := by rw [trimEnd_append_trail, indentation_append_dropIndent]
  inner_head c hc := by
    have hnot := List.head?_dropWhile_not (fun c => c == ' ' || c == '\t') line
    rw [trimEnd_append_trail, dropIndent, Option.mem_def] at hc
    rw [hc] at hnot
    simpa using hnot
  shown_last c hc := by
    have hnot := List.head?_dropWhile_not isBlank (dropIndent line).reverse
    rw [trimEnd, List.getLast?_reverse, Option.mem_def] at hc
    rw [hc] at hnot
    simpa using hnot
  blank_indent c hc := by simpa using List.all_eq_true.1 List.all_takeWhile c hc
  blank_trail c hc := List.all_eq_true.1 List.all_takeWhile c (List.mem_reverse.1 hc)

end Text

/-- The report ends with two lines. The first has the number of the line of the source that has the position, counted
from 1, and this line itself, without its indentation and the white space at its end. The second has a caret, behind as
many dashes as there are bytes from the indentation to the position. -/
def Report.Shows (source : String) (p : Position) (report : String) : Prop :=
  ∃ (earlier later above : List (List Char)) (line indent shown trail : List Char) (offset : Nat),
    Text.lines source.toList = earlier ++ line :: later ∧
      Text.size earlier.flatten + offset = p.offset.toNat ∧
      (offset < Text.size line ∨ later = [] ∧ offset = Text.size line) ∧
      Text.IsTrimmed line indent shown trail ∧
      Text.lines report.toList = above ++
        [(earlier.length + 1).repr.toList ++ [' ', '|', ' '] ++ shown ++ ['\n'],
          List.replicate ((earlier.length + 1).repr.length + 1) ' ' ++ ['|', ' '] ++
            List.replicate (offset - indent.length) '-' ++ ['^', '\n']]

theorem Report.shows_text {p : Position} (hne : source ≠ "") (h : p.offset.toNat ≤ source.utf8ByteSize)
    (name : String) (tip? : Option String) : Report.Shows source p (Report.text name tip? p source) := by
  obtain ⟨place, hplace, hmem⟩ := Text.exists_placeAt? hne h
  obtain ⟨earlier, later, hlines, hnumber, hoffset, hinside⟩ := Text.placeIn_eq_some.1 hplace
  obtain ⟨above, habove⟩ := lines_text name tip? hplace hmem
  refine ⟨earlier, later, above, place.line, _, _, _, place.offset, hlines, hoffset, hinside,
    Text.isTrimmed place.line, ?_⟩
  rw [habove, printed, lead, margin, hnumber, Nat.add_comm 1]
  rfl

theorem Fault.IsPlaced.pointsAt {fault : Fault} {stop? : Option Token} (h : fault.IsPlaced file source stop?) :
    fault.position.PointsAt file source "" := by
  unfold IsPlaced at h
  split at h
  · exact h.2.front
  · exact h.pointsAt
  · exact h.pointsAt
  · exact h.front
  · exact h.elim

/-- Faults and problems are in the file, at an offset in the source where the text stands that they name. The
exception are faults at the end of the input. Their reports show the line of the source and a caret. -/
theorem reports_point_at_what_they_name (hsize : source.utf8ByteSize < 4294967296) :
    (∀ fault, Stylesheet.ofSource file source = .error fault →
      fault.IsPlaced file source (Stylesheet.stop? file source) ∧ fault.position.file = file ∧
        fault.position.offset.toNat ≤ source.utf8ByteSize ∧
        Report.Shows source fault.position (fault.report source)) ∧
    ∀ sheet ds, check file source = .ok (sheet, ds) → ∀ d ∈ ds,
      d.span.start.PointsAt file source d.problem.subject ∧ d.span.start.file = file ∧
        d.span.start.offset.toNat ≤ source.utf8ByteSize ∧
        Report.Shows source d.span.start (d.report source) := by
  constructor
  · intro fault h
    have hplaced := Stylesheet.isPlaced_of_fault hsize h
    have hpoints := hplaced.pointsAt
    have hne : source ≠ "" := by
      rintro rfl
      rw [Stylesheet.ofSource_empty] at h
      cases h
    exact ⟨hplaced, hpoints.file, hpoints.offset_le, Report.shows_text hne hpoints.offset_le _ _⟩
  · intro sheet ds h d hd
    obtain ⟨parsed, hread, -, rfl⟩ := check_eq_ok h
    have hplaced := Stmt.checkAll_isPlaced .empty parsed.body (Stylesheet.isPlaced_of_read hsize hread)
    have hpoints := Stmt.diagnostics_of_allPlaced _ hplaced d hd
    have hne : source ≠ "" := by
      rintro rfl
      rw [Stylesheet.ofSource_empty] at hread
      obtain rfl := Except.ok.inj hread
      cases hd
    exact ⟨hpoints, hpoints.file, hpoints.offset_le, Report.shows_text hne hpoints.offset_le _ _⟩

/-- A parenthesis that is not closed, and two problems on the second line, after a comment that is not ASCII. -/
theorem reports_point_at_what_they_name_comment :
    let broken := "/* é */ a \x7b w: (1px; \x7d"
    let illTyped := "/* é */\na \x7b width: 2 * Ab; if [1px] \x7b \x7d \x7d"
    broken.utf8ByteSize < 4294967296 ∧ illTyped.utf8ByteSize < 4294967296 ∧
      (∃ fault, Stylesheet.ofSource "a.icss" broken = .error fault ∧ fault.cause = .unexpected ";" ∧
        fault.position.Names "a.icss" broken ";" (Stylesheet.stop? "a.icss" broken) ∧
        fault.position.offset = 20 ∧
        Report.Shows broken fault.position (fault.report broken)) ∧
      ∃ sheet ds, check "a.icss" illTyped = .ok (sheet, ds) ∧
        ds.map (fun d => (d.problem.subject, d.span.start.offset)) = [("Ab", 24), ("if", 28)] ∧
        ∀ d ∈ ds, d.span.start.PointsAt "a.icss" illTyped d.problem.subject ∧
          Report.Shows illTyped d.span.start (d.report illTyped) := by
  intro broken illTyped
  have hbroken : broken.utf8ByteSize < 4294967296 := by decide +kernel
  have hillTyped : illTyped.utf8ByteSize < 4294967296 := by decide +kernel
  refine ⟨hbroken, hillTyped, ?_, ?_⟩
  · have hfault : (match Stylesheet.ofSource "a.icss" broken with
        | .ok _ => none
        | .error fault => some fault) = some ⟨.unexpected ";", ⟨20, "a.icss"⟩⟩ := by decide +kernel
    cases hread : Stylesheet.ofSource "a.icss" broken with
    | ok sheet =>
      rw [hread] at hfault
      cases hfault
    | error fault =>
      rw [hread] at hfault
      obtain rfl := Option.some.inj hfault
      obtain ⟨hplaced, -, -, hshows⟩ := (reports_point_at_what_they_name hbroken).1 _ hread
      exact ⟨_, rfl, rfl, hplaced, rfl, hshows⟩
  · have hsubjects : (check "a.icss" illTyped).toOption.map (fun checked => checked.2.map fun d =>
        (d.problem.subject, d.span.start.offset)) = some [("Ab", 24), ("if", 28)] := by decide +kernel
    cases hcheck : check "a.icss" illTyped with
    | error fault =>
      rw [hcheck] at hsubjects
      cases hsubjects
    | ok checked =>
      obtain ⟨sheet, ds⟩ := checked
      rw [hcheck] at hsubjects
      refine ⟨sheet, ds, rfl, Option.some.inj hsubjects, fun d hd => ?_⟩
      obtain ⟨hpoints, -, -, hshows⟩ := (reports_point_at_what_they_name hillTyped).2 sheet ds hcheck d hd
      exact ⟨hpoints, hshows⟩

end TypedCss
