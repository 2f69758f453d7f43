import TypedCss.Fault
import TypedCss.Problem
import TypedCss.Text.Blank
import TypedCss.Text.Line

/-!
Reports: what is wrong, the line of the source it is in, and a caret under the place.
-/

namespace TypedCss

namespace Report

def header (name : String) (tip? : Option String) (file : String) : String :=
  let hint := match tip? with
    | some tip => " (" ++ tip ++ ")"
    | none => ""
  "Error: " ++ name ++ hint ++ "\n-> " ++ file ++ "\n"

/-- The line, without its indentation and the white space at its end, and a caret below it. The dashes
before the caret count bytes. This is an ideal of formatted output that refuses widths above 65535: here padding
has no limit. -/
def excerpt (place : Text.LinePlace) : String :=
  let number := place.number.repr
  let margin := String.ofList (List.replicate (number.length + 1) ' ') ++ "|"
  let shown := String.ofList (Text.trimEnd (Text.dropIndent place.line))
  let dashes := String.ofList (List.replicate (place.offset - Text.indent place.line) '-')
  margin ++ "\n" ++ number ++ " | " ++ shown ++ "\n" ++ margin ++ " " ++ dashes ++ "^\n"

/-- A report on the given position, with the line of the source if there is one at its offset. -/
def text (name : String) (tip? : Option String) (position : Position) (source : String) : String :=
  header name tip? position.file ++
    match Text.placeAt? source position.offset.toNat with
    | some place => excerpt place
    | none => ""

end Report

def Fault.report (f : Fault) (source : String) : String :=
  Report.text f.cause.name f.cause.tip f.position source

def Diagnostic.report (d : Diagnostic) (source : String) : String :=
  Report.text d.problem.name (some d.problem.tip) d.span.start source

/-- The reports on all problems, with a blank line between them. -/
def Diagnostic.reports (ds : List Diagnostic) (source : String) : String :=
  "\n".intercalate (ds.map (·.report source))

end TypedCss
