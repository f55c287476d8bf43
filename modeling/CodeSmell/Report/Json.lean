import CodeSmell.Report.Result
import CodeSmell.Text.Quoted

/-!
# JSON reports

A report as a JSON document, indented by two blanks a level. Characters that mean something to HTML
are escaped, and a byte that is part of no character is written as the escaped replacement
character.
-/

set_option autoImplicit false

namespace CodeSmell

namespace Json

/-- The letter of the short escape of a character. -/
def shortEscape? (c : Char) : Option Char :=
  match c.toNat with
  | 0x22 => some '"'
  | 0x5C => some '\\'
  | 0x08 => some 'b'
  | 0x0C => some 'f'
  | 0x0A => some 'n'
  | 0x0D => some 'r'
  | 0x09 => some 't'
  | _ => none

/-- A character of a string literal. -/
def escapeChar (c : Char) : List Char :=
  match shortEscape? c with
  | some letter => ['\\', letter]
  | none =>
    if c.toNat < 0x20 ∨ c = '<' ∨ c = '>' ∨ c = '&' ∨ c.toNat = 0x2028 ∨ c.toNat = 0x2029 then
      '\\' :: 'u' :: Quoted.hexDigits c.toNat 4
    else [c]

/-- A string literal. -/
def quote (t : Text) : Text :=
  Text.ofChars ('"' :: (t.glyphs.flatMap fun
    | .char c => escapeChar c
    | .stray _ => ['\\', 'u', 'f', 'f', 'f', 'd']) ++ ['"'])

/-- Doubles in JSON: an exponent is written below a millionth and from the twenty-second digit
on. -/
def floatStyle : FloatStyle := ⟨-6, 21, 1, 2⟩

/-- A line end and the indentation of a level. -/
def newline (level : Nat) : Text := Text.ofChars ('\n' :: List.replicate (2 * level) ' ')

/-- Items between brackets, one a line. -/
def enclose (opening closing : String) (level : Nat) (items : List Text) : Text :=
  if items.isEmpty then opening ++ closing
  else opening ++ newline (level + 1) ++ Text.join ("," ++ newline (level + 1)) items
    ++ newline level ++ closing

mutual

/-- A value at a level of indentation. -/
def render (level : Nat) : Datum → Text
  | .null => "null"
  | .bool b => if b then "true" else "false"
  | .int n => Text.ofInt n
  | .float x => floatStyle.render x
  | .text t => quote t
  | .list items => enclose "[" "]" level (renderAll (level + 1) items)
  | .record fields => enclose "\x7b" "\x7d" level (renderFields (level + 1) fields)

/-- Several values. -/
def renderAll (level : Nat) : List Datum → List Text
  | [] => []
  | d :: ds => render level d :: renderAll level ds

/-- Several fields. -/
def renderFields (level : Nat) : List (String × Datum) → List Text
  | [] => []
  | (name, d) :: rest => (quote name ++ ": " ++ render level d) :: renderFields level rest

end

end Json

/-- A warning as data. Details are left out when there are none. -/
def Warning.datum (w : Warning) : Datum :=
  .record ([("smell_type", .text w.smell), ("severity", .int w.severity.level),
    ("source", .text w.source), ("context", .text w.context),
    ("lines", match w.lines with
      | some lines => .list (lines.map Datum.int)
      | none => .null),
    ("message", .text w.message)]
    ++ if w.details.isEmpty then [] else [("parameters", .record w.details)])

/-- Counts as data. -/
def countsDatum (counts : Fields String Nat) : Datum :=
  .record (counts.entries.map fun (name, n) => (name, .int n))

/-- A result as data. -/
def Result.datum (r : Result) : Datum :=
  .record [("files_analyzed", .list (r.files.map fun f => .text (Text.ofString f))),
    ("total_warnings", .int r.warnings.length),
    ("warnings_by_severity", countsDatum r.bySeverity),
    ("warnings_by_smell", countsDatum r.bySmell),
    ("warnings", .list (r.warnings.map Warning.datum)),
    ("quality_score", .int r.score),
    ("analysis_duration", .text r.duration)]

/-- The JSON report of a result. -/
def Result.json (r : Result) : Text := Json.render 0 r.datum

end CodeSmell
