/-!
# Mistakes in patterns

A `Finding` says what is wrong with a pattern and where. `Finding.report` shows the pattern, with
carets under the place, and the wording of the mistake.
-/

namespace ChipEight.Pattern

/-- A place in a pattern; lines and columns count from one. -/
structure Place where
  line : Nat := 1
  column : Nat := 1
  deriving DecidableEq

/-- The place after a character. -/
def Place.past (p : Place) (c : Char) : Place :=
  if c = '\n' then ⟨p.line + 1, 1⟩ else { p with column := p.column + 1 }

/-- A stretch of a pattern. -/
structure Span where
  start : Place
  stop : Place
  deriving DecidableEq

namespace Span

/-- The empty stretch at a place. -/
def point (p : Place) : Span := ⟨p, p⟩

/-- Whether a stretch begins and ends on one line. -/
def onOneLine (s : Span) : Bool := s.start.line == s.stop.line

end Span

/-- What is wrong with a pattern. -/
inductive Mistake where
  | nothingToRepeat
  | countUnclosed
  | countMissing
  | countTooLarge
  | countsReversed
  | groupUnclosed
  | groupUnopened
  | groupNameEmpty
  | groupNameInvalid
  | groupNameUnclosed
  | groupNameTaken
  | flagUnknown
  | flagTwice
  | negationTwice
  | negationOfNothing
  | flagsUnclosed
  | lookAround
  | backreference
  | classUnclosed
  | classEscape
  | rangeEnd
  | rangeReversed
  | escapeUnclosed
  | escapeUnknown
  | hexEmpty
  | hexDigit
  | hexValue
  | propertyInvalid
  | boundaryUnclosed
  | boundaryUnknown
  | boundaryOrCountUnclosed
  | tooDeep
  | wideNotAllowed
  | notText
  | propertyUnknown
  | propertyValueUnknown
  | noWideClass
  | noWideCase
  deriving DecidableEq

namespace Mistake

/-- How deep the parts of a pattern may be nested. -/
def deepest : Nat := 250

/-- The wording of a mistake. -/
def message : Mistake → String
  | nothingToRepeat => "repetition operator missing expression"
  | countUnclosed => "unclosed counted repetition"
  | countMissing => "repetition quantifier expects a valid decimal"
  | countTooLarge => "decimal literal invalid"
  | countsReversed => "invalid repetition count range, the start must be <= the end"
  | groupUnclosed => "unclosed group"
  | groupUnopened => "unopened group"
  | groupNameEmpty => "empty capture group name"
  | groupNameInvalid => "invalid capture group character"
  | groupNameUnclosed => "unclosed capture group name"
  | groupNameTaken => "duplicate capture group name"
  | flagUnknown => "unrecognized flag"
  | flagTwice => "duplicate flag"
  | negationTwice => "flag negation operator repeated"
  | negationOfNothing => "dangling flag negation operator"
  | flagsUnclosed => "expected flag but got end of regex"
  | lookAround => "look-around, including look-ahead and look-behind, is not supported"
  | backreference => "backreferences are not supported"
  | classUnclosed => "unclosed character class"
  | classEscape => "invalid escape sequence found in character class"
  | rangeEnd => "invalid range boundary, must be a literal"
  | rangeReversed => "invalid character class range, the start must be <= the end"
  | escapeUnclosed => "incomplete escape sequence, reached end of pattern prematurely"
  | escapeUnknown => "unrecognized escape sequence"
  | hexEmpty => "hexadecimal literal empty"
  | hexDigit => "invalid hexadecimal digit"
  | hexValue => "hexadecimal literal is not a Unicode scalar value"
  | propertyInvalid => "invalid Unicode character class"
  | boundaryUnclosed =>
    "special word boundary assertion is either unclosed or contains an invalid character"
  | boundaryUnknown =>
    "unrecognized special word boundary assertion, " ++
    "valid choices are: start, end, start-half or end-half"
  | boundaryOrCountUnclosed =>
    "found either the beginning of a special word boundary or a bounded repetition on a \\b " ++
    "with an opening brace, but no closing brace"
  | tooDeep =>
    "exceed the maximum number of nested parentheses/brackets (" ++ toString deepest ++ ")"
  | wideNotAllowed => "Unicode not allowed here"
  | notText => "pattern can match invalid UTF-8"
  | propertyUnknown => "Unicode property not found"
  | propertyValueUnknown => "Unicode property value not found"
  | noWideClass =>
    "Unicode-aware Perl class not found (make sure the unicode-perl feature is enabled)"
  | noWideCase =>
    "Unicode-aware case insensitivity matching is not available " ++
    "(make sure the unicode-case feature is enabled)"

end Mistake

/-- A mistake and the stretch of the pattern that shows it. -/
structure Finding where
  mistake : Mistake
  span : Span
  /-- For something given twice, where it was given first. -/
  first : Option Span := none
  deriving DecidableEq

namespace Finding

/-- A text of one character, repeated. -/
def row (c : Char) (n : Nat) : String := String.ofList (List.replicate n c)

/-- The lines of a text, without their ends; a line may end with a carriage return and a line
feed. -/
def linesOf (text : String) : List String :=
  let parts := text.splitOn "\n"
  let ended := parts.dropLast.map fun l =>
    if l.endsWith "\r" then String.ofList l.toList.dropLast else l
  match parts.getLast? with
  | some "" | none => ended
  | some rest => ended ++ [rest]

/-- Carets under the stretches of one line, in their order; an empty one gets a caret too. -/
def carets : Nat → List Span → String
  | _, [] => ""
  | column, s :: rest =>
    let width := max 1 (s.stop.column - s.start.column)
    row ' ' (s.start.column - column) ++ row '^' width
      ++ carets (max column s.start.column + width) rest

/-- The number of a line, right-aligned. -/
def lineNumber (width k : Nat) : String :=
  row ' ' (width - (toString k).length) ++ toString k

/-- The lines of a pattern, each after a margin, with carets under the stretches. -/
def shown (lines : List String) (margin : Nat → String) (spans : List Span) : List String :=
  lines.zipIdx.flatMap fun (l, k) =>
    let here := spans.filter fun s => s.onOneLine && s.start.line == k + 1
    let noted := margin (k + 1) ++ l
    if here.isEmpty then [noted]
    else [noted, row ' ' (margin (k + 1)).length ++ carets 1 here]

/-- Where a stretch of several lines begins and ends, in words. -/
def extent (s : Span) : String :=
  "on line " ++ toString s.start.line ++ " (column " ++ toString s.start.column ++ ") through line "
    ++ toString s.stop.line ++ " (column " ++ toString (s.stop.column - 1) ++ ")"

/-- The report of a finding. A pattern of one line is indented; the lines of a longer one are
numbered and stand between two rules. -/
def report (f : Finding) (pattern : String) : String :=
  let spans := f.first.toList ++ [f.span]
  let lines := linesOf pattern
  let body :=
    if pattern.contains '\n' then
      let count := lines.length + if pattern.endsWith "\n" then 1 else 0
      let width := (toString count).length
      let rule := row '~' 79
      [rule] ++ shown lines (fun k => lineNumber width k ++ ": ") spans ++ [rule]
        ++ (spans.filter fun s => !s.onOneLine).map extent
    else shown lines (fun _ => row ' ' 4) spans
  "\n".intercalate (["regex parse error:"] ++ body ++ ["error: " ++ f.mistake.message])

end Finding

end ChipEight.Pattern
