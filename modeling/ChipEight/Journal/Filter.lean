import ChipEight.Pattern
import ChipEight.Record
import ChipEight.Text.Blank

/-!
# Choosing what goes into the journal

Which records are kept is chosen by directives. A directive sets the lowest level for the parts of
the program whose names begin with its own name, or for all parts. Of the directives that concern a
record the one with the longest name decides. Besides, a pattern may have to occur in the text of a
record.

`Filter.read` reads a filter from a text: directives with commas between them and, after a slash,
the pattern. A directive is a level, a name, or a name, an equals sign and a level. What cannot be
read is left out with a warning. If no directive is left, errors are kept.
-/

namespace ChipEight

/-- The lowest level that is kept of some parts of the program. -/
structure Directive where
  /-- What the names of the parts begin with; `none` concerns all parts. -/
  part : Option String
  /-- The lowest level that is kept; `none` keeps no record. -/
  lowest : Option Level
  deriving DecidableEq

namespace Directive

/-- Whether a directive concerns a part of the program. -/
def concerns (d : Directive) (part : String) : Bool :=
  match d.part with
  | some name => name.toList.isPrefixOf part.toList
  | none => true

/-- The length of the name of a directive, in bytes. -/
def reach (d : Directive) : Nat :=
  match d.part with
  | some name => name.utf8ByteSize
  | none => 0

/-- Whether a directive keeps the records of a level. -/
def keeps (d : Directive) (l : Level) : Bool :=
  match d.lowest with
  | some lowest => decide (l.rank ≤ lowest.rank)
  | none => false

/-- The level of a name in any case; `some none` is the absence of all levels. -/
def level? (name : String) : Option (Option Level) :=
  if name.toUpper == "OFF" then some none
  else (Level.all.find? fun l => l.name == name.toUpper).map some

/-- The warning that a part of a filter text was left out. -/
def warning (text : String) : String :=
  "warning: invalid logging spec '" ++ text ++ "', ignoring it"

/-- Reads one directive, or gives the warning that it cannot be read. -/
def read (text : String) : Except String Directive :=
  match text.splitOn "=" with
  | [item] =>
    match level? item with
    | some lowest => .ok ⟨none, lowest⟩
    | none => .ok ⟨some item, some .trace⟩
  | [name, lowest] =>
    let lowest := Text.trim lowest
    if lowest.isEmpty then .ok ⟨some name, some .trace⟩
    else
      match level? lowest with
      | some l => .ok ⟨some name, l⟩
      | none => .error (warning lowest)
  | _ => .error (warning text)

/-- Adds a directive to others, in the place of the one with the same name if there is one. -/
def put (d : Directive) : List Directive → List Directive
  | [] => [d]
  | e :: rest => if e.part = d.part then d :: rest else e :: put d rest

/-- The directives of a list with commas between them, and the warnings about the others. -/
def readAll (text : String) : List Directive × List String :=
  let items := ((text.splitOn ",").map Text.trim).filter fun item => !item.isEmpty
  items.foldl (fun (ds, warnings) item =>
    match read item with
    | .ok d => (put d ds, warnings)
    | .error w => (ds, warnings ++ [w])) ([], [])

end Directive

/-- A choice among the records. -/
structure Filter where
  directives : List Directive
  /-- What has to occur in the text of a record. -/
  pattern : Option Pattern := none
  deriving DecidableEq

namespace Filter

/-- The filter that lets no record through. -/
def nothing : Filter := ⟨[], none⟩

/-- The filter that lets every record through. -/
def everything : Filter := ⟨[⟨none, some .trace⟩], none⟩

/-- The directive that decides about a part of the program: the last of those with the longest
name. -/
def decisive (f : Filter) (part : String) : Option Directive :=
  (f.directives.filter fun d => d.concerns part).foldl (fun best d =>
    match best with
    | some b => if b.reach ≤ d.reach then some d else some b
    | none => some d) none

/-- Whether a filter lets a record through. -/
def admits (f : Filter) (r : Record) : Bool :=
  (f.decisive r.part).any (fun d => d.keeps r.level) && f.pattern.all fun p => p.occursIn r.text

/-- The filter with these directives, or with the one that keeps errors if there are none. -/
def ofDirectives (ds : List Directive) (pattern : Option Pattern) : Filter :=
  ⟨if ds.isEmpty then [⟨none, some .error⟩] else ds, pattern⟩

/-- Reads a filter; the second component holds the warnings about what was left out. -/
def read (text : String) : Filter × List String :=
  match text.splitOn "/" with
  | [directives] =>
    let (ds, warnings) := Directive.readAll directives
    (ofDirectives ds none, warnings)
  | [directives, pattern] =>
    let (ds, warnings) := Directive.readAll directives
    match Pattern.read pattern with
    | .ok p => (ofDirectives ds (some p), warnings)
    | .error e => (ofDirectives ds none, warnings ++ ["warning: invalid regex filter - " ++ e])
  | _ => (ofDirectives [] none, [Directive.warning text ++ " (too many '/'s)"])

end Filter

end ChipEight
