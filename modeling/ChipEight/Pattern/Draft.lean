import ChipEight.Pattern.Bracket
import ChipEight.Pattern.Count
import ChipEight.Pattern.Group

/-!
# Reading patterns

What stands between an opening parenthesis, or the start of the pattern, and the cursor is a
`Draft`: alternatives that are complete, and the parts of the one at the cursor. `Tree.read` goes
through a pattern and keeps a draft for every group that is open.
-/

namespace ChipEight.Pattern

/-- What stands between an opening parenthesis and the cursor. -/
structure Draft where
  /-- The alternatives that are complete, and where they start. -/
  before : Option (Tree × Place) := none
  /-- Where the alternative at the cursor starts. -/
  start : Place
  /-- The parts of the alternative at the cursor and where they start, the last part first. -/
  parts : List (Tree × Place) := []
  deriving DecidableEq

namespace Draft

/-- Adds a part that starts at a place. -/
def push (d : Draft) (t : Tree) (p : Place) : Draft := { d with parts := (t, p) :: d.parts }

/-- The parts of the alternative at the cursor in their order; several parts are one level of
nesting. -/
def sequence (d : Draft) (stop : Place) : Tree :=
  match d.parts.map Prod.fst with
  | [] => .empty
  | [t] => t
  | last :: before => .nested ⟨d.start, stop⟩ (before.foldl (fun t s => .seq s t) last)

/-- The draft after the sign between alternatives, which goes from `stop` to `next`. -/
def alternative (d : Draft) (stop next : Place) : Draft :=
  let before := match d.before with
    | none => (d.sequence stop, d.start)
    | some (t, p) => (.alt t (d.sequence stop), p)
  { before := some before, start := next }

/-- All that a draft holds; several alternatives are one level of nesting. -/
def whole (d : Draft) (stop : Place) : Tree :=
  match d.before with
  | none => d.sequence stop
  | some (t, p) => .nested ⟨p, stop⟩ (.alt t (d.sequence stop))

/-- The last part, if it can be repeated, and the draft without it. -/
def takeLast (d : Draft) (p : Place) : Except Finding ((Tree × Place) × Draft) :=
  match d.parts with
  | [] | (.flags _, _) :: _ => refuse .nothingToRepeat p p
  | last :: rest => .ok (last, { d with parts := rest })

/-- The draft with its last part repeated; the sign of the repetition is at `p` and ends at
`stop`. -/
def repeated (d : Draft) (k : Counts) (p stop : Place) : Except Finding Draft := do
  let ((t, start), d) ← d.takeLast p
  return d.push (.nested ⟨start, stop⟩ (.times t k.least k.most k.lazy)) start

end Draft

/-- A group that is open. -/
structure OpenGroup where
  /-- What stands before the group. -/
  outer : Draft
  /-- The opening parenthesis. -/
  opened : Span
  capture : Bool
  changes : Changes
  /-- Whether blanks were passed over before the group. -/
  spaced : Bool
  deriving DecidableEq

namespace Tree

/-- The counts of a sign that repeats what stands before it. -/
def countsOf? : Char → Option Counts
  | '?' => some { least := 0, most := some 1 }
  | '*' => some { least := 0, most := none }
  | '+' => some { least := 1, most := none }
  | _ => none

/-- The atom of a character that is no escape. -/
def atomOf (c : Char) (span : Span) : Atom :=
  match c with
  | '.' => .dot span
  | '^' => .anchor span .lineStart
  | '$' => .anchor span .lineEnd
  | c => .letter { char := c, span }

/-- Reads one part that is neither a group nor an alternative, at the character `ch`. -/
def readPart (d : Draft) (c : Cursor) (ch : Char) : Except Finding (Draft × Cursor) :=
  match ch with
  | '[' => do
    let ((span, negated, s), e) ← SetTree.read c
    return (d.push (.nested span (.set span negated s)) c.place, e)
  | '\x7b' => do
    let _ ← d.takeLast c.place
    let (counts, e) ← Counts.read c
    return (← d.repeated counts c.place e.place, e)
  | '\\' => do
    let (a, e) ← Atom.readEscape c
    return (d.push (.atom a) c.place, e)
  | ch =>
    match countsOf? ch with
    | some counts => do
      let (counts, e) := counts.readLazy c.bump
      return (← d.repeated counts c.place e.place, e)
    | none => .ok (d.push (.atom (atomOf ch c.charSpan)) c.place, c.bump)

/-- Reads on to the end. Each round passes over at least one of the fewer than `n` characters that
are left. -/
def readParts : Nat → Draft → List OpenGroup → Names → Cursor → Except Finding Tree
  | 0, d, _, _, c => .ok (d.whole c.place)
  | n + 1, d, groups, names, c =>
    let c := c.pass
    match c.here with
    | none =>
      match groups with
      | [] => .ok (d.whole c.place)
      | g :: _ => .error ⟨.groupUnclosed, g.opened, none⟩
    | some '(' => do
      let ((opening, names), e) ← Opening.read names c
      match opening with
      | .switches changes =>
        readParts n (d.push (.flags changes) c.place) groups names
          { e with spaced := changes.apply .spaced e.spaced }
      | .group capture changes =>
        let g : OpenGroup := { outer := d, opened := c.charSpan, capture, changes, spaced := e.spaced }
        readParts n { start := e.place } (g :: groups) names
          { e with spaced := changes.apply .spaced e.spaced }
    | some ')' =>
      match groups with
      | [] => refuse .groupUnopened c.place c.pastHere
      | g :: gs =>
        let e := { c.bump with spaced := g.spaced }
        let t := nested ⟨g.opened.start, e.place⟩ (.group g.capture g.changes (d.whole c.place))
        readParts n (g.outer.push t g.opened.start) gs names e
    | some '|' => readParts n (d.alternative c.place c.pastHere) groups names c.bump
    | some ch => do
      let (d, e) ← readPart d c ch
      readParts n d groups names e

/-- Reads a pattern. -/
def read (text : String) : Except Finding Tree :=
  let c : Cursor := { rest := text.toList }
  readParts (c.rest.length + 1) { start := c.place } [] [] c

end Tree

end ChipEight.Pattern
