import ChipEight.Pattern.Escape

/-!
# Sets between brackets

A set lists characters, ranges, classes and further sets; `&&`, `--` and `~~` combine what stands
before them with what stands after. `SetTree.read` reads one. What stands between an opening bracket
and the cursor is a `Layer`.
-/

namespace ChipEight.Pattern

/-- Items that stand side by side. -/
structure Items where
  set : SetTree := .nothing
  count : Nat := 0
  span : Span
  deriving DecidableEq

namespace Items

/-- Adds an item behind the others. -/
def push (is : Items) (item : SetTree) (span : Span) : Items :=
  if is.count = 0 then { set := item, count := 1, span }
  else { set := .union is.set item, count := is.count + 1, span := { is.span with stop := span.stop } }

/-- The items as one set; several of them are one level of nesting. -/
def toSet (is : Items) : SetTree :=
  if is.count ≤ 1 then is.set else .nested is.span is.set

end Items

/-- What stands between an opening bracket and the cursor. -/
structure Layer where
  /-- The opening bracket with the signs that belong to it. -/
  opened : Span
  negated : Bool
  /-- What the items are going to be combined with, and how. -/
  left : Option (SetOp × SetTree × Span) := none
  items : Items
  deriving DecidableEq

namespace Layer

/-- Adds an item. -/
def push (l : Layer) (item : SetTree) (span : Span) : Layer :=
  { l with items := l.items.push item span }

/-- The set that a layer makes, and its stretch. -/
def content (l : Layer) : SetTree × Span :=
  match l.left with
  | none => (l.items.toSet, l.items.span)
  | some (op, s, span) =>
    let whole : Span := ⟨span.start, l.items.span.stop⟩
    (.nested whole (.combined op s l.items.toSet span l.items.span), whole)

/-- The layer after an operator. -/
def operator (l : Layer) (op : SetOp) (p : Place) : Layer :=
  { l with left := some (op, l.content), items := { span := .point p } }

/-- The finding that a layer has no closing bracket. -/
def unclosed (l : Layer) : Finding := ⟨.classUnclosed, l.opened, none⟩

/-- Takes the dashes behind an opening bracket as items; there are at most `n`. -/
def takeDashes : Nat → Items → Cursor → Items × Cursor
  | 0, is, c => (is, c)
  | n + 1, is, c =>
    if c.here = some '-' then
      takeDashes n (is.push (.letter { char := '-', span := c.charSpan }) c.charSpan) c.next
    else (is, c)

/-- Reads an opening bracket with the signs that belong to it: a caret, dashes, and a closing
bracket that stands first and is an item. -/
def readOpening (c : Cursor) : Except Finding (Layer × Cursor) :=
  let start := c.place
  let d := c.next
  let negated := d.here == some '^'
  let e := if negated then d.next else d
  if e.atEnd then refuse .classUnclosed start e.place
  else
    let (items, f) := takeDashes e.rest.length { span := .point e.place } e
    if f.atEnd then refuse .classUnclosed start start
    else if items.count = 0 ∧ f.here = some ']' then
      let g := f.next
      if g.atEnd then refuse .classUnclosed start g.place
      else
        let item : SetTree := .letter { char := ']', span := f.charSpan }
        .ok ({ opened := ⟨start, g.place⟩, negated, items := items.push item f.charSpan }, g)
    else .ok ({ opened := ⟨start, f.place⟩, negated, items }, f)

end Layer

namespace SetTree

/-- Reads a class by its name, as in `[:digit:]`, if one stands at the cursor. -/
def readNamed (c : Cursor) : Option ((SetTree × Span) × Cursor) := do
  let d ← c.after? "[:"
  let negated := d.here == some '^'
  let e := if negated then d.bump else d
  let name := e.rest.takeWhile (· != ':')
  let f ← (e.bumps name.length).after? ":]"
  let kind ← AsciiClass.ofName? (String.ofList name)
  let span : Span := ⟨c.place, f.place⟩
  return ((.named span kind negated, span), f)

/-- The operator that a sign stands for when it is written twice. -/
def operatorOf? : Char → Option SetOp
  | '&' => some .inter
  | '-' => some .diff
  | '~' => some .symmDiff
  | _ => none

/-- The operator at the cursor. -/
def operator? (c : Cursor) : Option SetOp := do
  let sign ← c.here
  if c.ahead = some sign then operatorOf? sign else none

/-- Reads a character or an escape. -/
def readAtom (c : Cursor) : Except Finding (Atom × Cursor) :=
  match c.here with
  | some '\\' => Atom.readEscape c
  | some ch => .ok (.letter { char := ch, span := c.charSpan }, c.bump)
  | none => refuse .classUnclosed c.place c.place

/-- An atom as an item of a set. -/
def ofAtom : Atom → Except Finding SetTree
  | .letter l => .ok (.letter l)
  | .shorthand span kind negated => .ok (.shorthand span kind negated)
  | .property span name => .ok (.property span name)
  | .dot span | .anchor span _ => .error ⟨.classEscape, span, none⟩

/-- An atom as the end of a range. -/
def rangeEnd : Atom → Except Finding Letter
  | .letter l => .ok l
  | a => .error ⟨.rangeEnd, a.span, none⟩

/-- Reads an item that is a range or an atom. A dash makes a range unless a closing bracket or a
further dash follows it. -/
def readItem (l : Layer) (c : Cursor) : Except Finding ((SetTree × Span) × Cursor) := do
  let (a, d) ← readAtom c
  let d := d.pass
  if d.atEnd then .error l.unclosed
  else if d.here ≠ some '-' ∨ d.aheadPast = some ']' ∨ d.aheadPast = some '-' then
    return ((← ofAtom a, a.span), d)
  else
    let e := d.next
    if e.atEnd then .error l.unclosed
    else
      let (b, f) ← readAtom e
      let span : Span := ⟨a.span.start, b.span.stop⟩
      let first ← rangeEnd a
      let last ← rangeEnd b
      if first.char ≤ last.char then return ((.range first last, span), f)
      else .error ⟨.rangeReversed, span, none⟩

/-- A set between brackets as it was read: its stretch, whether it is negated, and its items. -/
abbrev Bracketed := Span × Bool × SetTree

/-- Reads on until the outermost bracket is closed. Each round passes over at least one of the at
most `n` characters that are left. -/
def readLayers : Nat → Layer → List Layer → Cursor → Except Finding (Bracketed × Cursor)
  | 0, l, _, _ => .error l.unclosed
  | n + 1, l, outer, c =>
    let c := c.pass
    match c.here with
    | none => .error l.unclosed
    | some '[' =>
      match readNamed c with
      | some ((item, span), d) => readLayers n (l.push item span) outer d
      | none => do
        let (inner, d) ← Layer.readOpening c
        readLayers n inner (l :: outer) d
    | some ']' =>
      let d := c.bump
      let span : Span := ⟨l.opened.start, d.place⟩
      match outer with
      | [] => .ok ((span, l.negated, l.content.1), d)
      | o :: os =>
        readLayers n (o.push (.nested span (.bracketed span l.negated l.content.1)) span) os d
    | some _ =>
      match operator? c with
      | some op =>
        let d := c.bumps 2
        readLayers n (l.operator op d.place) outer d
      | none => do
        let ((item, span), d) ← readItem l c
        readLayers n (l.push item span) outer d

/-- Reads a set; the cursor stands at its opening bracket. -/
def read (c : Cursor) : Except Finding (Bracketed × Cursor) := do
  let (l, d) ← Layer.readOpening c
  readLayers (d.rest.length + 1) l [] d

end SetTree

end ChipEight.Pattern
