import ChipEight.Pattern.Expr
import ChipEight.Pattern.Tree

/-!
# What a pattern means

The flags of a pattern set the mode in which the rest of it is taken; `Tree.sense` makes a regular
expression of a pattern. There are no tables of the characters beyond ASCII here, so what would need
them is refused: letters of either case, classes by a letter or a property. In the mode for bytes
ASCII is enough, but then only what matches whole characters is taken.
-/

namespace ChipEight.Pattern

/-- How a pattern is taken. -/
structure Mode where
  caseless : Bool := false
  lines : Bool := false
  dotAll : Bool := false
  /-- Whether a repetition is greedy if a question mark follows it, and only then. -/
  lazy : Bool := false
  /-- Whether characters of any kind are meant, and not bytes. -/
  wide : Bool := true
  crlf : Bool := false
  deriving DecidableEq

namespace Mode

/-- The mode after a change of flags. -/
def change (m : Mode) (cs : Changes) : Mode where
  caseless := cs.apply .caseless m.caseless
  lines := cs.apply .lines m.lines
  dotAll := cs.apply .dotAll m.dotAll
  lazy := cs.apply .lazy m.lazy
  wide := cs.apply .wide m.wide
  crlf := cs.apply .crlf m.crlf

end Mode

/-- The finding of a mistake in a stretch. -/
def found {α : Type} (m : Mistake) (span : Span) : Except Finding α := .error ⟨m, span, none⟩

/-- A byte that is no character by itself. -/
def Letter.isPart (l : Letter) : Bool := l.byte && decide (127 < l.char.toNat)

/-- The character of a letter in a set. -/
def Letter.inSet (m : Mode) (l : Letter) : Except Finding Char :=
  if m.wide then .ok l.char
  else if l.isPart then found .notText l.span
  else if 127 < l.char.toNat then found .wideNotAllowed l.span
  else .ok l.char

/-- The text of a property's name without case, blanks, dashes and the word `is` in front. -/
def plainName (name : String) : String :=
  let chars := name.toList.map Char.toLower
  let chars := if ['i', 's'].isPrefixOf chars then chars.drop 2 else chars
  String.ofList (chars.filter fun c => decide (c.toNat < 128) && !(['_', '-', ' '].contains c))

/-- What is wrong with asking for a property. The names of three general categories are known, but
not what is in them. -/
def propertyMistake (m : Mode) (name : String) : Mistake :=
  if !m.wide then .wideNotAllowed
  else if ["cf", "sc", "lc"].contains (plainName name) then .propertyValueUnknown
  else .propertyUnknown

/-- The set of a shorthand. -/
def shorthandSet (m : Mode) (span : Span) (kind : AsciiClass) (negated : Bool) :
    Except Finding CharSet :=
  if m.wide then found .noWideClass span
  else if negated then found .notText span
  else .ok kind.toSet

/-- A set with both cases of its letters, if case does not matter; `listed` tells whether anything
was listed in it. -/
def foldCase (m : Mode) (span : Span) (listed : Bool) (s : CharSet) : Except Finding CharSet :=
  if !m.caseless then .ok s
  else if !m.wide then .ok s.caseless
  else if listed then found .noWideCase span
  else .ok s

/-- A set as it is meant, with both cases if case does not matter, and then negated. -/
def finished (m : Mode) (span : Span) (negated listed : Bool) (s : CharSet) :
    Except Finding CharSet := do
  let s ← foldCase m span listed s
  if !negated then return s
  else if m.wide then return s.compl
  else found .notText span

/-- The characters of a set. -/
def SetTree.sense (m : Mode) : SetTree → Except Finding CharSet
  | nothing => .ok .nothing
  | letter l => do return .single (← l.inSet m)
  | range first last => do return .range (← first.inSet m) (← last.inSet m)
  | named span kind negated => finished m span negated true kind.toSet
  | shorthand span kind negated => shorthandSet m span kind negated
  | property span name => found (propertyMistake m name) span
  | bracketed span negated s => do finished m span negated (!s.listsNothing) (← s.sense m)
  | union s t => do return .union (← s.sense m) (← t.sense m)
  | combined op s t sSpan tSpan => do
    let x ← s.sense m
    let y ← t.sense m
    let y ← foldCase m tSpan (!t.listsNothing) y
    let x ← foldCase m sSpan (!s.listsNothing) x
    return op.apply x y
  | nested _ s => s.sense m

/-- What an anchor asks for. -/
def Anchor.sense (m : Mode) : Anchor → Look
  | lineStart => if !m.lines then .textStart else if m.crlf then .lineStartCrlf else .lineStart
  | lineEnd => if !m.lines then .textEnd else if m.crlf then .lineEndCrlf else .lineEnd
  | textStart => .textStart
  | textEnd => .textEnd
  | word edge => .word edge m.wide

/-- The characters that a dot stands for. -/
def dotSet (m : Mode) : CharSet :=
  if m.dotAll then CharSet.nothing.compl
  else if m.crlf then ((CharSet.single '\n').union (.single '\r')).compl
  else (CharSet.single '\n').compl

/-- What an atom means. -/
def Atom.sense (m : Mode) : Atom → Except Finding Expr
  | letter l =>
    if !m.wide && l.isPart then found .notText l.span
    else if !m.caseless then .ok (.literal [l.char])
    else if m.wide then found .noWideCase l.span
    else .ok (.ofSet (CharSet.single l.char).caseless true)
  | dot span => if m.wide then .ok (.ofSet (dotSet m) false) else found .notText span
  | anchor _ a => .ok (.look (a.sense m))
  | shorthand span kind negated => do return .ofSet (← shorthandSet m span kind negated) (!m.wide)
  | property span name => found (propertyMistake m name) span

/-- The choice between alternatives, of which there may be a single one. -/
def choose : List Expr → Expr
  | [e] => e
  | es => .alternate es

/-- What the alternatives of a pattern mean in a mode, and the mode after it. -/
def Tree.sense : Tree → Mode → Except Finding (List Expr × Mode)
  | empty, m => .ok ([.empty], m)
  | flags changes, m => .ok ([.empty], m.change changes)
  | atom a, m => do return ([← a.sense m], m)
  | set span negated s, m => do
    let x ← finished m span negated (!s.listsNothing) (← s.sense m)
    return ([.ofSet x (!m.wide)], m)
  | times t least most lazy, m => do
    let (es, m) ← t.sense m
    return ([(choose es).repeated least most (lazy == m.lazy)], m)
  | group capture changes t, m => do
    let (es, _) ← t.sense (m.change changes)
    return ([if capture then .capture (choose es) else choose es], m)
  | seq a b, m => do
    let (xs, m) ← a.sense m
    let (ys, m) ← b.sense m
    return ([(choose xs).append (choose ys)], m)
  | alt a b, m => do
    let (xs, m) ← a.sense m
    let (ys, m) ← b.sense m
    return (xs ++ ys, m)
  | nested _ t, m => do
    let (es, m) ← t.sense m
    return ([choose es], m)

end ChipEight.Pattern
