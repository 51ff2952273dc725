import ChipEight.Pattern.Draft
import ChipEight.Pattern.Search
import ChipEight.Pattern.Sense
import ChipEight.Pattern.Size

/-!
# Patterns

A pattern is a regular expression as it is written in a filter. `Pattern.read` reads one, or says
what is wrong with it; `Pattern.occursIn` says whether some stretch of a text matches.
-/

namespace ChipEight

/-- A pattern that was read. -/
structure Pattern where
  expr : Expr
  deriving DecidableEq

namespace Pattern

/-- The greatest size of a pattern. -/
def sizeLimit : Nat := 10485760

/-- Why a pattern that has a meaning cannot be used. -/
inductive Limit where
  /-- A machine for it would be too large. -/
  | size
  /-- It asks for boundaries of words that are not ASCII. -/
  | words

/-- The wording of a limit. -/
def Limit.message : Limit → String
  | size => "Compiled regex exceeds size limit of " ++ toString sizeLimit ++ " bytes."
  | words => "error building NFA"

/-- The limit that an expression does not keep, if there is one. The size of the machine that reads
forward is looked at before the words, and the size of the other one after them. -/
def limitOf (e : Expr) : Option Limit :=
  if sizeLimit < e.size .forward then some .size
  else if e.asksWide then some .words
  else if sizeLimit < e.size .backward then some .size
  else none

/-- What a pattern means as a whole. Parts that are nested too deep are found before anything that
has no meaning. -/
def senseOf (t : Tree) : Except Finding Expr :=
  match t.tooDeep Mistake.deepest with
  | some span => found .tooDeep span
  | none => (t.sense {}).map fun (es, _) => choose es

/-- Reads a pattern. -/
def read (text : String) : Except String Pattern :=
  match Tree.read text >>= senseOf with
  | .error f => .error (f.report text)
  | .ok e =>
    match limitOf e with
    | some l => .error l.message
    | none => .ok ⟨e⟩

/-- Whether a pattern occurs in a text. -/
def occursIn (p : Pattern) (text : String) : Bool := p.expr.occursIn text.toList

end Pattern

end ChipEight
