import ChipEight.Pattern.Cursor
import ChipEight.Text.Letter

/-!
# Opening parentheses

Behind an opening parenthesis may stand a name for the group, or flags that hold in the group. Flags
without a group hold from there on. `Opening.read` reads a parenthesis with what belongs to it.
-/

namespace ChipEight.Pattern

/-- What an opening parenthesis begins. -/
inductive Opening where
  /-- A part in parentheses; `capture` tells whether it makes a group. -/
  | group (capture : Bool) (changes : Changes)
  /-- Flags without a group; the closing parenthesis has been read. -/
  | switches (changes : Changes)
  deriving DecidableEq

/-- The names of groups, with where they were given. -/
abbrev Names := List (String × Span)

namespace Opening

/-- Whether a name may begin with a character. -/
def startsName (c : Char) : Bool := c == '_' || Text.isAlphabetic c

/-- Whether a name may go on with a character. -/
def continuesName (c : Char) : Bool :=
  startsName c || Text.isNumeral c || ['.', '[', ']'].contains c

/-- The name at the start of a text. -/
def nameIn : List Char → List Char
  | [] => []
  | c :: cs => if startsName c then c :: cs.takeWhile continuesName else []

/-- Reads the name of a group, up to the sign that closes it. -/
def readName (names : Names) (c : Cursor) : Except Finding ((String × Span) × Cursor) :=
  let chars := nameIn c.rest
  let name := String.ofList chars
  let d := c.bumps chars.length
  let span : Span := ⟨c.place, d.place⟩
  match d.here with
  | none => refuse .groupNameUnclosed d.place d.place
  | some '>' =>
    if chars.isEmpty then refuse .groupNameEmpty c.place c.place
    else
      match names.lookup name with
      | some earlier => .error ⟨.groupNameTaken, span, some earlier⟩
      | none => .ok ((name, span), d.bump)
  | some _ => refuse .groupNameInvalid d.place d.pastHere

/-- The changes that flags ask for; the sign without a flag takes back the flags after it. -/
def changesOf (on : Bool) : List (Option Flag) → Changes
  | [] => []
  | none :: rest => changesOf false rest
  | some f :: rest => (f, on) :: changesOf on rest

/-- Reads flags, up to the sign that ends them; `seen` holds the ones already read, the latest
first. There are at most `n` more. -/
def readFlags : Nat → List (Option Flag × Span) → Cursor → Except Finding (Changes × Cursor)
  | 0, _, c => refuse .flagsUnclosed c.place c.place
  | n + 1, seen, c =>
    match c.here with
    | none => refuse .flagsUnclosed c.place c.place
    | some ch =>
      if ch = ':' ∨ ch = ')' then
        match seen with
        | (none, span) :: _ => .error ⟨.negationOfNothing, span, none⟩
        | _ => .ok (changesOf true (seen.reverse.map Prod.fst), c)
      else
        match if ch = '-' then some none else (Flag.ofLetter? ch).map some with
        | none => refuse .flagUnknown c.place c.pastHere
        | some item =>
          match seen.lookup item with
          | some earlier =>
            .error ⟨if item.isNone then .negationTwice else .flagTwice, c.charSpan, some earlier⟩
          | none => readFlags n ((item, c.charSpan) :: seen) c.bump

/-- The cursor after the signs that ask for what is around a place. -/
def lookAround? (c : Cursor) : Option Cursor := ["?=", "?!", "?<=", "?<!"].findSome? c.after?

/-- Reads an opening parenthesis with what belongs to it, and gives the names known then. -/
def read (names : Names) (c : Cursor) : Except Finding ((Opening × Names) × Cursor) := do
  let inner := c.next
  match lookAround? inner with
  | some d => refuse .lookAround c.place d.place
  | none =>
    match inner.after? "?P<" <|> inner.after? "?<" with
    | some d =>
      let (name, e) ← readName names d
      return ((.group true [], name :: names), e)
    | none =>
      match inner.after? "?" with
      | none => return ((.group true [], names), inner)
      | some d =>
        if d.atEnd then .error ⟨.groupUnclosed, c.charSpan, none⟩
        else
          let (changes, e) ← readFlags (d.rest.length + 1) [] d
          if e.here = some ':' then return ((.group false changes, names), e.bump)
          else if changes.isEmpty then refuse .nothingToRepeat inner.place inner.place
          else return ((.switches changes, names), e.bump)

end Opening

end ChipEight.Pattern
