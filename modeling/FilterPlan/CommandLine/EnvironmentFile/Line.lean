import FilterPlan.Text.Blank

/-!
# The lines of an environment file

A line break in quotes does not end a line. A comment takes the rest of a line: it begins with `#`, either as
the first character that is not blank, or outside quotes behind a gap. In a run of blanks every other one is a
gap, the first among them; where no gap stands in front, the comment is left to the value. A file must not end
in quotes, behind a backslash or behind a gap.
-/

namespace FilterPlan.CommandLine.EnvironmentFile

/-- A mark around quoted characters. -/
inductive Quote where
  /-- The mark `'`. -/
  | single
  /-- The mark `"`. -/
  | double
deriving DecidableEq, Repr

/-- The quote that a character opens or closes. -/
def Quote.ofChar? (c : Char) : Option Quote :=
  if c = '\'' then some .single else if c = '"' then some .double else none

/-- What stands in front of the next character of a line. -/
inductive LineState where
  /-- Nothing that the next character depends on. -/
  | plain
  /-- A blank that a comment may follow. -/
  | gap
  /-- A backslash outside quotes. -/
  | escape
  /-- An open quote. -/
  | quoted (quote : Quote)
  /-- A backslash in quotes. -/
  | quotedEscape (quote : Quote)
deriving DecidableEq, Repr

namespace LineState

/-- The state behind a character outside quotes that is no gap. -/
def behind (c : Char) : LineState :=
  if c = '\\' then .escape
  else
    match Quote.ofChar? c with
    | some quote => .quoted quote
    | none => .plain

/-- The state behind a character. A blank behind a gap is no gap, and no part of a line break is. -/
def step : LineState → Char → LineState
  | .plain, c => if Text.isBlank c && c != '\n' && c != '\r' then .gap else behind c
  | .gap, c => behind c
  | .escape, _ => .plain
  | .quoted quote, c =>
    if c = '\\' then .quotedEscape quote
    else if Quote.ofChar? c = some quote then .plain
    else .quoted quote
  | .quotedEscape quote, _ => .quoted quote

/-- The part of the text in front of a comment, and the state behind the text unless a comment ends it. -/
def upToComment (state : LineState) : Text → Text × Option LineState
  | [] => ([], some state)
  | c :: t =>
    if state = .gap && c = '#' then ([], none)
    else
      let (kept, last?) := (state.step c).upToComment t
      (c :: kept, last?)

end LineState

/-- The lines of a file of which one has begun, given the pieces between the line breaks to come. Where the
file ends too early there is `none` for the last line. -/
def linesFrom (begun : Text) (state : LineState) : List Text → List (Option Text)
  | [] => []
  | piece :: rest =>
    let line := begun ++ piece
    if (line.dropWhile Text.isBlank).head? = some '#' then some [] :: linesFrom [] .plain rest
    else
      match state.upToComment piece with
      | (kept, none) => some (begun ++ kept) :: linesFrom [] .plain rest
      | (_, some last) =>
        if rest.isEmpty then [if last = .plain then some line else none]
        else if last.step '\n' = .plain then some line :: linesFrom [] .plain rest
        else linesFrom (line ++ ['\n']) (last.step '\n') rest

/-- The lines of a file without their comments. -/
def lines (t : Text) : List (Option Text) :=
  linesFrom [] .plain (t.fields (· == '\n'))

end FilterPlan.CommandLine.EnvironmentFile
