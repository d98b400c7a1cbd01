import FilterPlan.Text.Basic

/-!
# Text with nested parentheses

Lists nest inside parentheses: `a,f(b,c)` has the two elements `a` and `f(b,c)`. A backslash keeps a
comma from separating and a parenthesis from nesting. Here are the two scans that respect this:
`Text.segments` takes a list apart, and `Text.enclosed?` finds the end of a parenthesis.
-/

namespace FilterPlan.Text

/-- Adds a finished segment to those before it, unless it is empty. All are kept in reverse. -/
def flush (segment : Text) (segments : List Text) : List Text :=
  if segment.isEmpty then segments else segment.reverse :: segments

/-- The scan behind `segments`: how many parentheses are open, the current segment in reverse, and the
finished segments, the last one first. -/
def segmentsFrom (depth : Nat) (segment : Text) (segments : List Text) : Text → List Text
  | [] => (flush segment segments).reverse
  | '\\' :: ',' :: t =>
    segmentsFrom depth (if depth = 0 then ',' :: segment else ',' :: '\\' :: segment) segments t
  | '\\' :: '(' :: t => segmentsFrom depth ('(' :: '\\' :: segment) segments t
  | '\\' :: ')' :: t => segmentsFrom depth (')' :: '\\' :: segment) segments t
  | '(' :: t => segmentsFrom (depth + 1) ('(' :: segment) segments t
  | ')' :: t => segmentsFrom (depth - 1) (')' :: segment) segments t
  | ',' :: t =>
    if depth = 0 then segmentsFrom 0 [] (flush segment segments) t
    else segmentsFrom depth (',' :: segment) segments t
  | c :: t => segmentsFrom depth (c :: segment) segments t

/-- The nonempty segments between the commas that stand outside parentheses. A backslash before such a
comma makes it part of its segment and is dropped; inside parentheses it stays, for the segments of
the inner list. A closing parenthesis without an opening one counts for nothing. -/
def segments (t : Text) : List Text :=
  segmentsFrom 0 [] [] t

/-- The scan behind `enclosed?`: how many parentheses are open, and the text passed, in reverse. -/
def enclosedFrom? (depth : Nat) (passed : Text) : Text → Option (Text × Text)
  | [] => none
  | ['\\'] => none
  | '\\' :: c :: t => enclosedFrom? depth (c :: '\\' :: passed) t
  | '(' :: t => enclosedFrom? (depth + 1) ('(' :: passed) t
  | ')' :: t =>
    match depth with
    | 0 => none
    | 1 => some (passed.reverse, t)
    | depth + 2 => enclosedFrom? (depth + 1) (')' :: passed) t
  | c :: t => enclosedFrom? depth (c :: passed) t

/-- The text up to the parenthesis that closes one opened before it, and the text behind that
parenthesis. A backslash takes its meaning from the character after it, whichever that is. -/
def enclosed? (t : Text) : Option (Text × Text) :=
  enclosedFrom? 1 [] t

/-- The byte position of the parenthesis that closes the first one at or after the byte position
`start`, or `none` if the parentheses from there on do not balance. -/
def closing? (t : Text) (start : Nat) : Option Nat :=
  (enclosedFrom? 0 [] (t.dropBytes start)).map fun (before, _) => start + before.byteSize

end FilterPlan.Text
