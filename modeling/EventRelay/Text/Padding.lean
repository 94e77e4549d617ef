/-!
# Padded text

A word set into a column: cut to a greatest length first, then filled up to the width of the
column. When the fill is shared between both sides, the odd character goes to the right.
-/

namespace EventRelay.Text

/-- Where a word stands in its column. -/
inductive Alignment where
  | left
  | right
  | centre
  deriving DecidableEq, Repr

/-- A column: its width, the place of the word in it, the character that fills it up and, if the
word may be cut, the greatest number of characters kept. -/
structure Column where
  width : Nat
  alignment : Alignment
  fill : Char
  keep? : Option Nat

def Column.place (column : Column) (word : String) : String :=
  let kept := match column.keep? with
    | none => word.toList
    | some n => word.toList.take n
  let gap := column.width - kept.length
  let before := match column.alignment with
    | .left => 0
    | .right => gap
    | .centre => gap / 2
  String.ofList
    (List.replicate before column.fill ++ kept ++ List.replicate (gap - before) column.fill)

end EventRelay.Text
