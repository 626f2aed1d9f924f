/-! # Lines -/

namespace SqlStyle.Text

variable {α : Type} [BEq α]

/-- Lines from an item on: whether the item in front ends a line, and the lines themselves. -/
abbrev LinesFrom (α : Type) := Bool × List (List α)

/-- Put an item in front of lines. A carriage return right before a line end is dropped. -/
def LinesFrom.push (feed carriageReturn : α) (c : α) : LinesFrom α → LinesFrom α
  | (ends, ls) =>
      if c == feed then (true, [] :: ls)
      else if ends && c == carriageReturn then (false, ls)
      else match ls with
        | l :: ls => (false, (c :: l) :: ls)
        | [] => (false, [[c]])

/-- The lines of a text, each without its end. What stands behind the last line end is a line of
its own unless it is empty. -/
def lines (feed carriageReturn : α) (cs : List α) : List (List α) :=
  (cs.foldr (LinesFrom.push feed carriageReturn) (false, [])).2

example : lines '\n' '\r' "a\r\r\n\nb\r".toList = [['a', '\r'], [], ['b', '\r']] := rfl

end SqlStyle.Text
