import SqlStyle.Token.Lexer

/-! # The tokens of a source text -/

namespace SqlStyle

namespace Token

/-- The token that a span marks in a text. A span that ends where it starts, or before, marks
none. -/
def ofSpan? (chars : Array Char) (ix : LineIndex) (s : Span) : Option Token :=
  let start := ix.offset s.start
  let stop := ix.offset s.stop
  if stop ≤ start then none
  else some {
    kind := s.kind
    text := .ofList (chars.extract start stop).toList
    channel := s.kind.channel
    startChar := start
    stopChar := stop - 1
    line := s.start.line
    column := s.start.column - 1 }

/-- The tokens that spans mark in a text. -/
def ofSpans (cs : List Char) (spans : List Span) : List Token :=
  let ix := LineIndex.ofChars cs
  let chars := cs.toArray
  spans.filterMap (ofSpan? chars ix)

/-- The tokens of a script, white space and comments included. -/
def ofSource (sql : String) : Except LexError (List Token) :=
  (Lexer.spans sql.toList).map (ofSpans sql.toList)

end Token

end SqlStyle
