import SqlStyle.Text.Ascii

/-! # Tokens of a script -/

namespace SqlStyle

/-- What the rules look at first. -/
inductive Channel
  | default
  | comment
  | hidden
deriving DecidableEq, Repr

inductive Kind
  | word
  | quotedIdentifier
  | variableName
  | number
  | stringLiteral
  | symbol
  | lineComment
  | blockComment
  | whitespace
deriving DecidableEq, Repr

/-- Comments and white space leave the default channel. -/
def Kind.channel : Kind → Channel
  | .lineComment | .blockComment => .comment
  | .whitespace => .hidden
  | _ => .default

/-- A piece of script without its place. -/
structure Lexeme where
  kind : Kind
  text : String
deriving DecidableEq, Repr

namespace Lexeme

/-- A plain word, in any ASCII case. -/
def isWord (l : Lexeme) (word : String) : Bool :=
  l.kind == .word && Text.eqIgnoreCase l.text word

def isSymbol (l : Lexeme) (symbol : String) : Bool :=
  l.kind == .symbol && l.text == symbol

/-- Plain words and quoted identifiers name objects. -/
def isName (l : Lexeme) : Bool :=
  l.kind == .word || l.kind == .quotedIdentifier

end Lexeme

/-- A lexeme in its place: inclusive character offsets from 0, a line from 1, a column from 0. -/
structure Token extends Lexeme where
  channel : Channel
  startChar : Nat
  stopChar : Nat
  line : Nat
  column : Nat
deriving DecidableEq, Repr

namespace Token

/-- The token of a lexeme that starts at the given place. -/
def place (l : Lexeme) (startChar line column : Nat) : Token where
  toLexeme := l
  channel := l.kind.channel
  startChar := startChar
  stopChar := startChar + (l.text.length - 1)
  line := line
  column := column

def isComment (t : Token) : Bool := t.channel == .comment

def isSignificant (t : Token) : Bool := t.channel == .default

/-- The tokens that rules work on. -/
def significant (ts : List Token) : List Token := ts.filter isSignificant

def comments (ts : List Token) : List Token := ts.filter isComment

/-- The last character offset that a token reaches. -/
def lastChar? (ts : List Token) : Option Nat := (ts.map stopChar).max?

end Token

end SqlStyle
