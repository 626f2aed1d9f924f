import SqlStyle.Text.Blank
import SqlStyle.Text.Numeric
import SqlStyle.Token
import SqlStyle.Token.Location

/-! # Cutting a script into lexemes

Every step looks at one character and the text behind it, and says how much of that text the
lexeme takes. -/

namespace SqlStyle

/-- Why a text has no tokens. -/
inductive LexFault
  | stringLiteral
  | delimiter (close : Char)
  | comment
  | dollarQuote
  | taggedQuote
deriving DecidableEq, Repr

def LexFault.message : LexFault → String
  | stringLiteral => "Unterminated string literal"
  | delimiter close => "Expected close delimiter '" ++ close.toString ++ "' before EOF."
  | comment => "Unexpected EOF while in a multi-line comment"
  | dollarQuote => "Unterminated dollar-quoted string"
  | taggedQuote => "Unterminated dollar-quoted, expected $"

/-- A fault at its place. -/
structure LexError where
  fault : LexFault
  location : Location
deriving DecidableEq, Repr

def LexError.message (e : LexError) : String :=
  "failed to tokenize SQL: " ++ e.fault.message ++ " at Line: " ++ toString e.location.line
    ++ ", Column: " ++ toString e.location.column

/-- A kind of lexeme between two places of the text. -/
structure Span where
  kind : Kind
  start : Location
  stop : Location
deriving DecidableEq, Repr

namespace Lexer

/-- A lexeme's kind and how many characters it takes behind its first one. -/
structure Cut where
  kind : Kind
  tail : Nat
deriving DecidableEq, Repr

/-- A fault, and how many characters from the lexeme's start it lies. -/
structure Stop where
  fault : LexFault
  ahead : Nat
deriving DecidableEq, Repr

/-- Characters of an identifier behind its first one. -/
def isPart (c : Char) : Bool :=
  Text.isAlphabetic c || c.isDigit || c == '@' || c == '$' || c == '#' || c == '_'

def isHexDigit (c : Char) : Bool :=
  c.isDigit || ('a' ≤ c && c ≤ 'f') || ('A' ≤ c && c ≤ 'F')

/-- How many characters at the front satisfy `p`. -/
def span (p : Char → Bool) (cs : List Char) : Nat := (cs.takeWhile p).length

/-- The length of a quoted body with its closer, a doubled closer standing for itself. -/
def quoted? (close : Char) : List Char → Option Nat
  | [] => none
  | c :: cs =>
      if c = close then
        match cs with
        | d :: ds => if d = close then (quoted? close ds).map (· + 2) else some 1
        | [] => some 1
      else (quoted? close cs).map (· + 1)

/-- The length of a quoted body with its closing quote, where a backslash takes the next
character along. -/
def escaped? (close : Char) : List Char → Option Nat
  | [] => none
  | c :: cs =>
      if c = close then
        match cs with
        | d :: ds => if d = close then (escaped? close ds).map (· + 2) else some 1
        | [] => some 1
      else if c = '\\' then
        match cs with
        | _ :: ds => (escaped? close ds).map (· + 2)
        | [] => none
      else (escaped? close cs).map (· + 1)

/-- The length of a block comment's body with its closing `*/`. -/
def comment? : List Char → Option Nat
  | [] => none
  | c :: cs =>
      match c, cs with
      | '*', '/' :: _ => some 2
      | _, _ => (comment? cs).map (· + 1)

/-- The length of a line comment's body; a line feed belongs to it. -/
def line : List Char → Nat
  | [] => 0
  | c :: cs => if c = '\n' then 1 else line cs + 1

/-- The length of the text up to and with `close`, if it occurs. -/
def upTo? (close : List Char) : List Char → Option Nat
  | [] => none
  | c :: cs =>
      if close.isPrefixOf (c :: cs) then some close.length else (upTo? close cs).map (· + 1)

/-- Exponent digits with their sign, or nothing. -/
def exponent : List Char → Nat
  | e :: cs =>
      if e = 'e' || e = 'E' then
        match cs with
        | s :: ds =>
            if s = '+' || s = '-' then
              let n := span Char.isDigit ds
              if n = 0 then 0 else n + 2
            else
              let n := span Char.isDigit cs
              if n = 0 then 0 else n + 1
        | [] => 0
      else 0
  | [] => 0

/-- A number's exponent and its trailing `L`. -/
def suffix (cs : List Char) : Nat :=
  let n := exponent cs
  match cs.drop n with
  | 'L' :: _ => n + 1
  | _ => n

/-- The symbols of more than one character, longest first. -/
def symbols : List String :=
  ["->>", "->", "||/", "||", "|/", "=>", "==", "!~~*", "!~~", "!~*", "!~", "!=", "!!",
   "<=>", "<=", "<>", "<<", "<@", ">=", ">>", "::", ":=", "&&", "^@", "~~*", "~~", "~*"]

/-- The longest symbol at the front. -/
def symbol (cs : List Char) : Cut :=
  match symbols.find? (·.toList.isPrefixOf cs) with
  | some s => ⟨.symbol, s.length - 1⟩
  | none => ⟨.symbol, 0⟩

def isStringQuote (c : Char) : Bool := c == '\x27'

def word (kind : Kind) (rest : List Char) : Cut := ⟨kind, span isPart rest⟩

/-- A string literal behind its opening quote, which lies `ahead` characters from the start. -/
def stringLiteral (body : Option Nat) (ahead : Nat) : Except Stop Cut :=
  match body with
  | some n => .ok ⟨.stringLiteral, ahead + n⟩
  | none => .error ⟨.stringLiteral, ahead⟩

/-- A word, or a string literal marked by the letter before its quote. -/
def marked (body? : Char → List Char → Option Nat) : List Char → Except Stop Cut
  | c :: rest =>
      if isStringQuote c then stringLiteral (body? c rest) 1 else .ok (word .word (c :: rest))
  | [] => .ok (word .word [])

def delimited (close : Char) (rest : List Char) : Except Stop Cut :=
  match quoted? close rest with
  | some n => .ok ⟨.quotedIdentifier, n⟩
  | none => .error ⟨.delimiter close, 0⟩

/-- A number behind its integer digits, `taken` characters behind the first one. -/
def fraction (taken : Nat) (rest : List Char) : Cut :=
  match rest with
  | '.' :: ds =>
      let n := span Char.isDigit ds
      ⟨.number, taken + 1 + n + suffix (ds.drop n)⟩
  | _ => ⟨.number, taken + suffix rest⟩

/-- A number that starts with a digit; `0x` starts a binary string. -/
def number (c : Char) (rest : List Char) : Cut :=
  let n := span Char.isDigit rest
  match c, n, rest with
  | '0', 0, 'x' :: hs => ⟨.stringLiteral, 1 + span isHexDigit hs⟩
  | _, _, _ => fraction n (rest.drop n)

/-- A number that starts with its point, or the point alone. -/
def point (rest : List Char) : Cut :=
  let n := span Char.isDigit rest
  if n = 0 then ⟨.symbol, 0⟩ else ⟨.number, n + suffix (rest.drop n)⟩

/-- The lexeme that starts with `-`. -/
def minus (rest : List Char) : Cut :=
  match rest with
  | '-' :: cs => ⟨.lineComment, 1 + line cs⟩
  | _ => symbol ('-' :: rest)

/-- The lexeme that starts with `/`; a comment that is not closed fails at the end of the text. -/
def slash (rest : List Char) : Except Stop Cut :=
  match rest with
  | '*' :: cs =>
      match comment? cs with
      | some n => .ok ⟨.blockComment, 1 + n⟩
      | none => .error ⟨.comment, cs.length + 2⟩
  | _ => .ok (symbol ('/' :: rest))

/-- The lexeme that starts with `#`: a few operators, else a word that takes the next character
whatever it is. -/
def hash (rest : List Char) : Cut :=
  match rest with
  | '-' :: _ => ⟨.symbol, 1⟩
  | '>' :: '>' :: _ => ⟨.symbol, 2⟩
  | '>' :: _ => ⟨.symbol, 1⟩
  | ' ' :: _ | [] => ⟨.symbol, 0⟩
  | _ :: cs => ⟨.word, 1 + span isPart cs⟩

/-- Characters that cannot follow the `@` of a variable. -/
def endsAt (c : Char) : Bool :=
  c == ' ' || isStringQuote c || c == '\x22' || c == '\x60'

/-- The lexeme that starts with `@`: a few operators, else a variable that takes the next
character whatever it is. -/
def atSign (rest : List Char) : Cut :=
  match rest with
  | '>' :: _ | '?' :: _ => ⟨.symbol, 1⟩
  | '@' :: ' ' :: _ | '@' :: [] => ⟨.symbol, 1⟩
  | '@' :: _ :: cs => ⟨.variableName, 2 + span isPart cs⟩
  | c :: cs => if endsAt c then ⟨.symbol, 0⟩ else ⟨.variableName, 1 + span isPart cs⟩
  | [] => ⟨.symbol, 0⟩

/-- The lexeme that starts with `$`: a quoted body between `$$` or between equal tags, else a
placeholder. Quotes that are not closed fail at the end of the text. -/
def dollar (rest : List Char) : Except Stop Cut :=
  match rest with
  | '$' :: body =>
      match upTo? ['$', '$'] body with
      | some n => .ok ⟨.symbol, 1 + n⟩
      | none => .error ⟨.dollarQuote, body.length + 2⟩
  | _ =>
      let tag := rest.takeWhile fun c => Text.isAlphanumeric c || c == '_'
      match rest.drop tag.length with
      | '$' :: body =>
          match upTo? ('$' :: tag ++ ['$']) body with
          | some n => .ok ⟨.symbol, tag.length + 1 + n⟩
          | none => .error ⟨.taggedQuote, rest.length + 1⟩
      | _ => .ok ⟨.symbol, tag.length⟩

/-- The lexeme that starts with `c`, `rest` being the text behind it. -/
def cut (c : Char) (rest : List Char) : Except Stop Cut :=
  if c = ' ' || c = '\t' || c = '\n' then .ok ⟨.whitespace, 0⟩
  else if c = '\r' then .ok ⟨.whitespace, if rest.head? = some '\n' then 1 else 0⟩
  else if c = 'N' || c = 'n' then marked quoted? rest
  else if c = 'X' || c = 'x' then marked escaped? rest
  else if isStringQuote c then stringLiteral (quoted? c rest) 0
  else if c = '\x22' then delimited '\x22' rest
  else if c = '[' then delimited ']' rest
  else if c.isDigit then .ok (number c rest)
  else if c = '.' then .ok (point rest)
  else if c = '-' then .ok (minus rest)
  else if c = '/' then slash rest
  else if c = '#' then .ok (hash rest)
  else if c = '@' then .ok (atSign rest)
  else if c = '?' then .ok ⟨.symbol, span Text.isNumeric rest⟩
  else if Text.isAlphabetic c || c = '_' then .ok (word .word rest)
  else if c = '$' then dollar rest
  else if Text.isBlank c then .ok ⟨.whitespace, 0⟩
  else .ok (symbol (c :: rest))

/-- The spans of the lexemes of a text that stands at `here`. -/
def spansFrom (here : Location) : List Char → Except LexError (List Span)
  | [] => .ok []
  | c :: rest =>
      match cut c rest with
      | .error stop => .error ⟨stop.fault, here.advanceAll ((c :: rest).take stop.ahead)⟩
      | .ok k =>
          let there := (here.advance c).advanceAll (rest.take k.tail)
          match spansFrom there (rest.drop k.tail) with
          | .error e => .error e
          | .ok spans => .ok (⟨k.kind, here, there⟩ :: spans)
termination_by cs => cs.length
decreasing_by simp only [List.length_cons, List.length_drop]; omega

/-- The spans of the lexemes of a whole text. -/
def spans (cs : List Char) : Except LexError (List Span) := spansFrom .start cs

end Lexer

end SqlStyle
