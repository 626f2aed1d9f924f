import SqlStyle.Toml.Value

/-! # Reading strings, numbers and dates

A reader takes what it can from the front of a text and gives the rest back. -/

namespace SqlStyle.Toml

/-- Reads a value from the front of a text, or fails. -/
abbrev Reader (α : Type) := List Char → Option (α × List Char)

namespace Reader

/-- The first reader that succeeds. -/
def orElse {α : Type} (p q : Reader α) : Reader α := fun cs =>
  match p cs with
  | some r => some r
  | none => q cs

def map {α β : Type} (f : α → β) (p : Reader α) : Reader β := fun cs =>
  (p cs).map fun (a, rest) => (f a, rest)

end Reader

/-- The text behind `word`, if it comes next. -/
def after? : (word : List Char) → List Char → Option (List Char)
  | [], cs => some cs
  | w :: ws, c :: cs => if w = c then after? ws cs else none
  | _ :: _, [] => none

def isSpace (c : Char) : Bool := c == ' ' || c == '\t'

def skipSpace (cs : List Char) : List Char := cs.dropWhile isSpace

/-- The text behind a line end: a line feed, with or without a carriage return before it. -/
def afterNewline? : List Char → Option (List Char)
  | '\n' :: cs => some cs
  | '\r' :: '\n' :: cs => some cs
  | _ => none

/-- Characters that stand for themselves in comments and in single-line text. -/
def isPlain (c : Char) : Bool := c == '\t' || (0x20 ≤ c.toNat && c.toNat != 0x7F)

/-! ### Strings -/

def hexValue? (c : Char) : Option Nat :=
  if c.isDigit then some (c.toNat - '0'.toNat)
  else if 'a' ≤ c && c ≤ 'f' then some (c.toNat - 'a'.toNat + 10)
  else if 'A' ≤ c && c ≤ 'F' then some (c.toNat - 'A'.toNat + 10)
  else none

/-- The number that hexadecimal digits write. -/
def hexNumber? (ds : List Char) : Option Nat :=
  ds.foldl (fun acc d => acc.bind fun n => (hexValue? d).map (16 * n + ·)) (some 0)

/-- The character of a code point, if it is one. -/
def scalar? (n : Nat) : Option Char :=
  if n < 0xD800 || (0xDFFF < n && n < 0x110000) then some (Char.ofNat n) else none

/-- The character that an escape of one letter stands for. -/
def shortEscape? : Char → Option Char
  | 'b' => some '\x08'
  | 't' => some '\t'
  | 'n' => some '\n'
  | 'f' => some '\x0c'
  | 'r' => some '\r'
  | '\x22' => some '\x22'
  | '\\' => some '\\'
  | _ => none

/-- How many hexadecimal digits follow the letter of an escape. -/
def escapeWidth? : Char → Option Nat
  | 'u' => some 4
  | 'U' => some 8
  | _ => none

/-- The character of a long escape whose digits come next. -/
def longEscape? (width : Nat) (cs : List Char) : Option Char :=
  let ds := cs.take width
  if ds.length = width then (hexNumber? ds).bind scalar? else none

/-- What a backslash does to the text that follows it. -/
inductive Escape
  | char (c : Char) (taken : Nat)
  /-- The line end and all blanks behind it are dropped. -/
  | joinLines
deriving DecidableEq, Repr

/-- Whether only blanks stand before the next line end. -/
def endsLine (cs : List Char) : Bool := (afterNewline? (skipSpace cs)).isSome

/-- The escape behind a backslash; lines join only in text of several lines. -/
def escape? (multi : Bool) : List Char → Option Escape
  | [] => none
  | c :: cs =>
      match shortEscape? c, escapeWidth? c with
      | some d, _ => some (.char d 1)
      | none, some width => (longEscape? width cs).map (.char · (width + 1))
      | none, none => if multi && endsLine (c :: cs) then some .joinLines else none

/-- Where a reader of string text stands. -/
inductive Mode
  | plain
  /-- So many more characters belong to an escape that was read. -/
  | skip (n : Nat)
  /-- Blanks are dropped behind a joined line. -/
  | joining
deriving DecidableEq, Repr

/-- Text in double quotes, the opening ones read. `acc` holds the characters so far, the last one
first. -/
def basicText (acc : List Char) : Mode → Reader String
  | _, [] => none
  | .skip (n + 1), _ :: cs => basicText acc (.skip n) cs
  | _, c :: cs =>
      if c = '\x22' then some (.ofList acc.reverse, cs)
      else if c = '\\' then
        match escape? false cs with
        | some (.char d n) => basicText (d :: acc) (.skip n) cs
        | _ => none
      else if isPlain c then basicText (c :: acc) .plain cs
      else none

/-- Text in three double quotes, the opening ones read. Up to two quotes right before the closing
ones belong to the text. -/
def basicLines (acc : List Char) : Mode → Reader String
  | _, [] => none
  | .skip (n + 1), _ :: cs => basicLines acc (.skip n) cs
  | mode, c :: cs =>
      if mode == .joining && (isSpace c || c == '\n') then basicLines acc .joining cs
      else if mode == .joining && c == '\r' && cs.head? == some '\n' then
        basicLines acc .joining cs
      else if c = '\x22' then
        match cs with
        | '\x22' :: '\x22' :: rest =>
            match rest with
            | '\x22' :: '\x22' :: rest => some (.ofList ('\x22' :: '\x22' :: acc).reverse, rest)
            | '\x22' :: rest => some (.ofList ('\x22' :: acc).reverse, rest)
            | rest => some (.ofList acc.reverse, rest)
        | _ => basicLines (c :: acc) .plain cs
      else if c = '\\' then
        match escape? true cs with
        | some (.char d n) => basicLines (d :: acc) (.skip n) cs
        | some .joinLines => basicLines acc .joining cs
        | none => none
      else if c = '\n' then basicLines (c :: acc) .plain cs
      else if c = '\r' then
        if cs.head? == some '\n' then basicLines acc .plain cs else none
      else if isPlain c then basicLines (c :: acc) .plain cs
      else none

/-- Text in single quotes, the opening one read. -/
def literalText (acc : List Char) : Reader String
  | [] => none
  | c :: cs =>
      if c = '\x27' then some (.ofList acc.reverse, cs)
      else if isPlain c then literalText (c :: acc) cs
      else none

/-- Text in three single quotes, the opening ones read. -/
def literalLines (acc : List Char) : Reader String
  | [] => none
  | c :: cs =>
      if c = '\x27' then
        match cs with
        | '\x27' :: '\x27' :: rest =>
            match rest with
            | '\x27' :: '\x27' :: rest => some (.ofList ('\x27' :: '\x27' :: acc).reverse, rest)
            | '\x27' :: rest => some (.ofList ('\x27' :: acc).reverse, rest)
            | rest => some (.ofList acc.reverse, rest)
        | _ => literalLines (c :: acc) cs
      else if c = '\n' then literalLines (c :: acc) cs
      else if c = '\r' then
        if cs.head? == some '\n' then literalLines acc cs else none
      else if isPlain c then literalLines (c :: acc) cs
      else none

/-- A line end right behind opening quotes does not count. -/
def skipNewline (cs : List Char) : List Char := (afterNewline? cs).getD cs

/-- A string on one line. -/
def singleLine : Reader String
  | '\x22' :: cs => basicText [] .plain cs
  | '\x27' :: cs => literalText [] cs
  | _ => none

/-- A string of any form. -/
def text : Reader String
  | '\x22' :: '\x22' :: '\x22' :: cs => basicLines [] .plain (skipNewline cs)
  | '\x27' :: '\x27' :: '\x27' :: cs => literalLines [] (skipNewline cs)
  | cs => singleLine cs

/-! ### Numbers -/

/-- Digits with single underscores between them. `more` says that a digit came before. -/
def digitRun (p : Char → Bool) (more : Bool) : List Char → List Char × List Char
  | [] => ([], [])
  | c :: cs =>
      if p c then
        let (ds, rest) := digitRun p true cs
        (c :: ds, rest)
      else if more && c == '_' && cs.head?.any p then digitRun p false cs
      else ([], c :: cs)

/-- At least one digit. -/
def digits (p : Char → Bool) : Reader (List Char) := fun cs =>
  match digitRun p false cs with
  | ([], _) => none
  | r => some r

/-- Digits without a zero in front, or `0` alone. -/
def wholeNumber : Reader (List Char)
  | '0' :: cs => some (['0'], cs)
  | cs => digits Char.isDigit cs

/-- The number that decimal digits write. -/
def decimal (ds : List Char) : Nat :=
  ds.foldl (fun n d => 10 * n + (d.toNat - '0'.toNat)) 0

/-- A sign, if there is one; true for minus. -/
def sign : List Char → Bool × List Char
  | '-' :: cs => (true, cs)
  | '+' :: cs => (false, cs)
  | cs => (false, cs)

def signed (negative : Bool) (n : Nat) : Int := if negative then -(n : Int) else n

/-- The digits behind a point. -/
def fraction : Reader (List Char)
  | '.' :: cs => digits Char.isDigit cs
  | _ => none

/-- The power of ten behind `e`. -/
def exponent : Reader Int
  | c :: cs =>
      if c = 'e' || c = 'E' then
        let (negative, cs) := sign cs
        (digits Char.isDigit).map (fun ds => signed negative (decimal ds)) cs
      else none
  | [] => none

/-- A finite number; one that is too large above is refused. -/
def finiteReal (negative : Bool) (whole frac : List Char) (e : Int) (rest : List Char) :
    Option (Real × List Char) :=
  match Real.ofDecimal negative (decimal (whole ++ frac)) (e - frac.length) with
  | .infinite false => none
  | x => some (x, rest)

/-- A number with a fraction, an exponent or both, or one of the special ones. -/
def real : Reader Real := fun cs =>
  let (negative, cs) := sign cs
  match cs with
  | 'i' :: 'n' :: 'f' :: rest => some (.infinite negative, rest)
  | 'n' :: 'a' :: 'n' :: rest => some (.nan, rest)
  | _ =>
      match wholeNumber cs with
      | none => none
      | some (whole, cs) =>
          match fraction cs with
          | some (frac, cs) =>
              match exponent cs with
              | some (e, rest) => finiteReal negative whole frac e rest
              | none => finiteReal negative whole frac 0 cs
          | none =>
              match exponent cs with
              | some (e, rest) => finiteReal negative whole [] e rest
              | none => none

/-- The integers of 64 bits. -/
def fits (n : Int) : Bool := -9223372036854775808 ≤ n && n ≤ 9223372036854775807

/-- Digits of a base other than ten. -/
def based (base : Nat) (cs : List Char) : Option (Int × List Char) :=
  let valid := fun c => (hexValue? c).any (· < base)
  match digits valid cs with
  | none => none
  | some (ds, rest) =>
      let n : Nat := ds.foldl (fun n d => base * n + (hexValue? d).getD 0) 0
      if fits n then some (n, rest) else none

def integer : Reader Int
  | '0' :: 'x' :: cs => based 16 cs
  | '0' :: 'o' :: cs => based 8 cs
  | '0' :: 'b' :: cs => based 2 cs
  | cs =>
      let (negative, cs) := sign cs
      match wholeNumber cs with
      | none => none
      | some (ds, rest) =>
          let n := signed negative (decimal ds)
          if fits n then some (n, rest) else none

/-! ### Dates and times -/

/-- Exactly `n` digits. -/
def fixed (n : Nat) : Reader Nat := fun cs =>
  let ds := cs.take n
  if ds.length = n && ds.all Char.isDigit then some (decimal ds, cs.drop n) else none

/-- A number of two digits behind a given character. -/
def pair (lead : Char) : Reader Nat
  | c :: cs => if c = lead then fixed 2 cs else none
  | [] => none

def date : Reader Date := fun cs =>
  match fixed 4 cs with
  | none => none
  | some (year, cs) =>
      match pair '-' cs with
      | none => none
      | some (month, cs) =>
          match pair '-' cs with
          | none => none
          | some (day, rest) =>
              let d : Date := ⟨year, month, day⟩
              if d.isValid then some (d, rest) else none

/-- Billionths of a second behind a point; digits beyond the ninth are dropped. -/
def nanoseconds : List Char → Option (Nat × List Char)
  | '.' :: cs =>
      let ds := cs.takeWhile Char.isDigit
      if ds.isEmpty then none
      else some (decimal ((ds ++ List.replicate 9 '0').take 9), cs.drop ds.length)
  | cs => some (0, cs)

def time (lastHour : Nat) : Reader Time := fun cs =>
  match fixed 2 cs with
  | none => none
  | some (hour, cs) =>
      match pair ':' cs with
      | none => none
      | some (minute, cs) =>
          match pair ':' cs with
          | none => none
          | some (second, cs) =>
              match nanoseconds cs with
              | none => none
              | some (nanosecond, rest) =>
                  let t : Time := ⟨hour, minute, second, nanosecond⟩
                  if t.isValid lastHour then some (t, rest) else none

/-- An offset in hours and minutes that `valid` accepts. -/
def offset (valid : Nat → Nat → Bool) : Reader Offset
  | c :: cs =>
      if c = 'Z' || c = 'z' then some (.zulu, cs)
      else if c = '+' || c = '-' then
        match fixed 2 cs with
        | none => none
        | some (hours, cs) =>
            match pair ':' cs with
            | none => none
            | some (minutes, rest) =>
                if valid hours minutes then
                  some (.minutes (signed (c == '-') (60 * hours + minutes)), rest)
                else none
      else none
  | [] => none

def dateTime : Reader DateTime := fun cs =>
  match date cs with
  | none => (time 23).map .time cs
  | some (d, cs) =>
      match cs with
      | c :: rest =>
          if c = 'T' || c = 't' || c = ' ' then
            match time 23 rest with
            | some (t, rest) =>
                match offset (fun h m => h ≤ 23 && m ≤ 59) rest with
                | some (o, rest) => some (.both d t (some o), rest)
                | none => some (.both d t none, rest)
            | none => some (.date d, cs)
          else some (.date d, cs)
      | [] => some (.date d, cs)

/-- The date or time that a whole text writes. Here a day may end with the hour 24, and an offset
is any that is not longer than a day. -/
def dateTimeOf? (s : String) : Option DateTime :=
  let cs := s.toList
  if cs[2]? == some ':' then
    match time 24 cs with
    | some (t, []) => some (.time t)
    | _ => none
  else
    match date cs with
    | none => none
    | some (d, []) => some (.date d)
    | some (d, c :: rest) =>
        if c = 'T' || c = 't' || c = ' ' then
          match time 24 rest with
          | none => none
          | some (t, []) => some (.both d t none)
          | some (t, rest) =>
              match offset (fun h m => 60 * h + m ≤ 1440) rest with
              | some (o, []) => some (.both d t (some o))
              | _ => none
        else none

/-! ### Any scalar -/

def boolean : Reader Bool
  | 't' :: 'r' :: 'u' :: 'e' :: cs => some (true, cs)
  | 'f' :: 'a' :: 'l' :: 's' :: 'e' :: cs => some (false, cs)
  | _ => none

/-- A value that holds no other. Of a number's readings the date comes first and the integer
last, so that each takes all of its text. -/
def scalar : Reader Value :=
  Reader.orElse (text.map .string)
    (Reader.orElse (boolean.map .boolean)
      (Reader.orElse (dateTime.map .dateTime)
        (Reader.orElse (real.map .real) (integer.map .integer))))

end SqlStyle.Toml
