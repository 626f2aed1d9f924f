import SqlStyle.Toml.Scalar

/-! # Reading documents -/

namespace SqlStyle.Toml

/-! ### Tables -/

/-- Replace the value of a key. -/
def replace (es : Entries) (key : String) (v : Value) : Entries :=
  es.map fun (k, old) => if k == key then (k, v) else (k, old)

/-- Change the table that lies below `es` along a path of keys, making the tables that are not
there. Headers pass through every table; dotted keys only through tables that no header named. The
last table of an array of tables stands for the array. -/
def descend (dotted : Bool) (f : Origin → Entries → Option Entries) :
    List String → Origin → Entries → Option Entries
  | [], origin, es => f origin es
  | k :: ks, _, es =>
      match es.lookup k with
      | none =>
          let origin := if dotted then Origin.dotted else .implied
          (descend dotted f ks origin []).map fun sub => es ++ [(k, .table origin sub)]
      | some (.table origin sub) =>
          if origin == .inline || (dotted && origin == .header) then none
          else (descend dotted f ks origin sub).map fun sub => replace es k (.table origin sub)
      | some (.array true vs) =>
          match vs.getLast? with
          | some (.table origin sub) =>
              (descend dotted f ks origin sub).map fun sub =>
                replace es k (.array true (vs.dropLast ++ [.table origin sub]))
          | _ => none
      | some _ => none

/-- Add a value under a dotted key. The table that takes it was made by dotted keys, unless the
key is a single name; no key is set twice. -/
def assign (path : List String) (key : String) (v : Value) (es : Entries) : Option Entries :=
  descend true (fun origin es =>
    if (path.isEmpty || origin == .dotted) && (es.lookup key).isNone then some (es ++ [(key, v)])
    else none) path .header es

/-- Open the table of a header. A table that a longer header implied gets its own header once, and
its place behind what came before. -/
def openTable (path : List String) (key : String) (es : Entries) : Option Entries :=
  descend false (fun _ es =>
    match es.lookup key with
    | none => some (es ++ [(key, .table .header [])])
    | some (.table .implied sub) =>
        some (es.filter (·.1 != key) ++ [(key, .table .header sub)])
    | some _ => none) path .header es

/-- Open another table of an array. -/
def openArray (path : List String) (key : String) (es : Entries) : Option Entries :=
  descend false (fun _ es =>
    match es.lookup key with
    | none => some (es ++ [(key, .array true [.table .header []])])
    | some (.array true vs) => some (replace es key (.array true (vs ++ [.table .header []])))
    | some _ => none) path .header es

/-! ### Keys -/

def isBareKeyChar (c : Char) : Bool :=
  c.isAlphanum || c == '_' || c == '-'

/-- One name of a key. -/
def simpleKey : Reader String := fun cs =>
  match singleLine cs with
  | some r => some r
  | none =>
      match cs.takeWhile isBareKeyChar with
      | [] => none
      | name => some (.ofList name, cs.dropWhile isBareKeyChar)

/-- How deep keys and values may nest. -/
def nestingLimit : Nat := 79

/-- Names with points between them, blanks allowed around each; at most `fuel` of them. -/
def keyPath : Nat → Reader (List String)
  | 0, _ => none
  | fuel + 1, cs =>
      match simpleKey (skipSpace cs) with
      | none => none
      | some (name, cs) =>
          match skipSpace cs with
          | '.' :: cs => (keyPath fuel cs).map fun (names, rest) => (name :: names, rest)
          | rest => some ([name], rest)

/-- A dotted key: the path to a table and the last name. -/
def key : Reader (List String × String) := fun cs =>
  match keyPath nestingLimit cs with
  | none => none
  | some (names, rest) => names.getLast?.map fun last => ((names.dropLast, last), rest)

/-! ### Values -/

/-- Drop a comment; it holds no control characters. -/
def skipComment? (cs : List Char) : Option (List Char) :=
  match cs with
  | '#' :: body =>
      match body.dropWhile isPlain with
      | [] => some []
      | rest => if (afterNewline? rest).isSome then some rest else none
  | _ => some cs

/-- Drop blanks, comments and line ends. -/
def skipGaps? : Nat → List Char → Option (List Char)
  | 0, cs => some cs
  | fuel + 1, cs =>
      match skipComment? (skipSpace cs) with
      | none => none
      | some cs =>
          match afterNewline? cs with
          | some rest => skipGaps? fuel rest
          | none => some cs

def skipGaps (cs : List Char) : Option (List Char) := skipGaps? (cs.length + 1) cs

/-- The items of an array behind its bracket; a comma may follow the last one. -/
def arrayItems (item : Reader Value) : Nat → Reader (List Value)
  | 0, _ => none
  | fuel + 1, cs =>
      match skipGaps cs with
      | none => none
      | some (']' :: rest) => some ([], rest)
      | some cs =>
          match item cs with
          | none => none
          | some (v, cs) =>
              match skipGaps cs with
              | some (',' :: cs) =>
                  (arrayItems item fuel cs).map fun (vs, rest) => (v :: vs, rest)
              | some (']' :: rest) => some ([v], rest)
              | _ => none

/-- A key, an equals sign and a value. -/
def keyValue (item : Reader Value) : Reader ((List String × String) × Value) := fun cs =>
  match key cs with
  | some (k, '=' :: cs) => (item (skipSpace cs)).map fun (v, rest) => ((k, v), rest)
  | _ => none

/-- The entries of an inline table behind its brace; at least one. -/
def inlineEntries (item : Reader Value) : Nat → Entries → Reader Entries
  | 0, _, _ => none
  | fuel + 1, es, cs =>
      match keyValue item cs with
      | none => none
      | some (((path, name), v), cs) =>
          match assign path name v es, skipSpace cs with
          | some es, ',' :: cs => inlineEntries item fuel es cs
          | some es, '\x7d' :: rest => some (es, rest)
          | _, _ => none

def inlineTable (item : Reader Value) (cs : List Char) : Option (Entries × List Char) :=
  match skipSpace cs with
  | '\x7d' :: rest => some ([], rest)
  | cs => inlineEntries item (cs.length + 1) [] cs

/-- A value with at most `depth` arrays and inline tables around its parts. -/
def value : (depth : Nat) → Reader Value
  | 0, cs => scalar cs
  | depth + 1, cs =>
      match cs with
      | '[' :: cs =>
          (arrayItems (value depth) (cs.length + 1) cs).map fun (vs, rest) =>
            (.array false vs, rest)
      | '\x7b' :: cs =>
          (inlineTable (value depth) cs).map fun (es, rest) => (.table .inline es, rest)
      | cs => scalar cs

/-! ### Documents -/

/-- A document as far as it is read: all tables, and the path of the table under way. -/
structure Draft where
  root : Entries
  here : List String

/-- Set a key in the table under way. -/
def Draft.set (d : Draft) (path : List String) (name : String) (v : Value) : Option Draft :=
  (descend false (fun _ es => assign path name v es) d.here .header d.root).map
    fun root => { d with root }

/-- The text behind a line that has nothing more to say. -/
def endLine? (cs : List Char) : Option (List Char) :=
  match skipComment? (skipSpace cs) with
  | some [] => some []
  | some cs => afterNewline? cs
  | none => none

/-- A header behind its brackets. -/
def header (opening : List String → String → Entries → Option Entries) (close : List Char)
    (d : Draft) (cs : List Char) : Option (Draft × List Char) :=
  match key cs with
  | none => none
  | some ((path, name), cs) =>
      match opening path name d.root, after? close cs with
      | some root, some cs => (endLine? cs).map fun rest => (⟨root, path ++ [name]⟩, rest)
      | _, _ => none

/-- One line that is not empty. -/
def statement (d : Draft) (cs : List Char) : Option (Draft × List Char) :=
  match cs with
  | '[' :: '[' :: cs => header openArray [']', ']'] d cs
  | '[' :: cs => header openTable [']'] d cs
  | cs =>
      match keyValue (value nestingLimit) cs with
      | none => none
      | some (((path, name), v), cs) =>
          match d.set path name v, endLine? cs with
          | some d, some rest => some (d, rest)
          | _, _ => none

/-- All lines; each takes at least one character, so `fuel` above the length is enough. -/
def statements : Nat → Draft → List Char → Option Entries
  | 0, _, _ => none
  | fuel + 1, d, cs =>
      match skipGaps cs with
      | none => none
      | some [] => some d.root
      | some cs =>
          match statement d cs with
          | none => none
          | some (d, rest) => statements fuel d rest

/-- A byte order mark in front does not count. -/
def skipMark : List Char → List Char
  | '\uFEFF' :: cs => cs
  | cs => cs

/-- The top table of a document; none if the text is no document. -/
def parse (s : String) : Option Entries :=
  let cs := skipMark s.toList
  statements (cs.length + 1) ⟨[], []⟩ cs

end SqlStyle.Toml
