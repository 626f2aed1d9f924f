/-! # JSON text, indented by two blanks a level -/

namespace SqlStyle.Json

def indent (level : Nat) : String := .ofList (List.replicate (2 * level) ' ')

/-- A control character as four hexadecimal digits. -/
def codeEscape (n : Nat) : String :=
  let ds := Nat.toDigits 16 n
  "\\u" ++ .ofList (List.replicate (4 - ds.length) '0' ++ ds)

def escape (c : Char) : String :=
  if c = '\x22' then "\\\""
  else if c = '\\' then "\\\\"
  else if c = '\n' then "\\n"
  else if c = '\r' then "\\r"
  else if c = '\t' then "\\t"
  else if c = '\x08' then "\\b"
  else if c = '\x0c' then "\\f"
  else if c.toNat < 0x20 then codeEscape c.toNat
  else c.toString

def string (s : String) : String := "\"" ++ .join (s.toList.map escape) ++ "\""

/-- Parts on lines of their own between brackets; the brackets stand at `level`. -/
def block (opening closing : String) (level : Nat) (parts : List String) : String :=
  if parts.isEmpty then opening ++ closing
  else
    opening ++ "\n" ++ ",\n".intercalate (parts.map (indent (level + 1) ++ ·)) ++ "\n"
      ++ indent level ++ closing

def array (level : Nat) (items : List String) : String := block "[" "]" level items

/-- Fields in the order given. -/
def object (level : Nat) (fields : List (String × String)) : String :=
  block "\x7b" "\x7d" level (fields.map fun (name, value) => string name ++ ": " ++ value)

end SqlStyle.Json
