import SqlStyle.Rule.Finding

/-! # Reserved words and their casing -/

namespace SqlStyle

/-- The reserved words, in upper case. -/
def keywords : List String :=
  ["ADD", "ALL", "ALTER", "AND", "ANY", "AS", "ASC", "AUTHORIZATION", "BACKUP", "BEGIN",
   "BETWEEN", "BREAK", "BROWSE", "BULK", "BY", "CASCADE", "CASE", "CHECK", "CHECKPOINT",
   "CLOSE", "CLUSTERED", "COALESCE", "COLLATE", "COLUMN", "COMMIT", "COMPUTE", "CONSTRAINT",
   "CONTAINS", "CONTAINSTABLE", "CONTINUE", "CONVERT", "CREATE", "CROSS", "CURRENT",
   "CURRENT_DATE", "CURRENT_TIME", "CURRENT_TIMESTAMP", "CURRENT_USER", "CURSOR", "DATABASE",
   "DBCC", "DEALLOCATE", "DECLARE", "DEFAULT", "DELETE", "DENY", "DESC", "DISK", "DISTINCT",
   "DISTRIBUTED", "DOUBLE", "DROP", "DUMP", "ELSE", "END", "ERRLVL", "ESCAPE", "EXCEPT",
   "EXEC", "EXECUTE", "EXISTS", "EXIT", "EXTERNAL", "FETCH", "FILE", "FILLFACTOR", "FOR",
   "FOREIGN", "FREETEXT", "FREETEXTTABLE", "FROM", "FULL", "FUNCTION", "GOTO", "GRANT",
   "GROUP", "HAVING", "HOLDLOCK", "IDENTITY", "IDENTITYCOL", "IDENTITY_INSERT", "IF", "IN",
   "INDEX", "INNER", "INSERT", "INTERSECT", "INTO", "IS", "JOIN", "KEY", "KILL", "LEFT",
   "LIKE", "LINENO", "LOAD", "MERGE", "NATIONAL", "NOCHECK", "NONCLUSTERED", "NOT", "NULL",
   "NULLIF", "OF", "OFF", "OFFSETS", "ON", "OPEN", "OPENDATASOURCE", "OPENQUERY", "OPENROWSET",
   "OPENXML", "OPTION", "OR", "ORDER", "OUTER", "OVER", "PERCENT", "PIVOT", "PLAN",
   "PRECISION", "PRIMARY", "PRINT", "PROC", "PROCEDURE", "PUBLIC", "RAISERROR", "READ",
   "READTEXT", "RECONFIGURE", "REFERENCES", "REPLICATION", "RESTORE", "RESTRICT", "RETURN",
   "REVERT", "REVOKE", "RIGHT", "ROLLBACK", "ROWCOUNT", "ROWGUIDCOL", "RULE", "SAVE", "SCHEMA",
   "SECURITYAUDIT", "SELECT", "SESSION_USER", "SET", "SETUSER", "SHUTDOWN", "SOME",
   "STATISTICS", "SYSTEM_USER", "TABLE", "TABLESAMPLE", "TEXTSIZE", "THEN", "TO", "TOP",
   "TRAN", "TRANSACTION", "TRIGGER", "TRUNCATE", "TRY_CONVERT", "TSEQUAL", "UNION", "UNIQUE",
   "UNPIVOT", "UPDATE", "UPDATETEXT", "USE", "USER", "VALUES", "VARYING", "VIEW", "WAITFOR",
   "WHEN", "WHERE", "WHILE", "WITH", "WITHIN", "WRITETEXT"]

/-- A reserved word in any ASCII case. -/
def isKeyword (word : String) : Bool := keywords.contains (Text.upper word)

inductive Casing
  | upper
  | lower
deriving DecidableEq, Repr

namespace Casing

/-- A text that names no casing, in lower case. -/
structure Unknown where
  text : String
deriving DecidableEq, Repr

def Unknown.message (e : Unknown) : String :=
  "unknown casing `" ++ e.text ++ "` (expected upper or lower)"

/-- Reads a casing in any ASCII case. -/
def parse (s : String) : Except Unknown Casing :=
  let t := Text.lower s
  if t = "upper" then .ok upper
  else if t = "lower" then .ok lower
  else .error ⟨t⟩

/-- No letter of the other case. Keywords are ASCII, so this is exact for them. -/
def fits : Casing → String → Bool
  | upper, word => !word.toList.any Char.isLower
  | lower, word => !word.toList.any Char.isUpper

def message : Casing → String
  | upper => "Expected TSQL keywords to be capitalized"
  | lower => "Expected TSQL keywords to be lower case"

/-- A reserved word that misses the casing. -/
def misses (c : Casing) (l : Lexeme) : Bool :=
  l.kind == .word && isKeyword l.text && !c.fits l.text

def findings (c : Casing) (ls : List Lexeme) : List Finding :=
  Finding.each c.message
    (fun before l after => c.misses l && !Lexeme.isQualified before after) ls

end Casing

end SqlStyle
