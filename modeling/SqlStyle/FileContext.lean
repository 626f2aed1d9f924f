import SqlStyle.Path
import SqlStyle.Token

/-! # What a rule sees of a file -/

namespace SqlStyle

structure FileContext where
  path : String
  tokens : List Token
deriving DecidableEq, Repr

namespace FileContext

/-- A file below a base directory is known by its path from there. -/
def ofPath (path base : String) (tokens : List Token) : FileContext :=
  ⟨Path.relativeTo path base, tokens⟩

/-- A text that comes from no file. -/
def anonymous (tokens : List Token) : FileContext := ⟨"<input>", tokens⟩

/-- Names of test scripts: `…_test.sql`, `….tests.sql`, `test_…`, in any ASCII case. -/
def isTestName (name : String) : Bool :=
  let cs := (Text.lower name).toList
  "_test.sql".toList.isSuffixOf cs || ".tests.sql".toList.isSuffixOf cs
    || "test_".toList.isPrefixOf cs

/-- A test script lies in a directory `test` or `tests`, or has the name of one. -/
def isTest (ctx : FileContext) : Bool :=
  (Path.components ctx.path).any (fun c => c == .normal "tests" || c == .normal "test")
    || (Path.fileName? ctx.path).any isTestName

def significant (ctx : FileContext) : List Token := Token.significant ctx.tokens

end FileContext

end SqlStyle
