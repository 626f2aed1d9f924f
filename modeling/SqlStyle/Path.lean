import SqlStyle.Text.Ascii

/-! # Paths

A path is a text cut at `/`. Empty pieces do not count, and neither does a piece `.` unless the
path begins with it. -/

namespace SqlStyle.Path

inductive Component
  | root
  | current
  | parent
  | normal (name : String)
deriving DecidableEq, Repr

/-- The texts between separators; at least one. -/
def pieces : List Char → List (List Char)
  | [] => [[]]
  | c :: cs =>
      if c = '/' then [] :: pieces cs
      else match pieces cs with
        | p :: ps => (c :: p) :: ps
        | [] => [[c]]

def joinPieces (ps : List (List Char)) : List Char := ['/'].intercalate ps

/-- The component that a piece stands for behind the path's beginning. -/
def component? : List Char → Option Component
  | [] | ['.'] => none
  | ['.', '.'] => some .parent
  | p => some (.normal (.ofList p))

/-- A path's beginning, if it is `/` or `.`, and the pieces behind it. -/
structure Anatomy where
  lead : Option Component
  body : List (List Char)
deriving DecidableEq, Repr

namespace Anatomy

def ofChars : List Char → Anatomy
  | '/' :: rest => ⟨some .root, pieces rest⟩
  | ['.'] => ⟨some .current, pieces []⟩
  | '.' :: '/' :: rest => ⟨some .current, pieces ('/' :: rest)⟩
  | cs => ⟨none, pieces cs⟩

def leadText (a : Anatomy) : List Char :=
  match a.lead with
  | some .root => ['/']
  | some .current => ['.']
  | _ => []

def components (a : Anatomy) : List Component := a.lead.toList ++ a.body.filterMap component?

end Anatomy

/-- Drop the pieces at the front that are no component. -/
def trimPieces (ps : List (List Char)) : List (List Char) :=
  ps.dropWhile (component? · |>.isNone)

/-- Drop the pieces at the end that are no component. -/
def trimPiecesEnd (ps : List (List Char)) : List (List Char) := (trimPieces ps.reverse).reverse

def components (path : String) : List Component := (Anatomy.ofChars path.toList).components

/-- The pieces behind the given components. -/
def behind? : List Component → List (List Char) → Option (List (List Char))
  | [], ps => some ps
  | _ :: _, [] => none
  | c :: cs, p :: ps =>
      match component? p with
      | none => behind? (c :: cs) ps
      | some d => if d = c then behind? cs ps else none

/-- The rest of `path` below `base`, if `base`'s components begin it. Pieces at the ends of the
rest that do not count are dropped. -/
def stripBase? (path base : String) : Option String :=
  let a := Anatomy.ofChars path.toList
  match components base, a.lead with
  | [], _ => some (.ofList (a.leadText ++ joinPieces (trimPiecesEnd a.body)))
  | c :: cs, some lead =>
      if lead = c then
        (behind? cs a.body).map fun ps => .ofList (joinPieces (trimPiecesEnd (trimPieces ps)))
      else none
  | c :: cs, none =>
      (behind? (c :: cs) a.body).map fun ps => .ofList (joinPieces (trimPiecesEnd (trimPieces ps)))

/-- `path` as seen from `base`: the rest below it, else `path` itself. -/
def relativeTo (path base : String) : String := (stripBase? path base).getD path

/-- The path without its last component; none for a path that is empty or only `/`. -/
def parent? (path : String) : Option String :=
  let a := Anatomy.ofChars path.toList
  match trimPiecesEnd a.body, a.lead with
  | [], some .current => some ""
  | [], _ => none
  | ps, _ => some (.ofList (a.leadText ++ joinPieces (trimPiecesEnd ps.dropLast)))

def isAbsolute (path : String) : Bool := path.toList.head? == some '/'

/-- `path` below `base`; an absolute `path` stands for itself. -/
def join (base path : String) : String :=
  if isAbsolute path || base.isEmpty then path
  else if base.toList.getLast? == some '/' then base ++ path
  else base ++ "/" ++ path

/-- The last component, if it is a name. -/
def fileName? (path : String) : Option String :=
  match (components path).getLast? with
  | some (.normal name) => some name
  | _ => none

/-- What stands behind the last point of a file name that does not begin with it. -/
def extension? (path : String) : Option String :=
  (fileName? path).bind fun name =>
    let tail := name.toList.reverse.takeWhile (· ≠ '.')
    if tail.length + 1 < name.length then some (.ofList tail.reverse) else none

namespace Component

def rank : Component → Nat
  | root => 0
  | current => 1
  | parent => 2
  | normal _ => 3

/-- The order of components: by rank, names by code points. -/
def lt : Component → Component → Bool
  | normal a, normal b => a < b
  | a, b => a.rank < b.rank

end Component

/-- The order of paths, component by component. -/
def componentsLe : List Component → List Component → Bool
  | [], _ => true
  | _ :: _, [] => false
  | a :: as, b :: bs => a.lt b || (a == b && componentsLe as bs)

def le (a b : String) : Bool := componentsLe (components a) (components b)

end SqlStyle.Path
