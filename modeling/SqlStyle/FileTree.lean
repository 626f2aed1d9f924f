import SqlStyle.Path
import SqlStyle.Text.Lines

/-! # Trees of files

A snapshot of files and directories, each known by the names that lead to it from the top. -/

namespace SqlStyle

inductive FileNode
  | file (text : String)
  /-- A file whose bytes are no text. -/
  | binary (bytes : List UInt8)
  | directory
deriving DecidableEq, Repr

/-- Why a path leads nowhere or has no text. -/
inductive FileFault
  | notFound
  | notDirectory
  | isDirectory
  | notText
  | nulCharacter
  | nameTooLong
deriving DecidableEq, Repr

def FileFault.message : FileFault → String
  | notFound => "No such file or directory (os error 2)"
  | notDirectory => "Not a directory (os error 20)"
  | isDirectory => "Is a directory (os error 21)"
  | notText => "stream did not contain valid UTF-8"
  | nulCharacter => "file name contained an unexpected NUL byte"
  | nameTooLong => "File name too long (os error 36)"

namespace FileNode

/-- The file that holds some bytes. -/
def ofBytes (bytes : List UInt8) : FileNode :=
  match String.fromUTF8? ⟨bytes.toArray⟩ with
  | some text => .file text
  | none => .binary bytes

def isDirectory : FileNode → Bool
  | directory => true
  | _ => false

/-- The lines of a file up to the first that cannot be read. -/
def lines : FileNode → List (Except FileFault (List Char))
  | file text => (Text.lines '\n' '\r' text.toList).map .ok
  | binary bytes =>
      let texts := (Text.lines 10 13 bytes).map fun l => String.fromUTF8? ⟨l.toArray⟩
      (texts.takeWhile Option.isSome).filterMap (·.map fun s => .ok s.toList) ++ [.error .notText]
  | directory => [.error .isDirectory]

end FileNode

/-- Files and directories. The first node of a place counts, and a directory is there also if
something lies below it. -/
structure FileTree where
  nodes : List (List String × FileNode)
  /-- The working directory, an absolute path; paths that are not absolute begin there. -/
  workingDir : String := "/"
deriving DecidableEq, Repr

namespace FileTree

/-- What stands at a place. -/
def node? (t : FileTree) (names : List String) : Option FileNode :=
  match t.nodes.lookup names with
  | some n => some n
  | none =>
      if names.isEmpty || t.nodes.any (fun (p, _) => names.isPrefixOf p) then some .directory
      else none

/-- The longest name and the longest path that can be looked up, in bytes. -/
def maxName : Nat := 255

def maxPath : Nat := 4095

/-- Follow components from a place; every place on the way has to be a directory. -/
def follow (t : FileTree) : List String → List Path.Component → Except FileFault (List String)
  | here, [] => .ok here
  | here, c :: cs =>
      match t.node? here with
      | none => .error .notFound
      | some .directory =>
          match c with
          | .root => follow t [] cs
          | .current => follow t here cs
          | .parent => follow t here.dropLast cs
          | .normal name =>
              if maxName < name.utf8ByteSize then .error .nameTooLong
              else follow t (here ++ [name]) cs
      | some _ => .error .notDirectory

/-- A path whose text goes on behind its last component leads to a directory only. -/
def endsOpen (path : String) : Bool :=
  let body := (Path.Anatomy.ofChars path.toList).body
  Path.trimPiecesEnd body != body

/-- The place of a path, with what stands there. -/
def find (t : FileTree) (path : String) : Except FileFault (List String × FileNode) :=
  if path.toList.contains '\x00' then .error .nulCharacter
  else if path.isEmpty then .error .notFound
  else if maxPath < path.utf8ByteSize then .error .nameTooLong
  else
    match t.follow [] (Path.components (Path.join t.workingDir path)) with
    | .error e => .error e
    | .ok names =>
        match t.node? names with
        | none => .error .notFound
        | some .directory => .ok (names, .directory)
        | some n => if endsOpen path then .error .notDirectory else .ok (names, n)

def isFile (t : FileTree) (path : String) : Bool :=
  match t.find path with
  | .ok (_, n) => !n.isDirectory
  | .error _ => false

/-- The text of the file at a path. -/
def read (t : FileTree) (path : String) : Except FileFault String :=
  match t.find path with
  | .error e => .error e
  | .ok (_, .directory) => .error .isDirectory
  | .ok (_, .binary _) => .error .notText
  | .ok (_, .file text) => .ok text

/-- The files below a place, by the names that lead to them from there. -/
def filesBelow (t : FileTree) (names : List String) : List (List String) :=
  let below := t.nodes.filterMap fun (p, n) =>
    if !n.isDirectory && names.isPrefixOf p then some (p.drop names.length) else none
  below.eraseDups

end FileTree

end SqlStyle
