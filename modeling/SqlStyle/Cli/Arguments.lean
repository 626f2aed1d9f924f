/-! # Command line arguments -/

namespace SqlStyle.Cli

inductive Format
  | text
  | json
  | compact
  | pretty
deriving DecidableEq, Repr

def Format.ofName? : String → Option Format
  | "text" => some .text
  | "json" => some .json
  | "compact" => some .compact
  | "pretty" => some .pretty
  | _ => none

/-- What to lint and how to tell. -/
structure CheckRequest where
  path : String := "."
  format : Format := .text
  rules : Option String := none
  excludes : List String := []
  preset : Option String := none
deriving DecidableEq, Repr

inductive Command
  | check (request : CheckRequest)
  | listRules
  | init (force : Bool)
deriving DecidableEq, Repr

inductive Request
  | run (command : Command) (config : Option String)
  | version
  | help
deriving DecidableEq, Repr

/-- Arguments that fit no command. -/
structure UsageError where
deriving DecidableEq, Repr

/-- What is read from the arguments of one command. -/
inductive Opt
  | verbose
  | config
  | version
  | help
  | format
  | rules
  | exclude
  | preset
  | force
  /-- An argument without a name. -/
  | word
deriving DecidableEq, Repr

namespace Opt

def takesValue : Opt → Bool
  | config | format | rules | exclude | preset => true
  | _ => false

def longName? : Opt → Option String
  | verbose => some "verbose"
  | config => some "config"
  | version => some "version"
  | help => some "help"
  | format => some "format"
  | rules => some "rules"
  | exclude => some "exclude"
  | preset => some "preset"
  | force => some "force"
  | word => none

def letter? : Opt → Option Char
  | verbose => some 'v'
  | config => some 'c'
  | version => some 'V'
  | help => some 'h'
  | format => some 'f'
  | exclude => some 'e'
  | _ => none

/-- Whether an option takes this value: paths are not empty, and formats have names. -/
def accepts : Opt → String → Bool
  | config, s | word, s => !s.isEmpty
  | format, s => (Format.ofName? s).isSome
  | _, _ => true

end Opt

/-- Why reading stops: a mistake, or an option that asks for something else. -/
inductive Halt
  | usage
  | version
  | help
deriving DecidableEq, Repr

/-- Options and their values in the order in which they came. -/
abbrev Seen := List (Opt × String)

/-- Take one option. Only exclusions may come more than once. -/
def take (known : List Opt) (s : Seen) (o : Opt) (value : String) : Except Halt Seen :=
  if !known.contains o then .error .usage
  else if o = .version then .error .version
  else if o = .help then .error .help
  else if (o != .exclude && (s.lookup o).isSome) || !o.accepts value then .error .usage
  else .ok (s ++ [(o, value)])

/-- The name and the value of a long option, cut at the first `=`. -/
def splitValue (cs : List Char) : String × Option String :=
  let name := cs.takeWhile (· ≠ '=')
  (.ofList name, (cs.drop name.length).tail?.map .ofList)

/-- Take the letters behind a hyphen. An option that wants a value takes the rest of the letters,
with or without `=`; the answer names an option that is left without one. -/
def takeLetters (known : List Opt) (s : Seen) : List Char → Except Halt (Seen × Option Opt)
  | [] => .ok (s, none)
  | c :: cs =>
      match known.find? (·.letter? == some c) with
      | none => .error .usage
      | some o =>
          if o.takesValue then
            match cs with
            | [] => .ok (s, some o)
            | '=' :: value => (take known s o (.ofList value)).map (·, none)
            | value => (take known s o (.ofList value)).map (·, none)
          else
            match take known s o "" with
            | .error h => .error h
            | .ok s => takeLetters known s cs

/-- Take a long option; the answer names an option that is left without its value. -/
def takeLong (known : List Opt) (s : Seen) (cs : List Char) : Except Halt (Seen × Option Opt) :=
  let (name, value) := splitValue cs
  match known.find? (·.longName? == some name), value with
  | none, _ => .error .usage
  | some o, some v => if o.takesValue then (take known s o v).map (·, none) else .error .usage
  | some o, none => if o.takesValue then .ok (s, some o) else (take known s o "").map (·, none)

/-- Whether an argument is an option rather than a value. -/
def isOption (arg : String) : Bool :=
  match arg.toList with
  | '-' :: _ :: _ => true
  | _ => false

/-- Read arguments from the left; behind `--` all are words. With `wait` set, `wait`'s value comes
next. With `stops`, the first word ends the reading, and the answer holds what is left from it. -/
def read (known : List Opt) (stops : Bool) :
    Seen → (wait : Option Opt) → List String → Except Halt (Seen × List String)
  | s, none, [] => .ok (s, [])
  | _, some _, [] => .error .usage
  | s, some o, arg :: rest =>
      if isOption arg then .error .usage
      else
        match take known s o arg with
        | .error h => .error h
        | .ok s => read known stops s none rest
  | s, none, arg :: rest =>
      match arg.toList with
      | ['-', '-'] => (rest.foldlM (fun s word => take known s .word word) s).map (·, [])
      | '-' :: '-' :: cs =>
          match takeLong known s cs with
          | .error h => .error h
          | .ok (s, wait) => read known stops s wait rest
      | '-' :: c :: cs =>
          match takeLetters known s (c :: cs) with
          | .error h => .error h
          | .ok (s, wait) => read known stops s wait rest
      | _ =>
          if stops then .ok (s, arg :: rest)
          else
            match take known s .word arg with
            | .error h => .error h
            | .ok s => read known stops s none rest

/-- The options that every command has. -/
def commonOptions : List Opt := [.verbose, .config, .help]

/-- The command of a name, as the options it knows and what it makes of them. -/
def command? : String → Option (List Opt × (Seen → Command))
  | "check" => some ([.format, .rules, .exclude, .preset, .word], fun s =>
      .check {
        path := (s.lookup .word).getD "."
        format := ((s.lookup .format).bind Format.ofName?).getD .text
        rules := s.lookup .rules
        excludes := (s.filter (·.1 == .exclude)).map (·.2)
        preset := s.lookup .preset })
  | "list-rules" => some ([], fun _ => .listRules)
  | "init" => some ([.force], fun s => .init (s.lookup .force).isSome)
  | _ => none

/-- What asking for help about commands comes to: one may be named, and it has to be one. -/
def helpAbout : List String → Halt
  | [] => .help
  | [name] => if name = "help" || (command? name).isSome then .help else .usage
  | _ => .usage

/-- Read a command and its arguments. A common option may stand before or behind the command, and
counts behind it if it stands on both sides. -/
def readCommand (args : List String) : Except Halt Request := do
  let (before, rest) ← read (.version :: commonOptions) true [] none args
  match rest with
  | [] => .error .usage
  | name :: rest =>
      match command? name with
      | none => .error (if name = "help" then helpAbout rest else .usage)
      | some (known, make) =>
          let (behind, _) ← read (commonOptions ++ known) false [] none rest
          return .run (make behind) ((behind.lookup .config).or (before.lookup .config))

/-- What a command line asks for. -/
def parse (args : List String) : Except UsageError Request :=
  match readCommand args with
  | .ok r => .ok r
  | .error .version => .ok .version
  | .error .help => .ok .help
  | .error .usage => .error ⟨⟩

end SqlStyle.Cli
