import EarlyConfig.Dialect.Family
import EarlyConfig.Text.Split

/-! The arguments of the command line. -/
namespace EarlyConfig.Command

inductive Format where
  | json
  | yaml
deriving DecidableEq, Repr

def Format.ofName? : String → Option Format
  | "json" => some .json
  | "yaml" => some .yaml
  | _ => none

def familyOfName? : String → Option Family
  | "module" => some .module
  | "stack" => some .stack
  | "search" => some .search
  | "policy-test" => some .policyTest
  | "test" => some .test
  | _ => none

/-- What to decode and how to show it. -/
structure Decode where
  family : Family
  /-- The directories to change to before anything else, one after another. -/
  enter : List String := []
  files : List String := []
  directories : List String := []
  format : Option Format := none
  strict : Bool := false
deriving DecidableEq, Repr

inductive Request where
  | decode (d : Decode)
  | version
  | help
deriving DecidableEq, Repr

/-! ### Switches -/

inductive Switch where
  | enter
  | file
  | directory
  | format
  | strict
  | version
  | help
deriving DecidableEq, Repr

namespace Switch

def takesValue : Switch → Bool
  | .enter | .file | .directory | .format => true
  | .strict | .version | .help => false

def ofLong? : String → Option Switch
  | "directory" => some .enter
  | "input-file" => some .file
  | "input-dir" => some .directory
  | "output-format" => some .format
  | "strict" => some .strict
  | "version" => some .version
  | "help" => some .help
  | _ => none

def ofShort? : Char → Option Switch
  | 'C' => some .enter
  | 'f' => some .file
  | 'd' => some .directory
  | 'F' => some .format
  | 'V' => some .version
  | 'h' => some .help
  | _ => none

end Switch

/-- One argument by itself. -/
inductive Word where
  | plain (text : String)
  | switch (s : Switch) (value : Option String)
  /-- After two dashes there are no more switches. -/
  | stop
  | unknown
deriving DecidableEq, Repr

namespace Word

/-- A value after the name of a switch, with an equals sign. -/
def ofLong (cs : List Char) : Word :=
  let (name, value) := Text.cut '=' cs
  match Switch.ofLong? (String.ofList name) with
  | none => .unknown
  | some s => if s.takesValue || value.isNone then .switch s (value.map String.ofList) else .unknown

/-- A value directly after the letter of a switch; an equals sign may come before it. -/
def ofShort (c : Char) (rest : List Char) : Word :=
  match Switch.ofShort? c with
  | none => .unknown
  | some s =>
    if s.takesValue && !rest.isEmpty then
      .switch s (some (String.ofList ((Text.after? ['='] rest).getD rest)))
    else .switch s none

def ofArgument (arg : String) : Word :=
  match arg.toList with
  | ['-', '-'] => .stop
  | '-' :: '-' :: rest => ofLong rest
  | '-' :: c :: rest => ofShort c rest
  | _ => .plain arg

def isPlain : Word → Bool
  | .plain _ => true
  | _ => false

end Word

/-! ### Reading -/

/-- What the arguments ask for, one after another. -/
inductive Event where
  | word (text : String)
  | flag (s : Switch)
  | value (s : Switch) (text : String)
  | unknown
deriving DecidableEq, Repr

/-- A switch takes its value from its own argument or from the next one, unless that is a switch. -/
def events : List String → List Event
  | [] => []
  | arg :: rest =>
    match Word.ofArgument arg with
    | .plain text => .word text :: events rest
    | .unknown => [.unknown]
    | .stop => if rest.isEmpty then [] else [.unknown]
    | .switch s (some text) => .value s text :: events rest
    | .switch s none =>
      if s.takesValue then
        match rest with
        | next :: rest =>
          if (Word.ofArgument next).isPlain then .value s next :: events rest else [.unknown]
        | [] => [.unknown]
      else .flag s :: events rest

/-- A path among the arguments is not empty. -/
def addPath (path : String) (paths : List String) : Option (List String) :=
  if path.isEmpty then none else some (paths ++ [path])

/-- Takes up the arguments after the name of a dialect. -/
def readDecode (d : Decode) : List Event → Option Request
  | [] => some (.decode d)
  | .flag .help :: _ => some .help
  | .flag .strict :: rest => if d.strict then none else readDecode { d with strict := true } rest
  | .value .enter path :: rest => do readDecode { d with enter := ← addPath path d.enter } rest
  | .value .file path :: rest => do readDecode { d with files := ← addPath path d.files } rest
  | .value .directory path :: rest => do
    readDecode { d with directories := ← addPath path d.directories } rest
  | .value .format name :: rest => do
    let format ← Format.ofName? name
    if d.format.isSome then none else readDecode { d with format := some format } rest
  | _ => none

/-- Directories to change to count from the last place where they are given: before the name of the
dialect or after it. -/
def Request.withEnter (dirs : List String) : Request → Request
  | .decode d => .decode { d with enter := if d.enter.isEmpty then dirs else d.enter }
  | r => r

/-- Takes up the arguments before the name of a dialect. -/
def readRequest (dirs : List String) : List Event → Option Request
  | .flag .version :: _ => some .version
  | .flag .help :: _ => some .help
  | .value .enter path :: rest => do readRequest (← addPath path dirs) rest
  | .word "help" :: _ => some .help
  | .word name :: rest => do
    let family ← familyOfName? name
    let request ← readDecode { family } rest
    return request.withEnter dirs
  | _ => none

/-- The request that arguments make, if they make one. -/
def Request.ofArguments? (args : List String) : Option Request :=
  readRequest [] (events args)

end EarlyConfig.Command
