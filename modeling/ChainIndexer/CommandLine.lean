import ChainIndexer.Setup

/-!
The command line. Long options may be cut short as long as they stay unique, and a value may follow
an option behind `=`. Whatever is left over is a misuse, which is reported after all arguments have
been looked at, so that a request for help before or among them is met.
-/

namespace ChainIndexer.CommandLine

structure Command where
  config : String := "config.yaml"
  /-- Whether to run a single step. -/
  once : Bool := false
  deriving DecidableEq, Repr

/-- What the arguments ask for. -/
inductive Request where
  | run (c : Command)
  | help
  | misuse
  deriving DecidableEq, Repr

inductive Flag where
  | config | once | help
  deriving DecidableEq, Repr

def longNames : List (String × Flag) :=
  [("--help", .help), ("--config", .config), ("--once", .once)]

/-- What an argument is. -/
inductive Argument where
  /-- An option, with the value behind its equals sign. -/
  | flag (f : Flag) (value : Option String)
  /-- Several options have the name. -/
  | ambiguous
  | unknown
  | plain (s : String)
  deriving DecidableEq, Repr

def isDigit (c : Char) : Bool :=
  (Text.digit? c).isSome

/-- Whether a text is a negative number, which is no option. -/
def isNegativeNumber (cs : List Char) : Bool :=
  match cs with
  | '-' :: body =>
    match body.dropWhile isDigit with
    | [] => !body.isEmpty
    | '.' :: fraction => !fraction.isEmpty && fraction.all isDigit
    | _ => false
  | _ => false

/-- The name of an option and the value behind its equals sign. -/
def splitValue (s : String) : String × Option String :=
  let cs := s.toList
  match cs.dropWhile (· != '=') with
  | [] => (s, none)
  | _ :: value => (String.ofList (cs.takeWhile (· != '=')), some (String.ofList value))

/-- What an argument with a dash before it is. -/
def dashed (s : String) : Argument :=
  let (name, value) := splitValue s
  match s.toList with
  | '-' :: '-' :: _ =>
    match longNames.find? (·.1 == name) with
    | some (_, f) => .flag f value
    | none =>
      match longNames.filter fun l => Text.startsWith l.1 name with
      | [(_, f)] => .flag f value
      | _ :: _ :: _ => .ambiguous
      | [] => if s.toList.contains ' ' then .plain s else .unknown
  | '-' :: 'h' :: rest =>
    .flag .help (if rest.all (· == 'h') then none else some (String.ofList rest))
  | cs =>
    if isNegativeNumber cs || cs.contains ' ' then .plain s else .unknown

def argumentOf (s : String) : Argument :=
  match s.toList with
  | '-' :: _ :: _ => dashed s
  | _ => .plain s

/-- What is asked for if no argument but plain ones follow the end of the options. -/
def requestBehindEnd (c : Command) (left : Bool) (rest : List String) : Request :=
  if left || !rest.isEmpty then .misuse else .run c

/-- What the arguments from one of them on ask for, given what the ones before it do; `left` tells
whether any of those was left over. The end of the options may stand beside the value of one. -/
def requestFrom (c : Command) (left : Bool) : List String → Request
  | [] => if left then .misuse else .run c
  | s :: rest =>
    if s = "--" then .misuse
    else match argumentOf s with
      | .flag .help none => .help
      | .flag .help (some _) => .misuse
      | .flag .once none => requestFrom { c with once := true } left rest
      | .flag .once (some _) => .misuse
      | .flag .config (some v) => requestFrom { c with config := v } left rest
      | .flag .config none =>
        match rest with
        | "--" :: v :: more => requestBehindEnd { c with config := v } left more
        | v :: more =>
          match argumentOf v, more with
          | .plain _, "--" :: behind => requestBehindEnd { c with config := v } left behind
          | .plain _, more => requestFrom { c with config := v } left more
          | _, _ => .misuse
        | [] => .misuse
      | .ambiguous => .misuse
      | .unknown | .plain _ => requestFrom c true rest

def requestOf (args : List String) : Request :=
  if args.any fun s => argumentOf s == .ambiguous && s != "--" then .misuse
  else requestFrom {} false args

/-- The number and the wording of a refusal of the file system. -/
def systemText : Fault → String
  | .noSuchFile => "[Errno 2] No such file or directory"
  | .fileExists => "[Errno 17] File exists"
  | .notDirectory => "[Errno 20] Not a directory"
  | .isDirectory => "[Errno 21] Is a directory"
  | .nameTooLong => "[Errno 36] File name too long"
  | _ => "[Errno 5] Input/output error"

/-- The first line of what is said of a failure that has no wording of its own. -/
def headline : Failure → String
  | .invalid model es =>
    Numeral.natural es.length ++ " validation error" ++ (if es.length = 1 then "" else "s") ++
      " for " ++ model
  | .file .badValue _ => "embedded null byte"
  | .file f path => systemText f ++ ": " ++ Text.quoted path
  | .document p => p.text
  | _ => "invalid value"

def report (f : Failure) : String :=
  "ERROR " ++ String.ofList ((f.text headline).toList.takeWhile (· != '\n'))

/-- The failures to put the program together that are reported; any other ends it as it is. -/
def isReported (k : Kind) : Bool :=
  k.isSystem || k.isRuntime || k.isBadValue

/-- The status after which there was nothing to complain of. -/
def success : Nat := 0

/-- The status after a misuse and after a failure that is reported. -/
def failure : Nat := 2

/-- The number of steps that a command asks for, none if there is no end to them. -/
def Command.limit (c : Command) : Option Int :=
  if c.once then some 1 else none

end ChainIndexer.CommandLine
