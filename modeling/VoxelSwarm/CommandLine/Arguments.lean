import VoxelSwarm.Text.Natural

/-!
# Arguments

The command line is a row of options, each `--name value` or `--name=value` and each given once. A
value does not start with a dash unless it is one. Arguments are taken from left to right, and the
first that is wrong, or that asks for something else than a run, settles what is done.
-/

namespace VoxelSwarm.CommandLine

/-- The options that take a value. -/
inductive Setting where
  | source
  | target
  | trace
  | config
  | logFile
  | problem
  | solution
  | resume
  | saveSnapshot
  | steps
  deriving DecidableEq, Repr

namespace Setting

def all : List Setting :=
  [.source, .target, .trace, .config, .logFile, .problem, .solution, .resume, .saveSnapshot, .steps]

def name : Setting → String
  | .source => "source"
  | .target => "target"
  | .trace => "trace"
  | .config => "config"
  | .logFile => "log-file"
  | .problem => "problem"
  | .solution => "solution"
  | .resume => "resume"
  | .saveSnapshot => "save-snapshot"
  | .steps => "steps"

def ofName? (name : String) : Option Setting := all.find? (·.name == name)

/-- The greatest number of steps that can be asked for. -/
def greatestSteps : Nat := Nat.pow 2 64 - 1

/-- The values that the option takes: any text for a label, a number of steps, and a path for the
others, which is not empty. -/
def accepts (setting : Setting) (value : String) : Bool :=
  match setting with
  | .problem | .solution => true
  | .steps => (Natural.parse? greatestSteps value.toList).isSome
  | _ => value ≠ ""

end Setting

/-- What a run is given. -/
structure Arguments where
  source : Option String
  target : Option String
  trace : String
  config : Option String
  logFile : Option String
  problem : Option String
  solution : Option String
  resume : Option String
  saveSnapshot : Option String
  steps : Option Nat
  deriving DecidableEq, Repr

/-- What the command line asks for. -/
inductive Request where
  | grade (arguments : Arguments)
  | version
  | help
  /-- Some argument is wrong, or the trace is missing. -/
  | refused
  deriving DecidableEq, Repr

/-- The options given so far, with their values. -/
abbrev Given := List (Setting × String)

namespace Given

def value? (given : Given) (setting : Setting) : Option String :=
  (given.find? fun entry => entry.1 = setting).map (·.2)

/-- Adds an option, unless it is there already or does not take the value. -/
def add? (given : Given) (setting : Setting) (value : String) : Option Given :=
  if (given.value? setting).isSome ∨ ¬setting.accepts value then none
  else some ((setting, value) :: given)

def request (given : Given) : Request :=
  match given.value? .trace with
  | none => .refused
  | some trace => .grade {
      source := given.value? .source
      target := given.value? .target
      trace := trace
      config := given.value? .config
      logFile := given.value? .logFile
      problem := given.value? .problem
      solution := given.value? .solution
      resume := given.value? .resume
      saveSnapshot := given.value? .saveSnapshot
      steps := (given.value? .steps).bind fun value =>
        Natural.parse? Setting.greatestSteps value.toList }

end Given

/-- An argument, by its form. -/
inductive Form where
  /-- A name after two dashes, with a value attached or not. -/
  | long (name : String) (value : Option String)
  /-- Letters after one dash. -/
  | short (letters : List Char)
  | plain

def Form.of (argument : String) : Form :=
  match argument.toList with
  | '-' :: '-' :: rest =>
    let name := String.ofList (rest.takeWhile (· ≠ '='))
    .long name (((rest.dropWhile (· ≠ '=')).tail?).map String.ofList)
  | '-' :: c :: rest => .short (c :: rest)
  | _ => .plain

/-- Takes arguments from left to right. -/
def parseFrom (given : Given) : List String → Request
  | [] => given.request
  | argument :: rest =>
    match Form.of argument with
    | .plain => .refused
    | .short ('V' :: _) => .version
    | .short ('h' :: _) => .help
    | .short _ => .refused
    | .long "" none => if rest.isEmpty then given.request else .refused
    | .long "version" none => .version
    | .long "help" none => .help
    | .long name attached =>
      match Setting.ofName? name, attached, rest with
      | none, _, _ => .refused
      | some setting, some value, rest =>
        match given.add? setting value with
        | some given => parseFrom given rest
        | none => .refused
      | some _, none, [] => .refused
      | some setting, none, value :: rest =>
        match Form.of value, given.add? setting value with
        | .plain, some given => parseFrom given rest
        | _, _ => .refused

/-- What a command line asks for. -/
def parse (arguments : List String) : Request := parseFrom [] arguments

end VoxelSwarm.CommandLine
