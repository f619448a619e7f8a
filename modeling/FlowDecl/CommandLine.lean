import FlowDecl.Options.Basic

/-!
# Command lines

Arguments are taken from left to right.  Options and files may stand in any
order, and nothing after `--` is an option.  Every option is given at most once.
An option with a value takes it from the same argument, after an equals sign, or
from the next one, which then must not look like an option itself.  Options of
one letter can be run together.

The first fault ends the command line, and so does a request for the version or
for help.  Taking an argument is `CommandLine.take`, which says how the next one
is to be understood.
-/

namespace FlowDecl

/-- A command line: what to print and how. -/
structure CommandLine where
  /-- The inputs in order. -/
  files : List String := []
  /-- The options file. -/
  project : Option String := none
  /-- Whether the absent half of an optional type is `ReactNull`. -/
  useReactNull : Bool := false
  /-- Whether every alias is exported. -/
  forceExport : Bool := false
  /-- The directory of the outputs. -/
  outDir : Option String := none
  /-- The extension of the outputs. -/
  outExtension : Option String := none
  /-- Whether the outputs are printed rather than written. -/
  stdout : Bool := false
  /-- Whether progress is reported. -/
  verbose : Bool := false
deriving DecidableEq, Repr, Inhabited

/-- The layer of options that a command line sets.  A flag only ever turns
something on. -/
def CommandLine.overrides (c : CommandLine) : Options where
  useReactNull := if c.useReactNull then some true else none
  forceExport := if c.forceExport then some true else none
  outDir := c.outDir
  outExtension := c.outExtension

/-! ## Options -/

/-- An option without a value. -/
inductive Flag where
  | useReactNull
  | forceExport
  | stdout
  | verbose
  | help
  | version
deriving DecidableEq, Repr

/-- An option with a value. -/
inductive Setting where
  | project
  | outDir
  | outExtension
deriving DecidableEq, Repr

/-- An option. -/
inductive Switch where
  | flag (flag : Flag)
  | setting (setting : Setting)
deriving DecidableEq, Repr

/-- The option of a long name. -/
def Switch.ofName? (name : String) : Option Switch :=
  [("project", Switch.setting .project), ("useReactNull", .flag .useReactNull),
    ("forceExport", .flag .forceExport), ("outDir", .setting .outDir),
    ("outExtension", .setting .outExtension), ("stdout", .flag .stdout),
    ("verbose", .flag .verbose), ("help", .flag .help), ("version", .flag .version)].lookup name

/-- The option of a letter. -/
def Switch.ofLetter? (letter : Char) : Option Switch :=
  [('p', Switch.setting .project), ('v', .flag .verbose), ('h', .flag .help),
    ('V', .flag .version)].lookup letter

/-- Why a command line cannot be used. -/
inductive UsageError where
  | unknownOption (argument : String)
  | repeatedOption
  | missingValue (setting : Setting)
  | unexpectedValue (argument : String)
  | emptyPath
  | noFiles
deriving DecidableEq, Repr

/-- What ends a command line before its last argument. -/
inductive Stop where
  | help
  | version
  | usage (error : UsageError)
deriving DecidableEq, Repr

/-- How the next argument is to be understood. -/
inductive Expectation where
  /-- As an option or a file. -/
  | any
  /-- As the value of an option. -/
  | value (setting : Setting)
  /-- As a file. -/
  | file
deriving DecidableEq, Repr

/-! ## Taking arguments -/

namespace CommandLine

/-- The command line with a flag turned on. -/
def setFlag (c : CommandLine) : Flag → Except Stop CommandLine
  | .useReactNull =>
    if c.useReactNull then .error (.usage .repeatedOption) else .ok { c with useReactNull := true }
  | .forceExport =>
    if c.forceExport then .error (.usage .repeatedOption) else .ok { c with forceExport := true }
  | .stdout => if c.stdout then .error (.usage .repeatedOption) else .ok { c with stdout := true }
  | .verbose =>
    if c.verbose then .error (.usage .repeatedOption) else .ok { c with verbose := true }
  | .help => .error .help
  | .version => .error .version

/-- The command line with the value of an option set.  A path is not empty. -/
def setValue (c : CommandLine) (setting : Setting) (value : String) : Except Stop CommandLine :=
  match setting with
  | .project =>
    if c.project.isSome then .error (.usage .repeatedOption)
    else if value = "" then .error (.usage .emptyPath)
    else .ok { c with project := some value }
  | .outDir =>
    if c.outDir.isSome then .error (.usage .repeatedOption)
    else .ok { c with outDir := some value }
  | .outExtension =>
    if c.outExtension.isSome then .error (.usage .repeatedOption)
    else .ok { c with outExtension := some value }

/-- The command line with another file.  A path is not empty. -/
def addFile (c : CommandLine) (file : String) : Except Stop CommandLine :=
  if file = "" then .error (.usage .emptyPath) else .ok { c with files := c.files ++ [file] }

/-- The text before the first equals sign, and the text after it if there is one. -/
def splitEquals : List Char → List Char × Option (List Char)
  | [] => ([], none)
  | c :: rest =>
    if c = '=' then ([], some rest)
    else
      let (name, value) := splitEquals rest
      (c :: name, value)

/-- Takes a long option without its dashes. -/
def takeLong (c : CommandLine) (argument : List Char) :
    Except Stop (CommandLine × Expectation) :=
  let (name, value) := splitEquals argument
  match Switch.ofName? (.ofList name), value with
  | none, _ => .error (.usage (.unknownOption (.ofList argument)))
  | some (.flag flag), none => (c.setFlag flag).map (·, .any)
  | some (.flag _), some _ => .error (.usage (.unexpectedValue (.ofList argument)))
  | some (.setting setting), none => .ok (c, .value setting)
  | some (.setting setting), some value => (c.setValue setting (.ofList value)).map (·, .any)

/-- Takes options of one letter that stand together.  What follows the letter of
an option with a value is the value, without an equals sign at its front. -/
def takeShort (c : CommandLine) : List Char → Except Stop (CommandLine × Expectation)
  | [] => .ok (c, .any)
  | letter :: rest =>
    match Switch.ofLetter? letter with
    | none => .error (.usage (.unknownOption (.ofList (letter :: rest))))
    | some (.flag flag) =>
      match c.setFlag flag with
      | .error stop => .error stop
      | .ok c => c.takeShort rest
    | some (.setting setting) =>
      match rest with
      | [] => .ok (c, .value setting)
      | '=' :: value => (c.setValue setting (.ofList value)).map (·, .any)
      | value => (c.setValue setting (.ofList value)).map (·, .any)

/-- Whether an argument looks like an option.  A lone dash does not. -/
def looksLikeOption (argument : String) : Bool :=
  match argument.toList with
  | '-' :: _ :: _ => true
  | _ => false

/-- Takes an argument as it is expected to be understood. -/
def take (c : CommandLine) (expected : Expectation) (argument : String) :
    Except Stop (CommandLine × Expectation) :=
  match expected with
  | .file => (c.addFile argument).map (·, .file)
  | .value setting =>
    if looksLikeOption argument then .error (.usage (.missingValue setting))
    else (c.setValue setting argument).map (·, .any)
  | .any =>
    match argument.toList with
    | ['-', '-'] => .ok (c, .file)
    | '-' :: '-' :: long => c.takeLong long
    | '-' :: letter :: more => c.takeShort (letter :: more)
    | _ => (c.addFile argument).map (·, .any)

/-- Takes arguments, and requires a file in the end. -/
def takeAll (c : CommandLine) (expected : Expectation) : List String → Except Stop CommandLine
  | [] =>
    match expected with
    | .value setting => .error (.usage (.missingValue setting))
    | _ => if c.files = [] then .error (.usage .noFiles) else .ok c
  | argument :: arguments =>
    match c.take expected argument with
    | .error stop => .error stop
    | .ok (c, expected) => c.takeAll expected arguments

/-- The command line that arguments spell. -/
def parse (arguments : List String) : Except Stop CommandLine :=
  ({} : CommandLine).takeAll .any arguments

end CommandLine

/-! ## Wording -/

/-- The name of the program, as it is called. -/
def programName : String := "flowts"

/-- What is printed for the version. -/
def versionText : String := programName ++ " 0.1.0\n"

/-- What is printed for help. -/
def helpText : String :=
  programName ++ " - print Flow type declarations as TypeScript\n\n" ++
  "Usage: " ++ programName ++ " [OPTIONS] <FILE>...\n\n" ++
  "Arguments:\n" ++
  "  <FILE>...  JSON AST files to print\n\n" ++
  "Options:\n" ++
  "  -p, --project <PROJECT>             Path to flowts.json\n" ++
  "      --useReactNull                  Spell optional types as `ReactNull | T` " ++
  "instead of `undefined | T`\n" ++
  "      --forceExport                   Export every type alias\n" ++
  "      --outDir <OUT_DIR>              Redirect output files to the directory\n" ++
  "      --outExtension <OUT_EXTENSION>  Extension for output files\n" ++
  "      --stdout                        Print to stdout instead of writing files\n" ++
  "  -v, --verbose                       Log pipeline progress to stderr\n" ++
  "  -h, --help                          Print help\n" ++
  "  -V, --version                       Print version\n"

/-- The name of an option with a value. -/
def Setting.text : Setting → String
  | .project => "--project"
  | .outDir => "--outDir"
  | .outExtension => "--outExtension"

/-- The wording of a usage error. -/
def UsageError.message : UsageError → String
  | .unknownOption argument => "unexpected argument '" ++ argument ++ "' found"
  | .repeatedOption => "an option cannot be used multiple times"
  | .missingValue setting =>
    "a value is required for '" ++ setting.text ++ "' but none was supplied"
  | .unexpectedValue argument => "unexpected value in '" ++ argument ++ "' found"
  | .emptyPath => "a path must not be empty"
  | .noFiles => "the following required arguments were not provided: <FILE>..."

/-! ## Tests -/

example : (CommandLine.parse ["-vp", "o.json", "a"]) =
    .ok { files := ["a"], project := some "o.json", verbose := true } := by rfl
example : CommandLine.parse ["--outDir", "--stdout"] =
    .error (.usage (.missingValue .outDir)) := by rfl
example : CommandLine.parse ["a", "--", "-b"] = .ok { files := ["a", "-b"] } := by rfl

end FlowDecl
