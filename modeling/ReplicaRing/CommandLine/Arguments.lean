/-!
Command lines: commands with options and subcommands, reading arguments by their description,
and the help text that the description amounts to.

Options are short or long. The value of an option follows it, in the same argument or in the
next; an argument that starts with a dash is never taken for the value of the option before it.
An option is given at most once, and is checked when the next option is met or the arguments of
its command end.
-/

namespace ReplicaRing.CommandLine

/-- What an option does. -/
inductive OptionKind where
  /-- Takes a value, shown under this name in the help. -/
  | value (placeholder : String) (default : Option String) (mayBeEmpty : Bool)
  | flag
  | help
  | version
  deriving DecidableEq, Repr

structure OptionSpec where
  short : Option Char
  long : String
  kind : OptionKind
  help : String
  deriving DecidableEq, Repr

structure CommandSpec where
  name : String
  about : String
  options : List OptionSpec
  deriving DecidableEq, Repr

/-- A program: options of its own, and the commands of which one must be given. -/
structure ProgramSpec where
  name : String
  version : String
  about : String
  options : List OptionSpec
  commands : List CommandSpec

/-- The values of the options that were given; a flag has an empty one. -/
abbrev Given := List (String × String)

/-- Why there is nothing to run. -/
inductive Stop where
  /-- A text was asked for. -/
  | text (text : String)
  | misuse (reason : String)
  deriving DecidableEq, Repr

/-! ## Help -/

def OptionSpec.label (o : OptionSpec) : String :=
  let short := match o.short with
    | some c => "-" ++ String.singleton c ++ ", "
    | none => "    "
  let value := match o.kind with
    | .value placeholder _ _ => " <" ++ placeholder ++ ">"
    | _ => ""
  short ++ "--" ++ o.long ++ value

def OptionSpec.describe (o : OptionSpec) : String :=
  match o.kind with
  | .value _ (some default) _ => o.help ++ " [default: " ++ default ++ "]"
  | _ => o.help

/-- Two columns, the first as wide as its widest entry. -/
def columns (rows : List (String × String)) : String :=
  let width := (rows.map fun r => r.1.length).foldl max 0
  String.join (rows.map fun (left, right) =>
    "  " ++ left ++ String.ofList (List.replicate (width - left.length + 2) ' ') ++ right ++ "\n")

def optionSection (options : List OptionSpec) : String :=
  "Options:\n" ++ columns (options.map fun o => (o.label, o.describe))

/-- Whether the usage line speaks of options, other than help and version. -/
def hasOwnOptions (options : List OptionSpec) : Bool :=
  options.any fun o => o.kind != .help && o.kind != .version

def optionsTag (options : List OptionSpec) : String :=
  if hasOwnOptions options then " [OPTIONS]" else ""

/-- The command that shows the help of others. -/
def helpAbout : String := "Print this message or the help of the given subcommand(s)"

def ProgramSpec.help (p : ProgramSpec) : String :=
  p.about ++ "\n\nUsage: " ++ p.name ++ optionsTag p.options ++ " <COMMAND>\n\nCommands:\n" ++
    columns (p.commands.map (fun c => (c.name, c.about)) ++ [("help", helpAbout)]) ++ "\n" ++
    optionSection p.options

def ProgramSpec.commandHelp (p : ProgramSpec) (c : CommandSpec) : String :=
  c.about ++ "\n\nUsage: " ++ p.name ++ " " ++ c.name ++ optionsTag c.options ++ "\n\n" ++
    optionSection c.options

def ProgramSpec.helpOnHelp (p : ProgramSpec) : String :=
  helpAbout ++ "\n\nUsage: " ++ p.name ++ " help [COMMAND]...\n\nArguments:\n" ++
    columns [("[COMMAND]...", "Print help for the subcommand(s)")]

def ProgramSpec.versionLine (p : ProgramSpec) : String := p.name ++ " " ++ p.version ++ "\n"

/-- The command of a name. -/
def ProgramSpec.command? (p : ProgramSpec) (name : String) : Option CommandSpec :=
  p.commands.find? fun c => c.name == name

/-- What the help command shows. -/
def ProgramSpec.helpOn (p : ProgramSpec) : List String → Stop
  | [] => .text p.help
  | ["help"] => .text p.helpOnHelp
  | [name] =>
    match p.command? name with
    | some c => .text (p.commandHelp c)
    | none => .misuse ("unrecognized subcommand " ++ name)
  | _ => .misuse "unrecognized subcommand"

/-! ## Reading options -/

/-- An option that was met and not checked yet, with its value if that was met too. -/
abbrev Pending := Option (OptionSpec × Option String)

/-- Reading the options of one level. -/
structure Progress where
  given : Given
  pending : Pending

/-- Accepts an option with its value. -/
def accept (given : Given) (o : OptionSpec) (value : String) : Except Stop Given :=
  if (given.lookup o.long).isSome then
    .error (.misuse ("the argument --" ++ o.long ++ " cannot be used multiple times"))
  else
    match o.kind with
    | .value _ _ false =>
      if value.isEmpty then .error (.misuse ("a value is required for --" ++ o.long))
      else .ok (given ++ [(o.long, value)])
    | _ => .ok (given ++ [(o.long, value)])

/-- Checks the option that is pending, if there is one. -/
def Progress.check (p : Progress) : Except Stop Given :=
  match p.pending with
  | none => .ok p.given
  | some (o, some value) => accept p.given o value
  | some (o, none) => .error (.misuse ("a value is required for --" ++ o.long))

/-- The texts to show on demand. -/
structure Texts where
  help : String
  version : String

/-- Meets an option, perhaps with a value in the same argument. -/
def Progress.meet (p : Progress) (texts : Texts) (o : OptionSpec) (attached : Option String) :
    Except Stop Progress :=
  match o.kind, attached with
  | .value _ _ _, some value => do return ⟨← accept (← p.check) o value, none⟩
  | .value _ _ _, none => do return ⟨← p.check, some (o, none)⟩
  | _, some _ => .error (.misuse ("unexpected value for --" ++ o.long))
  | .flag, none => do return ⟨← accept (← p.check) o "", none⟩
  | .help, none => do
    let _ ← p.check
    throw (.text texts.help)
  | .version, none => do
    let _ ← p.check
    throw (.text texts.version)

/-- Meets the short options of one argument. What follows an option that takes a value is the
value, after an equals sign or not. -/
def Progress.meetShort (texts : Texts) (options : List OptionSpec) :
    Progress → List Char → Except Stop Progress
  | p, [] => .ok p
  | p, c :: rest =>
    match options.find? fun o => o.short == some c with
    | none => .error (.misuse ("unexpected argument -" ++ String.singleton c))
    | some o =>
      match o.kind with
      | .value _ _ _ =>
        let attached := match rest with
          | [] => none
          | '=' :: value => some (String.ofList value)
          | value => some (String.ofList value)
        p.meet texts o attached
      | _ => do meetShort texts options (← p.meet texts o none) rest

/-- Meets a long option, with a value after an equals sign or not. -/
def Progress.meetLong (texts : Texts) (options : List OptionSpec) (p : Progress)
    (text : List Char) : Except Stop Progress :=
  let name := String.ofList (text.takeWhile (· != '='))
  let attached := match text.dropWhile (· != '=') with
    | '=' :: value => some (String.ofList value)
    | _ => none
  match options.find? fun o => o.long == name with
  | none => .error (.misuse ("unexpected argument --" ++ name))
  | some o => p.meet texts o attached

/-- What an argument is by its looks. -/
inductive Shape where
  /-- Two dashes: no options follow. -/
  | escape
  | long (text : List Char)
  | short (text : List Char)
  | plain

def shape (arg : String) : Shape :=
  match arg.toList with
  | ['-', '-'] => .escape
  | '-' :: '-' :: text => .long text
  | ['-'] => .plain
  | '-' :: text => .short text
  | _ => .plain

/-! ## Reading arguments -/

/-- Reads the arguments of a command, which takes options only. -/
def readCommand (texts : Texts) (options : List OptionSpec) :
    Progress → List String → Except Stop Given
  | p, [] => p.check
  | p, arg :: rest =>
    match shape arg with
    | .long text => do readCommand texts options (← p.meetLong texts options text) rest
    | .short text => do readCommand texts options (← p.meetShort texts options text) rest
    | .escape =>
      if rest.isEmpty then p.check else .error (.misuse "unexpected argument after --")
    | .plain =>
      match p.pending with
      | some (o, none) => readCommand texts options ⟨p.given, some (o, some arg)⟩ rest
      | _ => .error (.misuse ("unexpected argument " ++ arg))

/-- The command that arguments name, with the options of the program and its own. -/
structure Invocation where
  command : String
  programOptions : Given
  commandOptions : Given

/-- Reads arguments. The options of the program come before the command; one of them that is
pending is checked after the options of the command. -/
def ProgramSpec.readFrom (p : ProgramSpec) : Progress → List String → Except Stop Invocation
  | progress, [] => do
    let _ ← progress.check
    throw (.misuse "a command is required")
  | progress, arg :: rest =>
    let texts : Texts := ⟨p.help, p.versionLine⟩
    match shape arg with
    | .long text => do p.readFrom (← progress.meetLong texts p.options text) rest
    | .short text => do p.readFrom (← progress.meetShort texts p.options text) rest
    | .escape => .error (.misuse "unexpected argument --")
    | .plain =>
      match progress.pending with
      | some (o, none) => p.readFrom ⟨progress.given, some (o, some arg)⟩ rest
      | _ =>
        if arg = "help" then .error (p.helpOn rest)
        else
          match p.command? arg with
          | none => .error (.misuse ("unrecognized subcommand " ++ arg))
          | some c => do
            let commandOptions ← readCommand ⟨p.commandHelp c, ""⟩ c.options ⟨[], none⟩ rest
            let programOptions ← progress.check
            return ⟨c.name, programOptions, commandOptions⟩

def ProgramSpec.read (p : ProgramSpec) (args : List String) : Except Stop Invocation :=
  p.readFrom ⟨[], none⟩ args

/-- The value of an option, or its default. -/
def valueOf (options : List OptionSpec) (given : Given) (long : String) : Option String :=
  match given.lookup long with
  | some value => some value
  | none =>
    match options.find? fun o => o.long == long with
    | some ⟨_, _, .value _ default _, _⟩ => default
    | _ => none

end ReplicaRing.CommandLine
