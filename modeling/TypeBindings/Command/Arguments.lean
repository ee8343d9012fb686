import TypeBindings.Command.Settings

/-!
# Command lines

A command line names a command, with options before and after its name. Options have a long name, and most have a
letter; letters may stand together behind one dash. The value of an option stands in the same argument, with or without
an equals sign behind a letter, or is the next argument. Arguments are read one after the other, so that whatever comes
first decides: a mistake, or the question for the version.
-/

namespace TypeBindings

inductive CommandName where
  | generate
  | check
  | schema
  | targets
deriving DecidableEq, Repr

namespace CommandName

def all : List CommandName := [.generate, .check, .schema, .targets]

def text : CommandName → String
  | .generate => "generate"
  | .check => "check"
  | .schema => "schema"
  | .targets => "targets"

end CommandName

/-- What a command line asks to do. -/
inductive Command where
  | generate (args : GenerateArguments)
  | check (path : Path)
  | schema
  | targets
deriving DecidableEq, Repr

/-- The options that have a value. -/
inductive ValueOption where
  | input
  | builtin
  | output
  | target
  | policy
  | config
deriving DecidableEq, Repr

namespace ValueOption

def name : ValueOption → String
  | .input => "input"
  | .builtin => "builtin"
  | .output => "output"
  | .target => "target"
  | .policy => "component-policy"
  | .config => "config"

def letter? : ValueOption → Option Char
  | .input => some 'i'
  | .builtin => some 'b'
  | .output => some 'o'
  | .target => some 't'
  | .policy => none
  | .config => some 'c'

/-- The options of a command; only generation has any. -/
def of : Option CommandName → List ValueOption
  | some .generate => [.input, .builtin, .output, .target, .policy, .config]
  | _ => []

end ValueOption

inductive UsageError where
  | missingCommand
  | unknownCommand (text : String)
  | unknownOption (text : String)
  | unexpectedArgument (text : String)
  | missingValue (option : ValueOption)
  | emptyPath
  | repeatedOption (name : String)
  | conflict (first second : ValueOption)
  | missingPath
deriving DecidableEq, Repr

def UsageError.message : UsageError → String
  | .missingCommand => "a command is needed"
  | .unknownCommand text => "there is no command '" ++ text ++ "'"
  | .unknownOption text => "there is no option '" ++ text ++ "'"
  | .unexpectedArgument text => "unexpected argument '" ++ text ++ "'"
  | .missingValue option => "option '--" ++ option.name ++ "' needs a value"
  | .emptyPath => "a path must not be empty"
  | .repeatedOption name => "option '--" ++ name ++ "' is given twice"
  | .conflict first second => "option '--" ++ first.name ++ "' cannot be used with '--" ++ second.name ++ "'"
  | .missingPath => "a path is needed"

/-! ## Words -/

/-- What a part of an argument says. -/
inductive Word where
  | verbose
  | version
  | help
  | value (option : ValueOption) (attached : Option String)
  | unknown (text : String)
deriving DecidableEq, Repr

/-- The word of an argument that begins with two dashes, given what follows them. -/
def longWord (options : List ValueOption) (body : List Char) : Word :=
  let name := String.ofList (body.takeWhile (· ≠ '='))
  let attached := match body.dropWhile (· ≠ '=') with
    | [] => none
    | _ :: value => some (String.ofList value)
  match options.find? (·.name = name) with
  | some option => .value option attached
  | none =>
    match name, attached with
    | "verbose", none => .verbose
    | "version", none => .version
    | "help", none => .help
    | _, _ => .unknown ("--" ++ String.ofList body)

/-- What stands behind the letter of an option, as its value. -/
def attachedValue : List Char → Option String
  | [] => none
  | c :: rest => some (String.ofList (if c = '=' then rest else c :: rest))

/-- The words of an argument that begins with one dash, given the letters that follow it. -/
def letterWords (options : List ValueOption) : List Char → List Word
  | [] => []
  | c :: rest =>
    match options.find? (·.letter? = some c) with
    | some option => [.value option (attachedValue rest)]
    | none =>
      if c = 'v' then .verbose :: letterWords options rest
      else if c = 'V' then .version :: letterWords options rest
      else if c = 'h' then .help :: letterWords options rest
      else [.unknown ("-" ++ String.singleton c)]

/-- The words of an argument, or nothing if it is a plain text. A dash alone is a plain text. -/
def words? (options : List ValueOption) (argument : String) : Option (List Word) :=
  match argument.toList with
  | '-' :: '-' :: body => some [longWord options body]
  | '-' :: c :: letters => some (letterWords options (c :: letters))
  | _ => none

/-! ## Reading -/

/-- What a command line asks for. -/
inductive Request where
  | run (command : Command) (verbose : Bool)
  /-- The version of the program, or of one of its commands. -/
  | version (command : Option CommandName)
  | help
deriving DecidableEq, Repr

/-- Why reading stops before the end. -/
inductive Stop where
  | usage (error : UsageError)
  | answered (request : Request)
deriving DecidableEq, Repr

/-- What has been read of the arguments of a command. -/
structure CommandDraft where
  verbose : Bool := false
  path : Option Path := none
  generate : GenerateArguments := {}

namespace CommandDraft

/-- An option that is given once. -/
def once {α : Type} (option : ValueOption) (old : Option α) (new : α) : Except Stop (Option α) :=
  if old.isSome then .error (.usage (.repeatedOption option.name)) else .ok (some new)

def pathValue (value : String) : Except Stop Path :=
  if value.isEmpty then .error (.usage .emptyPath) else .ok ⟨value⟩

/-- Notes the value of an option. -/
def store (draft : CommandDraft) (option : ValueOption) (value : String) : Except Stop CommandDraft := do
  let args := draft.generate
  let stored ← match option with
    | .input => do pure { args with input := ← once option args.input (← pathValue value) }
    | .builtin => do pure { args with builtin := ← once option args.builtin value }
    | .output => do pure { args with output := ← once option args.output (← pathValue value) }
    | .target => pure { args with targets := args.targets ++ [value] }
    | .policy => do pure { args with policy := ← once option args.policy value }
    | .config => do pure { args with config := ← once option args.config (← pathValue value) }
  return { draft with generate := stored }

/-- Notes an argument that belongs to no option; only a check has one. -/
def addPlain (command : CommandName) (draft : CommandDraft) (text : String) : Except Stop CommandDraft :=
  if command = .check && draft.path.isNone then do return { draft with path := some (← pathValue text) }
  else .error (.usage (.unexpectedArgument text))

/-- Reads the words of an argument; an option that is left without its value is given back. -/
def addWords (command : Option CommandName) (draft : CommandDraft) :
    List Word → Except Stop (CommandDraft × Option ValueOption)
  | [] => .ok (draft, none)
  | .verbose :: rest =>
    if draft.verbose then .error (.usage (.repeatedOption "verbose"))
    else addWords command { draft with verbose := true } rest
  | .version :: _ => .error (.answered (.version command))
  | .help :: _ => .error (.answered .help)
  | .unknown text :: _ => .error (.usage (.unknownOption text))
  | .value option (some value) :: rest => do addWords command (← draft.store option value) rest
  | .value option none :: _ => .ok (draft, some option)

/-- Reads the arguments of a command. Behind two dashes alone no argument is an option. -/
def read (command : CommandName) (draft : CommandDraft) : List String → Except Stop CommandDraft
  | [] => .ok draft
  | argument :: rest => do
    if argument = "--" then rest.foldlM (addPlain command) draft
    else
      match words? (ValueOption.of command) argument with
      | none => read command (← draft.addPlain command argument) rest
      | some words =>
        match ← draft.addWords command words with
        | (draft, none) => read command draft rest
        | (draft, some option) =>
          match rest with
          | [] => .error (.usage (.missingValue option))
          | value :: rest =>
            if (words? [] value).isSome then .error (.usage (.missingValue option))
            else read command (← draft.store option value) rest

/-- The command of what has been read. -/
def finish (command : CommandName) (draft : CommandDraft) : Except UsageError Command :=
  match command with
  | .generate =>
    if draft.generate.input.isSome && draft.generate.builtin.isSome then .error (.conflict .input .builtin)
    else .ok (.generate draft.generate)
  | .check => (draft.path.map Command.check).elim (.error .missingPath) .ok
  | .schema => .ok .schema
  | .targets => .ok .targets

end CommandDraft

/-- The question for help, which may name one command. -/
def readHelp : List String → Except Stop Request
  | [] => .ok .help
  | [name] =>
    if name = "help" || CommandName.all.any (·.text = name) then .ok .help
    else .error (.usage (.unknownCommand name))
  | _ :: name :: _ => .error (.usage (.unknownCommand name))

/-- Reads a command line up to the name of the command, and then its arguments. -/
def readCommandLine (draft : CommandDraft) : List String → Except Stop Request
  | [] => .error (.usage .missingCommand)
  | argument :: rest =>
    match CommandName.all.find? (·.text = argument) with
    | some command => do
      let own ← CommandDraft.read command {} rest
      match own.finish command with
      | .ok result => .ok (.run result (draft.verbose || own.verbose))
      | .error error => .error (.usage error)
    | none =>
      if argument = "help" then readHelp rest
      else
        match words? (ValueOption.of none) argument with
        | none => .error (.usage (.unknownCommand argument))
        | some words => do
          let (draft, _) ← draft.addWords none words
          readCommandLine draft rest

/-- What a list of arguments asks for. -/
def Request.parse (arguments : List String) : Except UsageError Request :=
  match readCommandLine {} arguments with
  | .ok request => .ok request
  | .error (.answered request) => .ok request
  | .error (.usage error) => .error error

end TypeBindings
