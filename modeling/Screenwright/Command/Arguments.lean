/-
The arguments of the program.

The arguments are read from the left, and what they ask for is settled as early as
possible: a request for help or for the version is answered where it stands, and so is
a misuse.  A value that is still missing makes everything behind it a misuse.
-/
import Screenwright.Text.Split

namespace Screenwright

/-- What the program can be told to do. -/
inductive Command where
  | generate (app out : String) (config : Option String)
  | check (app : String) (config : Option String)
  | tokens (app : String)
deriving DecidableEq, Repr

/-- What help can be asked about. -/
inductive HelpTopic where
  | program
  | generate
  | check
  | tokens
  | help
deriving DecidableEq, Repr

/-- What the arguments ask for. -/
inductive Invocation where
  | run (command : Command)
  | help (topic : HelpTopic)
  | version
  | misuse
deriving DecidableEq, Repr

namespace Invocation

/-- An argument by its shape. -/
inductive Shape where
  /-- Two dashes: only operands follow. -/
  | separator
  /-- A name behind two dashes, and the value behind an equals sign. -/
  | long (name : String) (value : Option String)
  /-- Letters behind one dash. -/
  | short (letters : List Char)
  | operand
deriving DecidableEq, Repr

/-- The shape of an argument; one dash alone is an operand. -/
def shapeOf (arg : String) : Shape :=
  match arg.toList with
  | ['-', '-'] => .separator
  | '-' :: '-' :: name =>
    match Text.cutFirst '=' name with
    | some (name, value) => .long (String.ofList name) (some (String.ofList value))
    | none => .long (String.ofList name) none
  | '-' :: c :: letters => .short (c :: letters)
  | _ => .operand

/-- The options that have a value. -/
inductive Setting where
  | out
  | config
deriving DecidableEq, Repr

/-- A command by its name. -/
inductive Verb where
  | generate
  | check
  | tokens
deriving DecidableEq, Repr

/-- The commands by name. -/
def verbs : List (String × Verb) :=
  [("generate", .generate), ("check", .check), ("tokens", .tokens)]

namespace Verb

/-- The help topic of a command. -/
def topic : Verb → HelpTopic
  | generate => .generate
  | check => .check
  | tokens => .tokens

/-- The options with a value that a command has. -/
def settings : Verb → List Setting
  | generate => [.out, .config]
  | check => [.config]
  | tokens => []

end Verb

namespace Setting

/-- The long name of an option. -/
def name : Setting → String
  | out => "out"
  | config => "config"

/-- The letter of an option. -/
def letter : Setting → Char
  | out => 'o'
  | config => 'c'

end Setting

/-- What has been read of the arguments of a command. -/
structure Draft where
  app : Option String
  out : Option String
  config : Option String

namespace Draft

/-- Takes an operand; there is only one, and it is not empty. -/
def takeOperand (draft : Draft) (arg : String) : Option Draft :=
  if draft.app.isSome || arg.isEmpty then none else some { draft with app := some arg }

/-- Takes the value of an option, which comes once and is not empty. -/
def take (draft : Draft) (setting : Setting) (value : String) : Option Draft :=
  if value.isEmpty then none
  else
    match setting with
    | .out => if draft.out.isSome then none else some { draft with out := some value }
    | .config =>
      if draft.config.isSome then none else some { draft with config := some value }

/-- The command, if nothing is missing. -/
def command? (draft : Draft) : Verb → Option Command
  | .generate => do return .generate (← draft.app) (← draft.out) draft.config
  | .check => do return .check (← draft.app) draft.config
  | .tokens => do return .tokens (← draft.app)

end Draft

/-- What one argument does. -/
inductive Effect where
  | next (draft : Draft)
  /-- The value of an option is the next argument. -/
  | awaits (setting : Setting)
  | settled (invocation : Invocation)

/-- Goes on with a draft that may have been refused. -/
def Effect.ofDraft? : Option Draft → Effect
  | some draft => .next draft
  | none => .settled .misuse

/-- Reads letters behind a dash; behind the letter of an option stands its value. -/
def readLetters (verb : Verb) (draft : Draft) : List Char → Effect
  | [] => .next draft
  | c :: rest =>
    if c = 'v' then readLetters verb draft rest
    else if c = 'h' then .settled (.help verb.topic)
    else
      match verb.settings.find? (·.letter = c), rest with
      | some setting, [] => .awaits setting
      | some setting, '=' :: value => .ofDraft? (draft.take setting (String.ofList value))
      | some setting, value => .ofDraft? (draft.take setting (String.ofList value))
      | none, _ => .settled .misuse

/-- Reads a long option. -/
def readLong (verb : Verb) (draft : Draft) (name : String) (value : Option String) : Effect :=
  match verb.settings.find? (·.name = name), value with
  | some setting, some value => .ofDraft? (draft.take setting value)
  | some setting, none => .awaits setting
  | none, some _ => .settled .misuse
  | none, none =>
    if name = "verbose" then .next draft
    else if name = "help" then .settled (.help verb.topic)
    else .settled .misuse

/-- Reads one argument of a command. -/
def readArgument (verb : Verb) (draft : Draft) (arg : String) : Effect :=
  match shapeOf arg with
  | .long name value => readLong verb draft name value
  | .short letters => readLetters verb draft letters
  | _ => .ofDraft? (draft.takeOperand arg)

/-- What a draft asks for when the arguments end. -/
def close (verb : Verb) (draft : Draft) : Invocation :=
  match draft.command? verb with
  | some command => .run command
  | none => .misuse

/-- Reads the arguments of a command. -/
def readCommand (verb : Verb) (draft : Draft) : List String → Invocation
  | [] => close verb draft
  | arg :: rest =>
    if shapeOf arg = .separator then
      match rest.foldlM Draft.takeOperand draft with
      | some draft => close verb draft
      | none => .misuse
    else
      match readArgument verb draft arg, rest with
      | .next draft, rest => readCommand verb draft rest
      | .settled invocation, _ => invocation
      | .awaits _, [] => .misuse
      | .awaits setting, value :: rest =>
        if shapeOf value = .operand then
          match draft.take setting value with
          | some draft => readCommand verb draft rest
          | none => .misuse
        else .misuse

/-- Reads what help is asked about. -/
def readHelp : List String → Invocation
  | [] => .help .program
  | ["help"] => .help .help
  | [name] =>
    match verbs.lookup name with
    | some verb => .help verb.topic
    | none => .misuse
  | _ => .misuse

/-- What letters in front of the command settle, if anything. -/
def settledBy : List Char → Option Invocation
  | [] => none
  | c :: rest =>
    if c = 'v' then settledBy rest
    else if c = 'h' then some (.help .program)
    else if c = 'V' then some .version
    else some .misuse

/-- Reads the arguments of the program. -/
def ofArgs : List String → Invocation
  | [] => .misuse
  | arg :: rest =>
    match shapeOf arg with
    | .separator => .misuse
    | .long "verbose" none => ofArgs rest
    | .long "help" none => .help .program
    | .long "version" none => .version
    | .long _ _ => .misuse
    | .short letters => (settledBy letters).getD (ofArgs rest)
    | .operand =>
      if arg = "help" then readHelp rest
      else
        match verbs.lookup arg with
        | some verb => readCommand verb ⟨none, none, none⟩ rest
        | none => .misuse

end Invocation

end Screenwright
