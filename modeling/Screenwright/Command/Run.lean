/-
Running a command.

A command reads its files, and either reports an error or does its work.  All that it
says goes into a report, so that what a run does can be stated apart from the disk it
runs on.
-/
import Screenwright.Command.Disk
import Screenwright.Command.Help
import Screenwright.Config.Settings
import Screenwright.Generate

namespace Screenwright

open Swift (SourceFile)

/-- What a run leaves behind, apart from files. -/
structure Report where
  code : Nat
  /-- What the run gives out. -/
  output : String
  /-- What the run says about its work. -/
  log : String
deriving DecidableEq, Repr

/-- Why a command fails. -/
inductive CommandError where
  | reading (path : String)
  | appText (path : String)
  | settings (path : String)
  | generating (error : GenerateError)
  /-- A file would be written outside of the folder for all files. -/
  | outside (path : String)
  | folder (path : String)
  | writing (path : String)

/-- The message of an error. -/
def CommandError.message : CommandError → String
  | reading path => "reading " ++ path
  | appText path => "parsing app definition " ++ path
  | settings path => "loading generator config " ++ path
  | generating error => error.message
  | outside path => "refusing to write outside the output directory: " ++ path
  | folder path => "creating " ++ path
  | writing path => "writing " ++ path

namespace Command

variable {m : Type → Type} [Monad m]

/-- Reads a file. -/
def readFile (disk : Disk m) (path : String) : ExceptT CommandError m String := do
  match ← disk.read path with
  | some content => return content
  | none => throw (.reading path)

/-- Reads an app. -/
def readApp (disk : Disk m) (path : String) : ExceptT CommandError m AppDefinition := do
  match AppDefinition.parse (← readFile disk path) with
  | .ok app => return app
  | .error _ => throw (.appText path)

/-- Reads a configuration, if there is one. -/
def readConfig (disk : Disk m) : Option String → ExceptT CommandError m GeneratorConfig
  | none => return .standard
  | some path => do
    match GeneratorConfig.ofSettings (← readFile disk path) with
    | .ok config => return config
    | .error _ => throw (.settings path)

/-- Reads and generates an app. -/
def generateFrom (disk : Disk m) (app : String) (config : Option String) :
    ExceptT CommandError m GeneratedApp := do
  let definition ← readApp disk app
  let config ← readConfig disk config
  match Screenwright.generate definition .standard config with
  | .ok generated => return generated
  | .error e => throw (.generating e)

/-- Whether a path leads to something inside the folder that it starts from. -/
def staysInside (path : String) : Bool :=
  let names := Text.segments '/' path
  !Text.startsWith "/" path && names.head? ≠ some "." && !names.contains ".."

/-- A path below a folder. -/
def below (folder path : String) : String :=
  if folder.toList.getLast? = some '/' then folder ++ path else folder ++ "/" ++ path

/-- Writes a file below a folder. -/
def writeFile (disk : Disk m) (out : String) (file : SourceFile) :
    ExceptT CommandError m Unit := do
  unless staysInside file.path do throw (.outside file.path)
  let target := below out file.path
  if let some (folder, _) := Text.splitLast '/' target then
    unless ← disk.makeFolders folder do throw (.folder folder)
  unless ← disk.write target file.content do throw (.writing target)

/-- Writes all files below a folder. -/
def writeFiles (disk : Disk m) (out : String) (files : List SourceFile) :
    ExceptT CommandError m Unit :=
  files.forM (writeFile disk out)

/-- The lines for the warnings of an app. -/
def warningLines (generated : GeneratedApp) : List String :=
  generated.warnings.map ("warning: " ++ ·)

/-- The report of a run that failed after it had said something. -/
def failed (said : List String) (e : CommandError) : Report :=
  ⟨1, "", textOfLines (said ++ ["Error: " ++ e.message])⟩

/-- Generates an app and writes its files. -/
def runGenerate (disk : Disk m) (app out : String) (config : Option String) : m Report := do
  match ← (generateFrom disk app config).run with
  | .error e => return failed [] e
  | .ok generated =>
    let said := warningLines generated
    match ← (writeFiles disk out generated.files).run with
    | .error e => return failed said e
    | .ok () =>
      return ⟨0, "", textOfLines (said ++
        ["Generated " ++ toString generated.files.length ++ " file(s) in " ++ out])⟩

/-- Generates an app and lists its files. -/
def runCheck (disk : Disk m) (app : String) (config : Option String) : m Report := do
  match ← (generateFrom disk app config).run with
  | .error e => return failed [] e
  | .ok generated =>
    return ⟨0, textOfLines (generated.files.map (·.path)),
      textOfLines (warningLines generated ++
        ["OK: " ++ app ++ " (" ++ toString generated.warnings.length ++ " warning(s))"])⟩

/-- Gives out the design tokens of an app. -/
def runTokens (disk : Disk m) (app : String) : m Report := do
  match ← (readApp disk app).run with
  | .error e => return failed [] e
  | .ok definition =>
    return ⟨0, textOfLines [definition.config.designTokens.toJson.pretty 0], ""⟩

/-- Runs a command. -/
def run (disk : Disk m) : Command → m Report
  | .generate app out config => runGenerate disk app out config
  | .check app config => runCheck disk app config
  | .tokens app => runTokens disk app

end Command

/-- Does what the arguments ask for. -/
def Invocation.perform {m : Type → Type} [Monad m] (disk : Disk m) : Invocation → m Report
  | .run command => command.run disk
  | .help topic => return ⟨0, topic.text, ""⟩
  | .version => return ⟨0, versionText, ""⟩
  | .misuse =>
    return ⟨2, "", textOfLines ["Usage: appforge [OPTIONS] <COMMAND>", "",
      "For more information, try '--help'."]⟩

end Screenwright
