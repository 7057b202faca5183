import ObjectBridge.CommandLine.Invocation
import ObjectBridge.Config.Stored
import ObjectBridge.Files.FileSystem
import ObjectBridge.Metadata.Listing
import ObjectBridge.Metadata.Writer
import ObjectBridge.Synthesis.Check

namespace ObjectBridge.CommandLine

structure Report where
  exitCode : Nat
  output : String
  diagnostics : List String
  deriving DecidableEq, Repr

structure Environment where
  metadata : Option String
  logLevel : Option String

def Environment.metadataVariable : String := "METABRIDGE_METADATA"

def Environment.logLevelVariable : String := "METABRIDGE_LOG_LEVEL"

def toolName : String := "metabridge"

def versionText : String := toolName ++ " 0.1.0"

def usage : List String :=
  ["Usage: " ++ toolName ++ " [OPTIONS] <COMMAND>",
    "",
    "Commands:",
    "  compile <INPUT> [-o <OUTPUT>]  Compile a JSON type universe into a metadata blob",
    "  dump [BLOB] [-p]               Print the descriptors of a metadata blob as JSON",
    "  check [BLOB]                   Validate a blob and synthesize every class and protocol in it",
    "  help                           Print this message",
    "",
    "Options:",
    "  --config <CONFIG>              Configuration file",
    "  --log-level <LOG_LEVEL>        Log level override",
    "  --log-format <LOG_FORMAT>      Log format override (pretty, compact or json)"]

def Refusal.message : Refusal → String
  | .unknownSubcommand => "unrecognized subcommand"
  | .missingSubcommand => "a subcommand is required"
  | .missingArgument => "a required argument is missing"
  | .unknownArgument => "unexpected argument"
  | .repeatedArgument => "an argument cannot be used several times"
  | .invalidValue => "an argument has no value or an invalid one"
  | .unexpectedValue => "an argument has a value and takes none"
  | .nothingAsked | .helpAsked => toolName
  | .versionAsked => versionText

-- Help and the version are answers; any other refusal is an error of use.
def Refusal.report (r : Refusal) : Report :=
  match r with
  | .helpAsked => ⟨0, "\n".intercalate usage ++ "\n", []⟩
  | .versionAsked => ⟨0, versionText ++ "\n", []⟩
  | _ => ⟨2, "", ("error: " ++ r.message) :: "" :: usage⟩

inductive Failure where
  | configUnreadable (path : String) (fault : FileFault)
  | configInvalid
  | noLog (directory : String) (fault : FileFault)
  | unreadable (path : String) (fault : FileFault)
  | unwritable (path : String) (fault : FileFault)
  | schema (error : SchemaError)
  | load (error : LoadError)
  | checkFailed (report : CheckReport)

namespace Failure

def message : Failure → String
  | .configUnreadable path fault => "failed to read config " ++ path ++ ": " ++ fault.message
  | .configInvalid => "failed to parse config: not a valid configuration"
  | .noLog directory fault => "cannot log to " ++ directory ++ ": " ++ fault.message
  | .unreadable path fault => "cannot read " ++ path ++ ": " ++ fault.message
  | .unwritable path fault => "cannot write " ++ path ++ ": " ++ fault.message
  | .schema error => error.message
  | .load error => (BridgeError.fatalLoad error).message
  | .checkFailed report =>
    toString report.failures.length ++ " of " ++ toString report.total
      ++ " descriptor(s) failed to synthesize"

def exitCode : Failure → Nat
  | .load _ => 70
  | .noLog .. => 101
  | _ => 1

def diagnostics (f : Failure) : List String :=
  match f with
  | .load _ => [toolName ++ ": fatal: " ++ f.message]
  | .noLog .. => [f.message]
  | .checkFailed report =>
    report.failures.map (fun (name, error) => name ++ ": " ++ error.message)
      ++ ["Error: " ++ f.message]
  | _ => ["Error: " ++ f.message]

def report (f : Failure) : Report := ⟨f.exitCode, "", f.diagnostics⟩

end Failure

def compiledBytes (text : String) : Except Failure (Array UInt8) := do
  let bytes ← (Universe.parse text >>= Universe.compile).mapError .schema
  let _ ← (Metadata.ofBytes bytes).mapError .load
  return bytes

section Commands

variable {m : Type → Type} [Monad m] (files : FileSystem m)

def reading (why : FileFault → Failure) (result : m (Except FileFault α)) : ExceptT Failure m α :=
  ExceptT.mk do return (← result).mapError why

-- A blob that does not load is never written.
def compile (input output : String) : ExceptT Failure m String := do
  let text ← reading (.unreadable input) (files.readText input)
  let bytes ← ExceptT.mk (pure (compiledBytes text))
  reading (.unwritable output) (files.write output bytes)
  return "wrote " ++ output ++ " (" ++ toString bytes.size ++ " bytes)\n"

def loadMetadata (path : String) : ExceptT Failure m Metadata := do
  let bytes ← reading (.load ∘ .unreadable path) (files.read path)
  ExceptT.mk (pure ((Metadata.ofBytes bytes).mapError .load))

def check (blob : String) : ExceptT Failure m String := do
  let report := (← loadMetadata files blob).check
  match report.verdict with
  | .ok total => return "ok: " ++ toString total ++ " class(es) and protocol(s) synthesized\n"
  | .error _ => throw (.checkFailed report)

def perform (settings : Settings) : Command → ExceptT Failure m String
  | .compile input output => compile files input (output.getD settings.metadataPath)
  | .dump blob pretty => do
    let metadata ← loadMetadata files (blob.getD settings.metadataPath)
    return metadata.listingText pretty ++ "\n"
  | .check blob => check files (blob.getD settings.metadataPath)

def loadSettings (path : String) : ExceptT Failure m Settings := do
  let text ← reading (.configUnreadable path) (files.readText path)
  match Settings.parse? text with
  | some settings => return settings
  | none => throw .configInvalid

-- The first settings that can be read in any of the directories.
def nearestSettings : (directories : List String) → m Settings
  | [] => return .standard
  | directory :: rest => do
    match ← (loadSettings files (Path.join directory Settings.fileName)).run with
    | .ok settings => return settings
    | .error _ => nearestSettings rest

def discoverSettings : m Settings := do
  nearestSettings files (Path.ancestors (← files.workingDirectory))

-- Logging to a file needs its directory.
def openLog (plan : LogPlan) : ExceptT Failure m Unit :=
  match plan.target with
  | .file directory _ => reading (.noLog directory) (files.createDirectory directory)
  | _ => return

-- What the words ask for overrides what the environment asks for.
def execute (environment : Environment) (invocation : Invocation) : ExceptT Failure m String := do
  let stored ← match invocation.config with
    | some path => loadSettings files path
    | none => ExceptT.lift (discoverSettings files)
  let settings := (stored.withOverrides environment.metadata environment.logLevel).withOverrides
    none invocation.logLevel
  openLog files settings.logging.plan
  perform files settings invocation.command

def run (environment : Environment) (words : List String) : m Report := do
  match Invocation.ofArguments words with
  | .error refusal => return refusal.report
  | .ok invocation =>
    match ← (execute files environment invocation).run with
    | .ok output => return ⟨0, output, []⟩
    | .error failure => return failure.report

end Commands

end ObjectBridge.CommandLine
