import ObjectBridge.Files.Path

namespace ObjectBridge

inductive LogFormat where
  | pretty
  | compact
  | json
  deriving DecidableEq, Repr, Inhabited

namespace LogFormat

def word : LogFormat → String
  | .pretty => "pretty"
  | .compact => "compact"
  | .json => "json"

def all : List LogFormat := [.pretty, .compact, .json]

def ofWord? (word : String) : Option LogFormat := all.find? (·.word = word)

end LogFormat

inductive LogOutput where
  | stdout
  | stderr
  | file
  deriving DecidableEq, Repr, Inhabited

namespace LogOutput

def word : LogOutput → String
  | .stdout => "stdout"
  | .stderr => "stderr"
  | .file => "file"

def all : List LogOutput := [.stdout, .stderr, .file]

def ofWord? (word : String) : Option LogOutput := all.find? (·.word = word)

end LogOutput

structure MetadataSettings where
  baseDir : String
  fileName : Option String
  deriving DecidableEq, Repr, Inhabited

structure LoggingSettings where
  level : String
  format : LogFormat
  output : LogOutput
  -- For output to a file.
  directory : Option String
  filter : Option String
  deriving DecidableEq, Repr, Inhabited

structure Settings where
  metadata : MetadataSettings
  logging : LoggingSettings
  initialCapacity : Nat
  wakeCoalescing : Bool
  inspectorEnabled : Bool
  deriving DecidableEq, Repr, Inhabited

inductive LogLevel where
  | error
  | warn
  | info
  | debug
  | trace
  deriving DecidableEq, Repr, Inhabited

namespace LogLevel

def name : LogLevel → String
  | .error => "ERROR"
  | .warn => "WARN"
  | .info => "INFO"
  | .debug => "DEBUG"
  | .trace => "TRACE"

def all : List LogLevel := [.error, .warn, .info, .debug, .trace]

-- A number from one to five, with any zeros and one plus sign in front.
private def ofNumber? (text : String) : Option LogLevel :=
  let digits := match text.toList with
    | '+' :: rest => rest
    | cs => cs
  if digits.isEmpty || !digits.all Char.isDigit then none
  else match digits.dropWhile (· = '0') with
    | ['1'] => some .error
    | ['2'] => some .warn
    | ['3'] => some .info
    | ['4'] => some .debug
    | ['5'] => some .trace
    | _ => none

-- By number, or by name in upper or lower case.
def ofText? (text : String) : Option LogLevel :=
  (ofNumber? text).orElse fun _ => all.find? (·.name = text.map Char.toUpper)

end LogLevel

inductive LogTarget where
  | stdout
  | stderr
  | file (directory filePrefix : String)
  deriving DecidableEq, Repr

structure LogPlan where
  level : LogLevel
  format : LogFormat
  target : LogTarget
  spanEvents : Bool
  filter : Option String
  deriving DecidableEq, Repr

namespace LoggingSettings

-- A level that is none counts as `info`.
def plan (s : LoggingSettings) : LogPlan :=
  { level := (LogLevel.ofText? s.level).getD .info
    format := s.format
    target := match s.output with
      | .stdout => .stdout
      | .stderr => .stderr
      | .file => .file (s.directory.getD "logs") "metabridge"
    spanEvents := false
    filter := s.filter }

end LoggingSettings

namespace Settings

def fileName : String := ".metabridge.toml"

def defaultBaseDir : String := "."

-- The metadata file of the machine's own architecture.
def defaultFileName : String := "metadata-x86_64.bin"

def standard : Settings :=
  { metadata := ⟨defaultBaseDir, none⟩
    logging := ⟨"info", .pretty, .stderr, none, none⟩
    initialCapacity := 256
    wakeCoalescing := true
    inspectorEnabled := false }

-- The path of a metadata file in place of the settings' own. A path without file name changes the
-- directory alone.
def withMetadata (s : Settings) (path : String) : Settings :=
  if path.isEmpty then s
  else
    let directory := (Path.parent? path).filter (!·.isEmpty)
    { s with metadata :=
        ⟨directory.getD defaultBaseDir, (Path.fileName? path).orElse fun _ => s.metadata.fileName⟩ }

def withLevel (s : Settings) (level : String) : Settings :=
  if level.isEmpty then s else { s with logging := { s.logging with level := level } }

-- What is absent or empty overrides nothing.
def withOverrides (s : Settings) (metadata level : Option String) : Settings :=
  let s := metadata.elim s s.withMetadata
  level.elim s s.withLevel

def metadataPath (s : Settings) : String :=
  Path.join s.metadata.baseDir (s.metadata.fileName.getD defaultFileName)

end Settings

end ObjectBridge
