import ObjectBridge.Config.Settings
import ObjectBridge.Toml.Reader
import ObjectBridge.Toml.Writer

namespace ObjectBridge

private def nullable (decode : Toml → Option α) : Option Toml → Option (Option α)
  | none => some none
  | some value => (decode value).map some

def MetadataSettings.ofToml? (t : Toml) : Option MetadataSettings := do
  let [baseDir, fileName] ← t.fields? ["base_dir", "file_name"] | none
  return {
    baseDir := ← Toml.orElse Settings.standard.metadata.baseDir Toml.toText? baseDir
    fileName := ← nullable Toml.toText? fileName }

def LoggingSettings.ofToml? (t : Toml) : Option LoggingSettings := do
  let [level, format, output, directory, filter] ←
    t.fields? ["level", "format", "output", "directory", "filter"] | none
  let standard := Settings.standard.logging
  return {
    level := ← Toml.orElse standard.level Toml.toText? level
    format := ← Toml.orElse standard.format (·.toWord?.bind LogFormat.ofWord?) format
    output := ← Toml.orElse standard.output (·.toWord?.bind LogOutput.ofWord?) output
    directory := ← nullable Toml.toText? directory
    filter := ← nullable Toml.toText? filter }

private def single (name : String) (default : α) (decode : Toml → Option α) (t : Toml) :
    Option α := do
  let [field] ← t.fields? [name] | none
  Toml.orElse default decode field

namespace Settings

def ofToml? (t : Toml) : Option Settings := do
  let [metadata, logging, registry, queue, inspector] ←
    t.fields? ["metadata", "logging", "registry", "queue", "inspector"] | none
  return {
    metadata := ← Toml.orElse standard.metadata MetadataSettings.ofToml? metadata
    logging := ← Toml.orElse standard.logging LoggingSettings.ofToml? logging
    initialCapacity := ← Toml.orElse standard.initialCapacity
      (single "initial_capacity" standard.initialCapacity Toml.toNat?) registry
    wakeCoalescing := ← Toml.orElse standard.wakeCoalescing
      (single "wake_coalescing" standard.wakeCoalescing Toml.toBool?) queue
    inspectorEnabled := ← Toml.orElse standard.inspectorEnabled
      (single "enabled" standard.inspectorEnabled Toml.toBool?) inspector }

def parse? (text : String) : Option Settings := (Toml.parse? text).bind ofToml?

private def stored (title : String) (fields : List (String × Option String)) : String :=
  let lines := fields.filterMap fun (name, value) => value.map fun v => name ++ " = " ++ v ++ "\n"
  "[" ++ title ++ "]\n" ++ String.join lines

-- What is not set is left out.
def text (s : Settings) : String :=
  let string (t : String) : Option String := some (Toml.stringText t)
  let flag (b : Bool) : Option String := some (if b then "true" else "false")
  "\n".intercalate [
    stored "metadata" [("base_dir", string s.metadata.baseDir),
      ("file_name", s.metadata.fileName.map Toml.stringText)],
    stored "logging" [("level", string s.logging.level), ("format", string s.logging.format.word),
      ("output", string s.logging.output.word),
      ("directory", s.logging.directory.map Toml.stringText),
      ("filter", s.logging.filter.map Toml.stringText)],
    stored "registry" [("initial_capacity", some (toString s.initialCapacity))],
    stored "queue" [("wake_coalescing", flag s.wakeCoalescing)],
    stored "inspector" [("enabled", flag s.inspectorEnabled)]]

end Settings

end ObjectBridge
