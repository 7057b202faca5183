import ObjectBridge.CommandLine.Program

namespace ObjectBridge

private def FileFault.ofError : IO.Error → FileFault
  | .noFileOrDirectory .. | .noSuchThing .. => .notFound
  | .permissionDenied .. => .denied
  | .alreadyExists .. => .exists
  | .inappropriateType _ 20 _ => .notDirectory
  | .inappropriateType _ 21 _ => .isDirectory
  | error => .other (toString error)

private def attempt (action : IO α) : IO (Except FileFault α) := do
  return (← action.toBaseIO).mapError FileFault.ofError

def FileSystem.machine : FileSystem IO where
  workingDirectory := do return (← IO.currentDir).toString
  read := fun path => attempt do return (← IO.FS.readBinFile path).data
  write := fun path bytes => attempt (IO.FS.writeBinFile path ⟨bytes⟩)
  createDirectory := fun path => attempt (IO.FS.createDirAll path)

end ObjectBridge

open ObjectBridge.CommandLine in
def main (words : List String) : IO UInt32 := do
  let environment : Environment :=
    ⟨← IO.getEnv Environment.metadataVariable, ← IO.getEnv Environment.logLevelVariable⟩
  let report ← run ObjectBridge.FileSystem.machine environment words
  for line in report.diagnostics do
    IO.eprintln line
  IO.print report.output
  return report.exitCode.toUInt32
