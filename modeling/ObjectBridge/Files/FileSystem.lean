import ObjectBridge.FileFault
import ObjectBridge.Text.Utf8

namespace ObjectBridge

structure FileSystem (m : Type → Type) where
  workingDirectory : m String
  read : String → m (Except FileFault (Array UInt8))
  -- Replaces a file or makes a new one, but no directory for it.
  write : String → Array UInt8 → m (Except FileFault Unit)
  -- Makes a directory, and every directory on the way to it, that is not there.
  createDirectory : String → m (Except FileFault Unit)

namespace FileSystem

variable {m : Type → Type} [Monad m]

def readText (files : FileSystem m) (path : String) : m (Except FileFault String) := do
  match ← files.read path with
  | .error fault => return .error fault
  | .ok bytes => return (Text.decodeUtf8 bytes).mapError fun _ => .notText

end FileSystem

end ObjectBridge
