/-
The command itself: it reaches real files, prints what a run leaves behind and exits
with its code.
-/
import DocWeave.Command.Run

namespace DocWeave

open Files (Bytes DiskError FileAccess)

def Files.DiskError.ofSystem : IO.Error → DiskError
  | .noFileOrDirectory .. => .notFound
  | .inappropriateType _ 20 _ => .notDirectory
  | .inappropriateType _ 21 _ => .isDirectory
  | .resourceBusy 16 _ => .busy
  | e => .other (toString e)

def attempt {α : Type} (action : IO α) : IO (Except DiskError α) := do
  match ← action.toBaseIO with
  | .ok value => return .ok value
  | .error e => return .error (.ofSystem e)

def packed (bytes : Bytes) : ByteArray :=
  ⟨bytes.toArray⟩

instance : FileAccess IO where
  read path := attempt do return (← IO.FS.readBinFile path).data.toList
  write path bytes := attempt (IO.FS.writeBinFile path (packed bytes))
  rename source target := attempt (IO.FS.rename source target)
  remove path := attempt (IO.FS.removeFile path)

def readAllInput : IO Bytes := do
  return (← (← IO.getStdin).readBinToEnd).data.toList

end DocWeave

def main (arguments : List String) : IO UInt32 := do
  let home := (← IO.getEnv "HOME").getD "."
  let outcome ← DocWeave.Command.execute
    ⟨home, DocWeave.attempt DocWeave.readAllInput⟩ arguments
  IO.eprint outcome.messages
  IO.print outcome.output
  return outcome.code.toUInt32
