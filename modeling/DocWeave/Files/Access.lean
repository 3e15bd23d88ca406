/-
The operations by which a program reaches its files, and a device on which they can
be followed: a disk, and the failures that lie in store for a program.
-/
import DocWeave.Files.Disk

namespace DocWeave.Files

class FileAccess (m : Type → Type) where
  /-- The contents of a file. -/
  read : String → m (Except DiskError Bytes)
  /-- Writes a file, which need not be there before. -/
  write : String → Bytes → m (Except DiskError Unit)
  /-- Moves a file to another path and replaces a file there. -/
  rename : String → String → m (Except DiskError Unit)
  /-- Takes a file away. -/
  remove : String → m (Except DiskError Unit)

/-- Failures in store that a disk itself does not tell. -/
structure Failures where
  /-- Writing fails, before it begins or after so many bytes. -/
  write : Option (DiskError × Option Nat) := none
  rename : Option DiskError := none
  remove : Option DiskError := none

structure Device where
  disk : Disk
  failures : Failures := {}

namespace Device

/-- The outcome of an operation that leaves another disk behind if it succeeds. -/
def settle (device : Device) (result : Except DiskError Disk) :
    Except DiskError Unit × Device :=
  match result with
  | .ok disk => (.ok (), { device with disk })
  | .error e => (.error e, device)

/-- Writes a file; a failure on the way leaves the beginning of it. -/
def write (device : Device) (path : String) (bytes : Bytes) :
    Except DiskError Unit × Device :=
  match device.failures.write with
  | none => device.settle (device.disk.write path bytes)
  | some (e, none) => (.error e, device)
  | some (e, some count) =>
      match device.disk.write path (bytes.take count) with
      | .ok disk => (.error e, { device with disk })
      | .error e' => (.error e', device)

def rename (device : Device) (source target : String) : Except DiskError Unit × Device :=
  match device.failures.rename with
  | none => device.settle (device.disk.rename source target)
  | some e => (.error e, device)

def remove (device : Device) (path : String) : Except DiskError Unit × Device :=
  match device.failures.remove with
  | none => device.settle (device.disk.remove path)
  | some e => (.error e, device)

instance : FileAccess (StateM Device) where
  read path := fun device => (device.disk.read path, device)
  write path bytes := fun device => device.write path bytes
  rename source target := fun device => device.rename source target
  remove path := fun device => device.remove path

end Device

end DocWeave.Files
