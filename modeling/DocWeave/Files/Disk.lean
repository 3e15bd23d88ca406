/-
A disk as far as a program can see it: files and directories under their places, and
what reading, writing and moving by path answers.
-/
import DocWeave.Files.Name
import DocWeave.Text.Remainder

namespace DocWeave.Files

abbrev Bytes := List UInt8

inductive DiskError where
  | notFound
  | busy
  | notDirectory
  | isDirectory
  | nameTooLong
  | invalidName
  /-- A failure that lies outside of the disk as it is described here. -/
  | other (message : String)
deriving Repr, DecidableEq

def DiskError.message : DiskError → String
  | notFound => "No such file or directory (os error 2)"
  | busy => "Device or resource busy (os error 16)"
  | notDirectory => "Not a directory (os error 20)"
  | isDirectory => "Is a directory (os error 21)"
  | nameTooLong => "File name too long (os error 36)"
  | invalidName => "file name contained an unexpected NUL byte"
  | other message => message

/-- The names that lead to a place from the working directory, or from the root if
the first is a slash. -/
abbrev Location := List String

namespace Location

def root : Location := ["/"]

/-- The working directory and all directories above it. -/
def isAbove (place : Location) : Bool :=
  place.all (· = "..") || place = root

def up (place : Location) : Location :=
  if place = root then root
  else if place.all (· = "..") then ".." :: place
  else place.dropLast

def step (place : Location) (piece : List Char) : Location :=
  if isIdle piece then place
  else if piece = upward then place.up
  else place ++ [String.ofList piece]

end Location

inductive Node where
  | file (bytes : Bytes)
  | directory
deriving Repr, DecidableEq

structure Disk where
  nodes : List (Location × Node)
deriving Repr, DecidableEq

namespace Disk

def empty : Disk := ⟨[]⟩

/-- What is at a place.  The directories above are always there. -/
def node? (disk : Disk) (place : Location) : Option Node :=
  if place.isAbove then some .directory else disk.nodes.lookup place

def put (disk : Disk) (place : Location) (node : Node) : Disk :=
  ⟨(place, node) :: disk.nodes.filter fun entry => entry.1 ≠ place⟩

def erase (disk : Disk) (place : Location) : Disk :=
  ⟨disk.nodes.filter fun entry => entry.1 ≠ place⟩

theorem lookup_filter_ne {place other : Location} (h : other ≠ place)
    (nodes : List (Location × Node)) :
    (nodes.filter fun entry => entry.1 ≠ place).lookup other = nodes.lookup other := by
  induction nodes with
  | nil => rfl
  | cons entry rest ih =>
      obtain ⟨key, node⟩ := entry
      by_cases hkey : key = place
      · have hother : (other == place) = false := by simp [h]
        simpa [List.filter_cons, hkey, List.lookup_cons, hother] using ih
      · by_cases hsame : other = key
        · simp [hkey, hsame]
        · have hother : (other == key) = false := by simp [hsame]
          simpa [List.filter_cons, hkey, List.lookup_cons, hother] using ih

theorem lookup_filter_self (place : Location) (nodes : List (Location × Node)) :
    (nodes.filter fun entry => entry.1 ≠ place).lookup place = none := by
  induction nodes with
  | nil => rfl
  | cons entry rest ih =>
      obtain ⟨key, node⟩ := entry
      by_cases hkey : key = place
      · simpa [List.filter_cons, hkey] using ih
      · have hother : (place == key) = false := by simp [Ne.symm hkey]
        simpa [List.filter_cons, hkey, List.lookup_cons, hother] using ih

/-- What was put at a place is there. -/
theorem node?_put_self {place : Location} (h : place.isAbove = false) (disk : Disk)
    (node : Node) : (disk.put place node).node? place = some node := by
  simp [node?, put, h]

/-- All other places stay as they are. -/
theorem node?_put_of_ne {place other : Location} (h : other ≠ place) (disk : Disk)
    (node : Node) : (disk.put place node).node? other = disk.node? other := by
  have hother : (other == place) = false := by simp [h]
  simp only [node?, put, List.lookup_cons, hother, lookup_filter_ne h]

/-- What was taken away is gone. -/
theorem node?_erase_self {place : Location} (h : place.isAbove = false) (disk : Disk) :
    (disk.erase place).node? place = none := by
  simp only [node?, erase, h, Bool.false_eq_true, ↓reduceIte, lookup_filter_self]

/-- All other places stay as they are. -/
theorem node?_erase_of_ne {place other : Location} (h : other ≠ place) (disk : Disk) :
    (disk.erase place).node? other = disk.node? other := by
  simp only [node?, erase, lookup_filter_ne h]

/-- A place can be entered if a directory is there. -/
def enter (disk : Disk) (place : Location) : Except DiskError Unit :=
  match disk.node? place with
  | some .directory => .ok ()
  | some (.file _) => .error .notDirectory
  | none => .error .notFound

def nameLimit : Nat := 255

def pathLimit : Nat := 4095

/-- Follows the pieces of a path.  Every piece is looked up in a directory; the last
one need not be there. -/
def walk (disk : Disk) (place : Location) : List (List Char) → Except DiskError Location
  | [] => .ok place
  | piece :: rest => do
      disk.enter place
      if nameLimit < utf8Length piece then throw .nameTooLong
      disk.walk (place.step piece) rest

def startOf (path : List Char) : Location :=
  if path.head? = some '/' then Location.root else []

def locate (disk : Disk) (path : String) : Except DiskError Location :=
  let text := path.toList
  if text.contains '\x00' then .error .invalidName
  else if text.isEmpty then .error .notFound
  else if pathLimit < utf8Length text then .error .nameTooLong
  else disk.walk (startOf text) (pieces text)

def read (disk : Disk) (path : String) : Except DiskError Bytes := do
  match disk.node? (← disk.locate path) with
  | some (.file bytes) => return bytes
  | some .directory => throw .isDirectory
  | none => throw .notFound

/-- Writes a file, which need not be there before. -/
def write (disk : Disk) (path : String) (bytes : Bytes) : Except DiskError Disk := do
  let place ← disk.locate path
  match disk.node? place with
  | some .directory => throw .isDirectory
  | _ => return disk.put place (.file bytes)

def remove (disk : Disk) (path : String) : Except DiskError Disk := do
  let place ← disk.locate path
  match disk.node? place with
  | some (.file _) => return disk.erase place
  | some .directory => throw .isDirectory
  | none => throw .notFound

/-- Checks that a path can be the new name of a file: it has to end in a name, and
nothing may follow that name. -/
def checkTarget (disk : Disk) (path : String) : Except DiskError Unit := do
  let text := path.toList
  let named := (pieces text).reverse.dropWhile List.isEmpty
  match named with
  | [] => if text.isEmpty then throw .notFound else throw .busy
  | last :: before =>
      if isIdle last ∨ last = upward then
        let _ ← disk.walk (startOf text) before.reverse
        throw .busy
      else if text.getLast? = some '/' then throw .notDirectory

/-- Moves a file to another path and replaces a file there. -/
def rename (disk : Disk) (source target : String) : Except DiskError Disk := do
  let old ← disk.locate source
  match disk.node? old with
  | some (.file bytes) =>
      disk.checkTarget target
      let new ← disk.locate target
      match disk.node? new with
      | some .directory => throw .isDirectory
      | _ => return (disk.erase old).put new (.file bytes)
  | some .directory => throw .isDirectory
  | none => throw .notFound

/-- Creates the directories that pieces of a path lead through. -/
def makeDirectories (disk : Disk) (place : Location) :
    List (List Char) → Except DiskError Disk
  | [] => .ok disk
  | piece :: rest =>
      let next := place.step piece
      match disk.node? next with
      | some .directory => disk.makeDirectories next rest
      | some (.file _) => .error .notDirectory
      | none => (disk.put next .directory).makeDirectories next rest

def makeDirectory (disk : Disk) (path : String) : Except DiskError Disk :=
  disk.makeDirectories (startOf path.toList) (pieces path.toList)

def place (disk : Disk) (path : String) (bytes : Bytes) : Except DiskError Disk := do
  let disk ← disk.makeDirectories (startOf path.toList) (parent path.toList)
  disk.write path bytes

/-- The paths of everything below the working directory, in order; those of
directories end in a slash. -/
def paths (disk : Disk) : List String :=
  let below := disk.nodes.filter fun entry =>
    entry.1.head? ≠ some ".." && entry.1.head? ≠ some "/"
  (below.map fun entry =>
    "/".intercalate entry.1 ++ (if entry.2 = .directory then "/" else "")).mergeSort
      fun a b => decide (a ≤ b)

end Disk

end DocWeave.Files
