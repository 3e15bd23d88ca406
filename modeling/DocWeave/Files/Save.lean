/-
Saving text: it is written to a temporary file, which is then moved into place, so
that no reader ever finds half of it.
-/
import DocWeave.Files.Access
import DocWeave.Gzip.Member

namespace DocWeave.Files

/-- What compresses the contents of files.  It may fail, and tells why. -/
class Compressor where
  compress : Bytes → Except String Bytes

/-- The compressor of the command, which looks for no repetitions. -/
instance : Compressor where
  compress content := .ok (Gzip.compress content)

inductive SaveError where
  | compress (cause : String)
  | write (temporary : String) (cause : DiskError)
  | move (temporary : String) (cause : DiskError)
deriving Repr, DecidableEq

def SaveError.chain : SaveError → List String
  | compress cause => ["Failed to compress output", cause]
  | write temporary cause => ["Failed to write " ++ temporary, cause.message]
  | move temporary cause => ["Failed to move " ++ temporary ++ " into place", cause.message]

/-- The bytes that a text is saved as under a path: compressed if the path tells
so. -/
def savedBytes [Compressor] (path text : String) : Except String Bytes :=
  if isCompressed path.toList then Compressor.compress (Utf8.encode text)
  else .ok (Utf8.encode text)

/-- Saves a text under a path.  If writing or moving fails, the temporary file is taken
away. -/
def save {m : Type → Type} [Monad m] [FileAccess m] [Compressor] (path text : String) :
    m (Except SaveError Unit) := do
  match savedBytes path text with
  | .error cause => return .error (.compress cause)
  | .ok bytes =>
      let temp := temporary path
      match ← FileAccess.write temp bytes with
      | .error e =>
          let _ ← FileAccess.remove (m := m) temp
          return .error (.write temp e)
      | .ok () =>
          match ← FileAccess.rename temp path with
          | .error e =>
              let _ ← FileAccess.remove (m := m) temp
              return .error (.move temp e)
          | .ok () => return .ok ()

end DocWeave.Files
