/-
Paths of files, as text: the name that a path ends in, the format that the name
stands for, and the name of the temporary file next to it.
-/
import DocWeave.Format
import DocWeave.Text.Basic

namespace DocWeave.Files

/-- What stands between the slashes of a path. -/
def pieces : List Char → List (List Char)
  | [] => [[]]
  | c :: rest => if c = '/' then [] :: pieces rest else consLine c (pieces rest)

def join (parts : List (List Char)) : List Char :=
  ['/'].intercalate parts

/-- A piece that stays where it is. -/
def isIdle (piece : List Char) : Bool :=
  piece.isEmpty || piece == ['.']

def upward : List Char := ['.', '.']

/-- The name that a path ends in.  Idle pieces do not count, and a path that ends on
the way up has none. -/
def fileName? (path : List Char) : Option (List Char) :=
  (((pieces path).filter fun piece => !isIdle piece).getLast?).filter (· ≠ upward)

/-- What follows the last dot of a name, unless nothing stands before that dot. -/
def extension? (name : List Char) : Option (List Char) :=
  let after := (name.reverse.takeWhile (· ≠ '.')).reverse
  if after.length + 1 < name.length then some after else none

def compressedEnding : List Char := ".gz".toList

def isCompressed (path : List Char) : Bool :=
  compressedEnding.isSuffixOf path

def withoutCompression (path : List Char) : List Char :=
  if isCompressed path then path.take (path.length - compressedEnding.length) else path

def formatOf? (path : String) : Option Format :=
  ((fileName? (withoutCompression path.toList)).bind extension?).bind fun extension =>
    Format.ofTag? (String.ofList extension)

/-- Takes a format with a colon off the front of an argument.  What is no format
belongs to the path. -/
def splitFormat (argument : String) : Option Format × String :=
  let text := argument.toList
  match text.dropWhile (· ≠ ':') with
  | _ :: rest =>
      match Format.ofTag? (String.ofList (text.takeWhile (· ≠ ':'))) with
      | some format => (some format, String.ofList rest)
      | none => (none, argument)
  | [] => (none, argument)

/-- Drops idle pieces at the end, but not the first piece, which is where the path
starts. -/
def dropIdle : List (List Char) → List (List Char)
  | [] => []
  | first :: rest => first :: (rest.reverse.dropWhile isIdle).reverse

def parent (path : List Char) : List (List Char) :=
  dropIdle (dropIdle (pieces path)).dropLast

def temporaryEnding : List Char := ".tmp".toList

/-- The path of the temporary file for a path: next to it, under its name with one
more ending. -/
def temporary (path : String) : String :=
  let text := path.toList
  String.ofList (match fileName? text with
    | some name => join (parent text ++ [name ++ temporaryEnding])
    | none =>
        if text.isEmpty || text.getLast? = some '/' then text ++ temporaryEnding
        else text ++ '/' :: temporaryEnding)

end DocWeave.Files
