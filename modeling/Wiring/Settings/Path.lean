/-!
# Paths of files

A path is a text with segments between slashes.  Empty segments and single dots
mean nothing, except in front; two dots mean the directory above.
-/

namespace Wiring
namespace Path

/-- Most bytes that a path may have for its file to be opened. -/
def maxBytes : Nat := 4095

/-- The segments of a path: what stands between slashes. -/
def split : List Char → List (List Char)
  | [] => [[]]
  | c :: cs =>
      if c = '/' then [] :: split cs
      else
        match split cs with
        | [] => [[c]]
        | s :: ss => (c :: s) :: ss

/-- The path with given segments. -/
def join (segments : List (List Char)) : List Char :=
  ['/'].intercalate segments

/-- Whether a segment means nothing behind another one. -/
def isIdle (segment : List Char) : Bool :=
  segment = [] || segment = ['.']

/-- Segments without idle ones at the end. -/
def dropIdle (segments : List (List Char)) : List (List Char) :=
  (segments.reverse.dropWhile isIdle).reverse

/-- The segments of a path without idle ones at the end.  A dot in front stays, and
the root has no segments. -/
def trimEnd : List (List Char) → List (List Char)
  | [] => []
  | first :: rest =>
      match dropIdle rest with
      | [] => if first = [] then [] else [first]
      | rest => first :: rest

/-- Whether a path starts at the root. -/
def isAbsolute (path : String) : Bool :=
  path.toList.head? = some '/'

/-- Whether a file name has an extension: a dot that is not its first
character. -/
def hasExtension (name : List Char) : Bool :=
  name.tail.contains '.'

/-- A path with the extension for settings, if its last segment is a file name
without an extension. -/
def withExtension (path : String) : String :=
  let segments := trimEnd (split path.toList)
  match segments.getLast? with
  | none => path
  | some name =>
      if name = ['.'] || name = ['.', '.'] || hasExtension name then path
      else String.ofList (join segments ++ ".json".toList)

/-- The directory that a path is in. -/
def parent? (path : String) : Option String :=
  match trimEnd (split path.toList) with
  | [] => none
  | segments =>
      match trimEnd segments.dropLast with
      | [] => some (if isAbsolute path then "/" else "")
      | above => some (String.ofList (join above))

/-- A path as seen from a directory. -/
def relativeTo (directory path : String) : String :=
  if isAbsolute path then path
  else if directory = "" || directory.toList.getLast? = some '/' then directory ++ path
  else directory ++ "/" ++ path

end Path
end Wiring
