import Wiring.Settings
import Wiring.Settings.Path

/-!
# Settings that are based on other files

The file that settings are based on is looked for beside the file that names it.
Its name may leave out the extension.  What it sets counts where the settings on top
of it set nothing, and so on along the chain of files.

Files are told apart by their canonical paths, without dots and repeated slashes.
A chain that comes back to a file is an error.  A path that does not start at the root is
followed from the working directory.

What a text means is up to a reader, which is that of JSON for the settings of a build.
-/

namespace Wiring

/-- Text files under canonical paths, which are given by their segments. -/
structure FileTree where
  files : List (List (List Char) × String)
  /-- The working directory, from which relative paths are followed. -/
  directory : List (List Char) := []

namespace FileTree

/-- Take the steps of a path from a canonical path. -/
def walk (here : List (List Char)) (steps : List (List Char)) : List (List Char) :=
  steps.foldl (fun here s =>
    if Path.isIdle s then here
    else if s = ['.', '.'] then here.dropLast
    else here ++ [s]) here

/-- The files of one directory below the root, given by paths inside it.  Of several
texts for one file the last counts. -/
def ofFiles (directory : String) (files : List (String × String)) : FileTree :=
  { files := files.reverse.map (fun f =>
      (walk [directory.toList] (Path.split f.1.toList), f.2)) }

/-- Whether there is a directory at a canonical path: the working directory or one that it
is in, or a directory with files below it. -/
def isDirectory (T : FileTree) (here : List (List Char)) : Bool :=
  here.isPrefixOf T.directory || T.files.any (fun f => here.isPrefixOf f.1 && here ≠ f.1)

/-- Whether there is a file at a canonical path. -/
def isFile (T : FileTree) (here : List (List Char)) : Bool :=
  (T.files.lookup here).isSome

/-- Follow segments from a canonical path.  Only directories can be passed
through. -/
def follow (T : FileTree) :
    List (List Char) → List (List Char) → Option (List (List Char))
  | here, [] => some here
  | here, s :: rest =>
      if !T.isDirectory here then none
      else if Path.isIdle s then T.follow here rest
      else if s = ['.', '.'] then T.follow here.dropLast rest
      else T.follow (here ++ [s]) rest

/-- The canonical path that a path starts from. -/
def start (T : FileTree) (path : String) : List (List Char) :=
  if Path.isAbsolute path then [] else T.directory

/-- The segments of the canonical path of something that is there.  The empty path leads
nowhere. -/
def find? (T : FileTree) (path : String) : Option (List (List Char)) :=
  if path.isEmpty then none
  else
    match T.follow (T.start path) (Path.split path.toList) with
    | some here => if T.isFile here || T.isDirectory here then some here else none
    | none => none

/-- The canonical path of something that is there, or else the path itself. -/
def canonical (T : FileTree) (path : String) : String :=
  match T.find? path with
  | some here => String.ofList (Path.join ([] :: here))
  | none => path

/-- The text of the file at a path.  A path that is too long is not opened, although
it may have a canonical path. -/
def read? (T : FileTree) (path : String) : Option String :=
  if Path.maxBytes < path.utf8ByteSize then none
  else (T.find? path).bind (fun here => T.files.lookup here)

end FileTree

namespace Settings

/-- Read settings and what they are based on, past the files in `visited` and
through at most `steps` more. -/
def loadWithin (reader : String → Option Settings) (T : FileTree) :
    (steps : Nat) → (visited : List String) → (path : String) →
      Except SettingsError Settings
  | steps, visited, path =>
      let canonical := T.canonical path
      if canonical ∈ visited then .error (.cyclic canonical)
      else
        match T.read? path with
        | none => .error (.unreadable path)
        | some text =>
            match parseWith reader text with
            | .error _ => .error (.malformedFile path)
            | .ok s =>
                match s.base with
                | none => .ok s
                | some base =>
                    match Path.parent? path, steps with
                    | none, _ => .error .noParent
                    | some _, 0 => .error (.cyclic canonical)
                    | some directory, steps + 1 =>
                        (loadWithin reader T steps (canonical :: visited)
                          (Path.relativeTo directory (Path.withExtension base))).map
                            (fun b => s.basedOn b)

/-- Read settings and what they are based on, with a reader for the texts.  A chain that
is longer than there are files comes back to one. -/
def loadWith (reader : String → Option Settings) (T : FileTree) (path : String) :
    Except SettingsError Settings :=
  loadWithin reader T T.files.length [] path

/-- Read settings in JSON and what they are based on. -/
def load (T : FileTree) (path : String) : Except SettingsError Settings :=
  loadWith ofText? T path

end Settings
end Wiring
