import LineScript.Document.Survey
import LineScript.Tree.Basic

/-!
# The scripts of a directory tree

A directory of a tree is a file system: a name is the path from that directory. Infinitely many
names lead to the same few files, so the file system lists those that can be asked for: the names
of the directory itself, which is all that an `include` of the expander reaches, and the paths that
the scripts of the tree write out, which is all that a survey reaches.
-/

namespace LineScript

/-- The paths that the `include` expressions of a file write out. -/
def writtenTargets (o : Options) (contents : Bytes) : List Text :=
  (readAll (Stream.ofBytes contents none)).1.filterMap fun e =>
    if e.name = includeWord then surveyTarget o e.body else none

namespace Tree

/-- The names that scripts may ask for in a directory. -/
def askable (t : Tree) (o : Options) (directory : Text) : List Text :=
  let own := match t.follow directory with
    | .ok (place, _) => t.namesIn place
    | .error _ => []
  let written := t.entries.flatMap fun
    | (_, .file contents) => writtenTargets o contents
    | (_, .directory) => []
  [] :: ['.'] :: ['.', '.'] :: own ++ written

/-- A directory of the tree as a file system for the given scripts. -/
def fileSystem (t : Tree) (o : Options) (directory : Text) (scripts : List Text) : FileSystem :=
  { files := (scripts ++ t.askable o directory).map fun name =>
      (name, t.access (Path.join directory name)),
    missing := .noEntry }

/-- The scripts below a directory in the order of their names: the files with the extension, or all
    files without one. -/
def scripts (t : Tree) (directory : Text) (extension : Option Text) :
    Except AccessError (List Text) :=
  match t.follow directory with
  | .error error => .error error
  | .ok (place, _) =>
      .ok (((t.filesUnder place).filter (extension.getD []).isSuffixOf).mergeSort Text.le)

end Tree

end LineScript
