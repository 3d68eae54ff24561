import LineScript.Source.Line

/-!
# Directory trees

A tree holds files and directories by the steps that lead to them from its top. Every directory on
the way to an entry is there too. A path is followed step by step: `.` and an empty step stay, `..`
goes up and stays at the top, and each of them needs a directory to stand in. Joining puts two paths
side by side and simplifies nothing, because messages show paths as they were put together.

* `Tree.follow` finds the node a path leads to.
* `Tree.access` opens a file. A directory opens too and fails at the first read.
* `Tree.filesUnder` lists the files below a directory.
-/

namespace LineScript

/-- A path seen from a directory: one slash goes between them unless the directory ends in one,
    and a path that starts with a slash stands alone. -/
def Path.join (directory path : Text) : Text :=
  if path.head? = some '/' ∨ directory = [] then path
  else if directory.getLast? = some '/' then directory ++ path
  else directory ++ '/' :: path

namespace AccessError

/-- A path that leads nowhere. -/
def noEntry : AccessError := ⟨.notFound, "No such file or directory (os error 2)"⟩

/-- A path that goes on behind a file. -/
def fileOnTheWay : AccessError := ⟨.notADirectory, "Not a directory (os error 20)"⟩

/-- A directory that is read like a file. -/
def unreadableDirectory : AccessError := ⟨.isADirectory, "Is a directory (os error 21)"⟩

end AccessError

/-- What a path may lead to. -/
inductive Node where
  | file (contents : Bytes)
  | directory
deriving DecidableEq, Repr, Inhabited

/-- Files and directories by the steps from the top, one node for every place. -/
structure Tree where
  entries : List (List Text × Node) := []
deriving DecidableEq, Repr, Inhabited

namespace Tree

/-- Puts a node in its place, where it replaces what was there. -/
def insert (t : Tree) (place : List Text) (node : Node) : Tree :=
  ⟨t.entries.filter (·.1 ≠ place) ++ [(place, node)]⟩

/-- Whether a step stays where it is. -/
def stays (s : Text) : Bool := s = [] || s = ['.']

/-- The tree of a list of nodes by their paths. -/
def ofList (nodes : List (Text × Node)) : Tree :=
  nodes.foldl (fun t (path, node) => t.insert ((path.splitOn '/').filter (!stays ·)) node) {}

/-- What is in a place. The top and every place on the way to an entry are directories. -/
def node? (t : Tree) (place : List Text) : Option Node :=
  match t.entries.find? (·.1 = place) with
  | some (_, node) => some node
  | none =>
      if place = [] ∨ t.entries.any (place.isPrefixOf ·.1) then some .directory else none

/-- Follows steps from a place. -/
def followFrom (t : Tree) (place : List Text) : List Text → Except AccessError (List Text × Node)
  | [] =>
      match t.node? place with
      | some node => .ok (place, node)
      | none => .error .noEntry
  | s :: ss =>
      match t.node? place with
      | none => .error .noEntry
      | some (.file _) => .error .fileOnTheWay
      | some .directory =>
          if stays s then t.followFrom place ss
          else if s = ['.', '.'] then t.followFrom place.dropLast ss
          else t.followFrom (place ++ [s]) ss

/-- The place a path leads to from the top, and what is there. -/
def follow (t : Tree) (path : Text) : Except AccessError (List Text × Node) :=
  t.followFrom [] (path.splitOn '/')

/-- Opens what a path leads to. -/
def access (t : Tree) (path : Text) : Except AccessError Stream :=
  match t.follow path with
  | .ok (_, .file contents) => .ok (Stream.ofBytes contents none)
  | .ok (_, .directory) => .ok [.failure .unreadableDirectory]
  | .error error => .error error

/-- The files below a place, by the path from there; a file is below itself by the empty path. -/
def filesUnder (t : Tree) (place : List Text) : List Text :=
  t.entries.filterMap fun
    | (p, .file _) =>
        if place.isPrefixOf p then some (Text.join ['/'] (p.drop place.length)) else none
    | (_, .directory) => none

/-- The names in a directory. -/
def namesIn (t : Tree) (place : List Text) : List Text :=
  t.entries.filterMap fun (p, _) =>
    if place.isPrefixOf p then (p.drop place.length).head? else none

end Tree

end LineScript
