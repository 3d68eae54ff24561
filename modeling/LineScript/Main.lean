import LineScript.Command.Program

/-!
# Entry point

Takes a picture of the current directory, runs the program on it and shows how it ended.
-/

namespace LineScript

/-- All nodes at or below an entry of a directory, by their paths. -/
partial def nodesAt (directory : Text) (entry : IO.FS.DirEntry) : IO (List (Text × Node)) := do
  let path := Path.join directory entry.fileName.toList
  if ← entry.path.isDir then
    let below ← (← entry.path.readDir).toList.mapM (nodesAt path)
    return (path, .directory) :: below.flatten
  else
    let contents ← IO.FS.readBinFile entry.path
    return [(path, .file contents.toList)]

/-- The current directory as a tree. -/
def currentTree : IO Tree := do
  let entries ← (← IO.currentDir).readDir
  return .ofList (← entries.toList.mapM (nodesAt [])).flatten

end LineScript

/-- Runs the program on the current directory. -/
def main (args : List String) : IO UInt32 := do
  let tree ← LineScript.currentTree
  let ending := LineScript.runProgram false (args.map String.toList) tree
  (← IO.getStdout).putStr (String.ofList ending.output)
  (← IO.getStderr).putStr ending.complaint
  return ending.exitCode.toUInt32
