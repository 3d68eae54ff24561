import LineScript.Command.Line
import LineScript.Command.Report
import LineScript.Expansion.Diagnostic
import LineScript.Tree.Scripts

/-!
# Running commands

A command reads a directory tree, writes output, and ends with a verdict or a failure. Output that
was written before a failure stays.

* `Invocation.run` runs one command on a tree.
* `Report.exitCode` and `Report.complaint` are what a program shows of its end.
-/

namespace LineScript

/-- Whether a command found something wrong with what it looked at. -/
inductive Verdict where
  | clean
  | problems
deriving DecidableEq, Repr, Inhabited

/-- Why a command could not be carried out: the expansion of a script stopped, a script cannot be
    read, or a directory cannot be walked. -/
inductive Failure where
  | stopped (error : ExpansionError)
  | unread (script : Text) (error : AccessError)
  | unwalked (directory : Text) (error : AccessError)
deriving DecidableEq, Repr, Inhabited

/-- The wording of a failure. -/
def Failure.message : Failure → String
  | .stopped error => error.message
  | .unread script error => s!"read {String.ofList script}: {error.message}"
  | .unwalked directory error =>
      s!"IO error for operation on {String.ofList directory}: {error.message}"

/-- What a command wrote and how it ended. -/
structure Report where
  output : Output := []
  result : Except Failure Verdict := .ok .clean

namespace Report

/-- The status of a program that ends so. -/
def exitCode (r : Report) : Nat :=
  match r.result with
  | .ok .clean => 0
  | _ => 1

/-- What a program says about a failure: the code of an expansion error, its wording and the advice
    on it, or the wording alone. -/
def complaint (r : Report) : String :=
  match r.result with
  | .ok _ => ""
  | .error (.stopped error) =>
      let advice := match error.cause.help with
        | some help => s!"help: {help}\n"
        | none => ""
      s!"{error.cause.code}\n\n{error.message}\n{advice}"
  | .error failure => s!"Error: {failure.message}\n"

end Report

namespace Invocation

/-- The directory as a file system for one script. -/
def fileSystem (i : Invocation) (t : Tree) : FileSystem :=
  t.fileSystem i.options i.directory [i.operand]

/-- Expands the script and prints every result. -/
def runPrinting (i : Invocation) (t : Tree) (print : Expanded → Output) : Report :=
  let (es, error) := expandScript (i.fileSystem t) i.options i.operand
  { output := es.flatMap print,
    result := match error with
      | none => .ok .clean
      | some error => .error (.stopped error) }

/-- Expands all scripts of a directory, which is shown in front of their names unless there is
    another root. -/
def runCheck (i : Invocation) (t : Tree) : Report :=
  let directory := Path.join i.directory i.operand
  let options :=
    if i.options.root = [] then { i.options with root := directory } else i.options
  match t.scripts directory options.extension with
  | .error error => { result := .error (.unwalked directory error) }
  | .ok scripts =>
      let fs := t.fileSystem options directory scripts
      let results := scripts.map fun script => (script, countCommands fs options script)
      let passed := results.countP (·.2.isOk)
      let failed := results.length - passed
      { output := results.flatMap (fun (script, r) => checkLines script r) ++
          summaryLine passed failed,
        result := .ok (if failed = 0 then .clean else .problems) }

/-- Analyses the script and reports on it. -/
def runAnalysis (i : Invocation) (t : Tree) (report : Document → Report) : Report :=
  let fs := i.fileSystem t
  match fs.readText i.operand with
  | .error error => { result := .error (.unread i.operand error) }
  | .ok text => report (Document.ofText fs i.options i.operand text)

/-- Prints the likely mistakes of a document. -/
def lintReport (i : Invocation) (doc : Document) : Report :=
  { output := doc.issues.flatMap (Issue.printed (i.options.displayPath i.operand)),
    result := .ok (if doc.issues = [] then .clean else .problems) }

/-- Runs a command on a tree. -/
def run (i : Invocation) (t : Tree) : Report :=
  match i.verb with
  | .expand => i.runPrinting t (Expanded.printed i.json)
  | .trace => i.runPrinting t fun e => if e.isBlankLine then [] else e.traced
  | .check => i.runCheck t
  | .lint => i.runAnalysis t i.lintReport
  | .templates => i.runAnalysis t fun doc => { output := doc.definitions.flatMap (·.printed) }

end Invocation

end LineScript
