import LineScript.Command.Run

/-!
# The program

A program takes the words of its command line and a directory tree, and ends with a status, an
output and a complaint. Nothing else about a run can be observed.
-/

namespace LineScript

/-- How to call the program. -/
def usageText : String :=
  "Usage: linebased [OPTIONS] <COMMAND>\n"

/-- What the program tells about itself. -/
def helpText : String :=
  "Expand, trace and check linebased scripts.\n\n" ++ usageText ++ "
Commands:
  expand     Print the fully expanded script
  trace      Print every expanded expression with its location and call chain
  check      Expand every script under --dir and report which ones fail
  lint       Report likely mistakes without expanding
  templates  List the templates a script defines or includes
  help       Print this message or the help of the given subcommand(s)

Options:
      --dir <DIR>    Directory that script names and includes resolve against [default: .]
      --root <ROOT>  Prefix shown in front of file names in messages [default: ]
      --ext <EXT>    Extension appended to include paths
      --no-ext       Use include paths exactly as written
  -v, --verbose      Log expansion steps to stderr
  -h, --help         Print help
  -V, --version      Print version
"

/-- The name of the program and its version. -/
def versionText : String := "linebased 0.1.0\n"

/-- Everything that can be seen of a run: its status, where 0 is success, what was written, and what
    was said about a failure. -/
structure Ending where
  exitCode : Nat
  output : Text
  complaint : String
deriving DecidableEq, Repr, Inhabited

namespace Ending

/-- The end of a run that comes to no command. -/
def ofRefusal (r : Refusal) : Ending :=
  match r with
  | .misuse => { exitCode := r.exitCode, output := [], complaint := usageText }
  | .help => { exitCode := r.exitCode, output := helpText.toList, complaint := "" }
  | .version => { exitCode := r.exitCode, output := versionText.toList, complaint := "" }

/-- The end of a run that carries out a command. -/
def ofReport (colored : Bool) (r : Report) : Ending :=
  { exitCode := r.exitCode, output := r.output.render colored, complaint := r.complaint }

end Ending

/-- Runs the program. -/
def runProgram (colored : Bool) (words : List Text) (t : Tree) : Ending :=
  match Invocation.ofWords words with
  | .error refusal => .ofRefusal refusal
  | .ok invocation => .ofReport colored (invocation.run t)

end LineScript
