import LineScript.Expansion.Cause
import LineScript.Script.Arguments

/-!
# Settings of an expansion

How files are shown, and how they are found: an `include` names one file, without a directory and
without the extension, which is added.
-/

namespace LineScript

/-- What `include` appends to a path unless told otherwise. -/
def defaultExtension : Text := ".linebased".toList

/-- How files are shown and how `include` finds them: the root stands in front of every file
    name, and the extension is appended to the path of an `include`, where `none` takes paths as
    written. -/
structure Options where
  root : Text := []
  extension : Option Text := some defaultExtension
deriving DecidableEq, Repr, Inhabited

namespace Options

/-- The suffix that an `include` adds. -/
def suffix (o : Options) : Text := o.extension.getD []

/-- A file name as it is shown: behind the root and one slash, or alone without a root. -/
def displayPath (o : Options) (name : Text) : Text :=
  if o.root = [] then name else Text.dropFinal '/' o.root ++ ['/'] ++ name

end Options

/-- The file that an `include` with this body names. -/
def includeTarget (o : Options) (body : Text) : Except Cause Text :=
  let args := Arguments.ofBody none body
  match args.size with
  | 0 => .error .missingIncludePath
  | 1 =>
      let path := args.get 0
      if path.contains '/' then .error (.includeSeparator path)
      else if o.suffix ≠ [] && o.suffix.isSuffixOf path then
        .error (.includeExtension path o.suffix)
      else .ok (path ++ o.suffix)
  | count => .error (.includeArguments count)

end LineScript
