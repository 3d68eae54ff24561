import LineScript.Document.Definition
import LineScript.Expansion.Options
import LineScript.Script.Reader
import LineScript.Source.FileSystem

/-!
# Surveying a document and the files it includes

A survey walks a document and every file it includes, each file once, and keeps the first
definition of every name. Files that cannot be read are passed over, and a file is read up to its
first malformed line.

Files nest as deep as there are names to visit and no deeper, because a file that has been seen
is not visited again. `visitFile` recurses on that room: when none is left, every listed file
has been seen, and there is nothing more to visit.
-/

namespace LineScript

/-- What has been found so far: the files visited, the latest first, and the definitions in the
    order they were found, each name once. -/
structure Survey where
  seen : List Text := []
  definitions : List Definition := []
deriving DecidableEq, Repr, Inhabited

namespace Survey

/-- The definition of a name. -/
def definition? (s : Survey) (name : Text) : Option Definition :=
  s.definitions.find? (·.name = name)

/-- Keeps a definition unless its name has one. -/
def keep (s : Survey) (d : Definition) : Survey :=
  if (s.definition? d.name).isSome then s else { s with definitions := s.definitions ++ [d] }

end Survey

/-- The file that an `include` with this body names to a survey: the first line of the body and
    the extension. -/
def surveyTarget (o : Options) (body : Text) : Option Text :=
  match Text.trim (Text.cutLine body).1 with
  | [] => none
  | path => some (path ++ o.suffix)

/-- Takes an expression of a file into account; `visit` walks the files it includes. -/
def surveyExpression (fs : FileSystem) (o : Options) (visit : Text → Text → Survey → Survey)
    (file : Text) (s : Survey) (e : Expression) : Survey :=
  if e.name = defineWord then
    match Definition.ofExpression? file e with
    | some d => s.keep d
    | none => s
  else if e.name = includeWord then
    match surveyTarget o e.body with
    | none => s
    | some target =>
        match fs.readText target with
        | .ok text => visit target text s
        | .error _ => s
  else s

/-- Walks a file that has not been seen, with room for that many files inside each other. -/
def visitFile (fs : FileSystem) (o : Options) : Nat → Text → Text → Survey → Survey
  | 0, _, _, s => s
  | room + 1, file, text, s =>
      if s.seen.contains file then s
      else
        (readAll (Stream.ofText text)).1.foldl (surveyExpression fs o (visitFile fs o room) file)
          { s with seen := file :: s.seen }

/-- Surveys a document. -/
def survey (fs : FileSystem) (o : Options) (name text : Text) : Survey :=
  visitFile fs o (fs.names.length + 1) name text {}

end LineScript
