import LineScript.Json.Number
import LineScript.Text.Quoted

/-!
# JSON documents

The fields of an object are kept in the order of their names, each name once. A value is written
without blanks. A pointer walks from the whole document to a part of it.
-/

namespace LineScript.Json

/-- A JSON document, or a part of one. -/
inductive Value where
  | null
  | bool (b : Bool)
  | number (n : Number)
  | string (t : Text)
  | array (items : List Value)
  | object (fields : List (Text × Value))
deriving Repr, Inhabited

/-- Sets a field among fields in the order of their names. -/
def setField (name : Text) (v : Value) : List (Text × Value) → List (Text × Value)
  | [] => [(name, v)]
  | (key, w) :: rest =>
      if key = name then (name, v) :: rest
      else if Text.le name key then (name, v) :: (key, w) :: rest
      else (key, w) :: setField name v rest

/-! ## Writing -/

mutual

/-- The text of a value. -/
def Value.write : Value → Text
  | .null => "null".toList
  | .bool b => (if b then "true" else "false").toList
  | .number n => n.write
  | .string t => jsonString t
  | .array items => ['['] ++ Text.join [','] (writeItems items) ++ [']']
  | .object fields => ['\x7b'] ++ Text.join [','] (writeFields fields) ++ ['\x7d']

/-- The texts of the items of an array. -/
def writeItems : List Value → List Text
  | [] => []
  | v :: vs => v.write :: writeItems vs

/-- The texts of the fields of an object. -/
def writeFields : List (Text × Value) → List Text
  | [] => []
  | (name, v) :: rest => (jsonString name ++ [':'] ++ v.write) :: writeFields rest

end

/-! ## Pointers -/

/-- A step of a pointer with its escapes undone: `~1` is a slash and `~0` a tilde. -/
def unescapeStep : Text → Text
  | '~' :: '1' :: t => '/' :: unescapeStep t
  | '~' :: '0' :: t => '~' :: unescapeStep t
  | c :: t => c :: unescapeStep t
  | [] => []

/-- The position that a step names in an array: decimal digits without leading zeros. -/
def arrayIndex? (step : Text) : Option Nat :=
  if step = [] ∨ !step.all Char.isDigit ∨ (step.head? = some '0' ∧ step.length ≠ 1) then none
  else some (digitsValue step)

/-- The part that one step leads to. -/
def Value.child? (step : Text) : Value → Option Value
  | .object fields => (fields.find? (·.1 = step)).map (·.2)
  | .array items => (arrayIndex? step).bind (items[·]?)
  | _ => none

/-- The part that a pointer leads to. The empty pointer leads to the whole; any other starts with
    a slash. -/
def Value.pointer? (v : Value) (pointer : Text) : Option Value :=
  match pointer with
  | [] => some v
  | '/' :: rest => (rest.splitOn '/').foldlM (fun v step => v.child? (unescapeStep step)) v
  | _ => none

end LineScript.Json
