import LineScript.Json.Value

/-!
# Reading JSON

The reader accepts the grammar of JSON and nothing else: no trailing commas, no comments, no
control characters in strings, no lone surrogates. Of two fields with one name the later counts.
Arrays and objects nest at most 127 deep; the recursion is on that depth.
-/

namespace LineScript.Json

/-- Why a document is refused. -/
inductive ReadError where
  | unfinished
  | unexpected (c : Char)
  | badEscape
  | badNumber
  | numberOutOfRange
  | tooDeep
  | trailing
deriving DecidableEq, Repr, Inhabited

/-- The wording of a refusal. -/
def ReadError.message : ReadError → String
  | .unfinished => "unexpected end of document"
  | .unexpected c => s!"unexpected character {c}"
  | .badEscape => "invalid escape"
  | .badNumber => "invalid number"
  | .numberOutOfRange => "number out of range"
  | .tooDeep => "document is nested too deeply"
  | .trailing => "trailing characters"

/-- Drops blanks. -/
def skipBlanks (t : Text) : Text :=
  t.dropWhile fun c => c = ' ' || c = '\n' || c = '\t' || c = '\r'

/-! ## Strings -/

/-- The value of a hexadecimal digit. -/
def hexDigit? (c : Char) : Option Nat :=
  if '0' ≤ c ∧ c ≤ '9' then some (c.toNat - 48)
  else if 'a' ≤ c ∧ c ≤ 'f' then some (c.toNat - 87)
  else if 'A' ≤ c ∧ c ≤ 'F' then some (c.toNat - 55)
  else none

/-- The value of four hexadecimal digits. -/
def hexQuad? (a b c d : Char) : Option Nat := do
  return (((← hexDigit? a) * 16 + (← hexDigit? b)) * 16 + (← hexDigit? c)) * 16 + (← hexDigit? d)

/-- The character of a one-letter escape. -/
def escaped? (c : Char) : Option Char :=
  match c with
  | '"' => some '"'
  | '\\' => some '\\'
  | '/' => some '/'
  | 'b' => some '\x08'
  | 'f' => some '\x0c'
  | 'n' => some '\n'
  | 'r' => some '\r'
  | 't' => some '\t'
  | _ => none

/-- Puts a character in front of a string read. -/
def prepend (n : Nat) : Except ReadError (Text × Text) → Except ReadError (Text × Text)
  | .ok (t, rest) => .ok (Char.ofNat n :: t, rest)
  | .error e => .error e

/-- Reads a string behind its opening quote. -/
def readString : Text → Except ReadError (Text × Text)
  | [] => .error .unfinished
  | '"' :: rest => .ok ([], rest)
  | '\\' :: 'u' :: a :: b :: c :: d :: rest =>
      match hexQuad? a b c d with
      | none => .error .badEscape
      | some n =>
          if 0xDC00 ≤ n ∧ n ≤ 0xDFFF then .error .badEscape
          else if 0xD800 ≤ n ∧ n ≤ 0xDBFF then
            match rest with
            | '\\' :: 'u' :: e :: f :: g :: h :: rest =>
                match hexQuad? e f g h with
                | none => .error .badEscape
                | some m =>
                    if 0xDC00 ≤ m ∧ m ≤ 0xDFFF then
                      prepend (0x10000 + (n - 0xD800) * 0x400 + (m - 0xDC00)) (readString rest)
                    else .error .badEscape
            | _ => .error .badEscape
          else prepend n (readString rest)
  | '\\' :: c :: rest =>
      match escaped? c with
      | some c => prepend c.toNat (readString rest)
      | none => .error .badEscape
  | c :: rest =>
      if c = '\\' then .error .unfinished
      else if c.toNat < 0x20 then .error (.unexpected c)
      else prepend c.toNat (readString rest)

/-! ## Numbers -/

/-- Digits at the start of a text, and what follows them. -/
def cutDigits (t : Text) : Text × Text := (t.takeWhile Char.isDigit, t.dropWhile Char.isDigit)

/-- Reads the digits behind a point. -/
def readFraction : Text → Except ReadError (Option Text × Text)
  | '.' :: t =>
      match cutDigits t with
      | ([], _) => .error .badNumber
      | (digits, rest) => .ok (some digits, rest)
  | t => .ok (none, t)

/-- Reads an exponent. -/
def readExponent : Text → Except ReadError (Option (Bool × Text) × Text)
  | c :: t =>
      if c = 'e' ∨ c = 'E' then
        let (below, t) := match t with
          | '+' :: t => (false, t)
          | '-' :: t => (true, t)
          | t => (false, t)
        match cutDigits t with
        | ([], _) => .error .badNumber
        | (digits, rest) => .ok (some (below, digits), rest)
      else .ok (none, c :: t)
  | [] => .ok (none, [])

/-- Reads a number behind its sign. -/
def readNumber (negative : Bool) (t : Text) : Except ReadError (Number × Text) := do
  let (whole, t) := cutDigits t
  if whole = [] ∨ (whole.head? = some '0' ∧ whole.length ≠ 1) then .error .badNumber
  else do
    let (fraction, t) ← readFraction t
    let (exponent, t) ← readExponent t
    match Written.value? { negative, whole, fraction, exponent } with
    | some n => .ok (n, t)
    | none => .error .numberOutOfRange

/-! ## Values -/

/-- Reads a word that stands for a value. -/
def readWord (word : Text) (v : Value) (t : Text) : Except ReadError (Value × Text) :=
  if word.isPrefixOf t then .ok (v, t.drop word.length) else .error .unfinished

/-- Reads the items of an array, at most `fuel` of them, up to its closing bracket. -/
def readItems (item : Text → Except ReadError (Value × Text)) (items : List Value) :
    Nat → Text → Except ReadError (Value × Text)
  | 0, _ => .error .unfinished
  | fuel + 1, t => do
      let (v, t) ← item t
      match skipBlanks t with
      | ',' :: t => readItems item (v :: items) fuel t
      | ']' :: t => .ok (.array (v :: items).reverse, t)
      | c :: _ => .error (.unexpected c)
      | [] => .error .unfinished

/-- Reads the fields of an object, at most `fuel` of them, up to its closing brace. -/
def readFields (item : Text → Except ReadError (Value × Text)) (fields : List (Text × Value)) :
    Nat → Text → Except ReadError (Value × Text)
  | 0, _ => .error .unfinished
  | fuel + 1, t =>
      match skipBlanks t with
      | '"' :: t => do
          let (name, t) ← readString t
          match skipBlanks t with
          | ':' :: t => do
              let (v, t) ← item t
              match skipBlanks t with
              | ',' :: t => readFields item (setField name v fields) fuel t
              | '\x7d' :: t => .ok (.object (setField name v fields), t)
              | c :: _ => .error (.unexpected c)
              | [] => .error .unfinished
          | c :: _ => .error (.unexpected c)
          | [] => .error .unfinished
      | c :: _ => .error (.unexpected c)
      | [] => .error .unfinished

/-- Reads a value; `item` reads the values inside it, and is missing when it may hold none. -/
def readShallow (item : Option (Text → Except ReadError (Value × Text))) (t : Text) :
    Except ReadError (Value × Text) :=
  match skipBlanks t with
  | [] => .error .unfinished
  | '[' :: t =>
      match item, skipBlanks t with
      | none, _ => .error .tooDeep
      | some _, ']' :: t => .ok (.array [], t)
      | some item, t => readItems item [] (t.length + 1) t
  | '\x7b' :: t =>
      match item, skipBlanks t with
      | none, _ => .error .tooDeep
      | some _, '\x7d' :: t => .ok (.object [], t)
      | some item, t => readFields item [] (t.length + 1) t
  | '"' :: t => do
      let (s, rest) ← readString t
      return (.string s, rest)
  | '-' :: t => do
      let (n, rest) ← readNumber true t
      return (.number n, rest)
  | 'n' :: t => readWord "null".toList .null ('n' :: t)
  | 't' :: t => readWord "true".toList (.bool true) ('t' :: t)
  | 'f' :: t => readWord "false".toList (.bool false) ('f' :: t)
  | c :: t =>
      if c.isDigit then do
        let (n, rest) ← readNumber false (c :: t)
        return (.number n, rest)
      else .error (.unexpected c)

/-- Reads a value in which arrays and objects nest at most that deep. -/
def readNested : Nat → Text → Except ReadError (Value × Text)
  | 0, t => readShallow none t
  | depth + 1, t => readShallow (some (readNested depth)) t

/-- How deep arrays and objects may nest. -/
def depthLimit : Nat := 127

/-- Reads a whole document. -/
def read (t : Text) : Except ReadError Value := do
  let (v, rest) ← readNested depthLimit t
  if skipBlanks rest = [] then .ok v else .error .trailing

end LineScript.Json
