import LineScript.Text.Basic

/-!
# Physical lines

A stream is what reading a file line by line meets: decoded lines, lines that are not UTF-8,
and at most one failure, which may strike before a line or inside it. Whether a line continues
the command above is decided by its first byte alone, so a line that cannot be read still shows
whether it starts with a tab. A failure has a kind, which callers may look at, and a text, which
they only show.

* `Stream.ofBytes` cuts delivered bytes into lines and puts the failure where it is met.
* `Stream.ofText` is the same for text, where nothing can fail.
-/

namespace LineScript

/-! ## Failures of the file layer -/

/-- What sort of failure opening or reading a file met. -/
inductive AccessKind where
  | notFound
  | permissionDenied
  | isADirectory
  | notADirectory
  | invalidData
  | other
deriving DecidableEq, Repr, Inhabited

/-- A failure to open or read a file, with a text that is shown as it is. -/
structure AccessError where
  kind : AccessKind
  message : String
deriving DecidableEq, Repr, Inhabited

/-- A name that a file system does not hold. -/
def AccessError.missing : AccessError := ⟨.notFound, "file does not exist"⟩

/-- Contents that are read as text and are not UTF-8. -/
def AccessError.notText : AccessError := ⟨.invalidData, "stream did not contain valid UTF-8"⟩

/-! ## Lines -/

/-- The byte of a line feed. -/
def newlineByte : UInt8 := 10

/-- The byte of a tab. -/
def tabByte : UInt8 := 9

/-- Decodes UTF-8; `none` if the bytes are not well formed. -/
def decodeUtf8 (bytes : Bytes) : Option Text :=
  (ByteArray.mk bytes.toArray).utf8Decode?.map Array.toList

/-- Encodes text as UTF-8. -/
def encodeUtf8 (t : Text) : Bytes := t.flatMap String.utf8EncodeChar

/-- What reading meets at the start of a physical line: a line with its line feed, which only the
    last may lack; a line that is not UTF-8; some bytes of a line and then a failure; or a failure
    before the first byte of a line. -/
inductive Line where
  | text (chars : Text)
  | undecodable (tab : Bool)
  | broken (tab : Bool) (error : AccessError)
  | failure (error : AccessError)
deriving DecidableEq, Repr, Inhabited

/-- The lines ahead, up to the end of input or a failure. -/
abbrev Stream := List Line

namespace Line

/-- Decodes one line. -/
def ofBytes (bytes : Bytes) : Line :=
  match decodeUtf8 bytes with
  | some chars => .text chars
  | none => .undecodable (bytes.head? == some tabByte)

/-- Whether the line starts with a tab, by its first byte; a failure may strike instead. -/
def startsWithTab : Line → Except AccessError Bool
  | .text chars => .ok (chars.head? == some '\t')
  | .undecodable tab => .ok tab
  | .broken tab _ => .ok tab
  | .failure error => .error error

end Line

namespace Stream

/-- The lines of bytes that end in a failure. A last line without its line feed is broken. -/
def failing (error : AccessError) : List Bytes → Stream
  | [] => [.failure error]
  | l :: ls =>
      if l.getLast? = some newlineByte then Line.ofBytes l :: failing error ls
      else [.broken (l.head? == some tabByte) error]

/-- The lines of delivered bytes, followed by the end of input or by a failure. -/
def ofBytes (bytes : Bytes) (error : Option AccessError) : Stream :=
  let ls := Text.pieces newlineByte bytes
  match error with
  | none => ls.map Line.ofBytes
  | some e => failing e ls

/-- The lines of a text. -/
def ofText (t : Text) : Stream := (Text.physicalLines t).map .text

/-- The whole text ahead, for readers that do not go line by line. -/
def wholeText (s : Stream) : Except AccessError Text :=
  match s.findSome? fun
    | .broken _ e => some e
    | .failure e => some e
    | _ => none with
  | some e => .error e
  | none =>
      match s.mapM fun
        | .text chars => some chars
        | _ => none with
      | some ls => .ok ls.flatten
      | none => .error .notText

end Stream

end LineScript
