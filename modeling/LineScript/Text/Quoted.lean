import LineScript.Text.Extending
import LineScript.Text.Unprintable

/-!
# Quoted text

Messages show a text between double quotes. A quote, a backslash and every character that would
not show as itself is written as an escape, so the message stays on one line and each character
of the text can be told apart. The strings of JSON are quoted by rules of their own.
-/

namespace LineScript

/-! ## In messages -/

/-- Hexadecimal digits of a code point, lower case and without padding. -/
def hexDigits (n : Nat) : Text := Nat.toDigits 16 n

/-- A character inside quotes. -/
def quotedChar (c : Char) : Text :=
  match c with
  | '"' => ['\\', '"']
  | '\\' => ['\\', '\\']
  | '\t' => ['\\', 't']
  | '\n' => ['\\', 'n']
  | '\r' => ['\\', 'r']
  | '\x00' => ['\\', '0']
  | c =>
      if isUnprintable c || isExtending c then
        ['\\', 'u', '\x7b'] ++ hexDigits c.toNat ++ ['\x7d']
      else [c]

/-- A text between double quotes, with escapes. -/
def quoted (t : Text) : String := String.ofList ('"' :: t.flatMap quotedChar ++ ['"'])

/-! ## In JSON -/

/-- A character inside a JSON string: quote, backslash and the controls below the space are
    escaped. -/
def jsonChar (c : Char) : Text :=
  match c with
  | '"' => ['\\', '"']
  | '\\' => ['\\', '\\']
  | '\x08' => ['\\', 'b']
  | '\t' => ['\\', 't']
  | '\n' => ['\\', 'n']
  | '\x0c' => ['\\', 'f']
  | '\r' => ['\\', 'r']
  | c =>
      if c.toNat < 0x20 then
        let digits := hexDigits c.toNat
        ['\\', 'u'] ++ List.replicate (4 - digits.length) '0' ++ digits
      else [c]

/-- A text as a JSON string. -/
def jsonString (t : Text) : Text := '"' :: t.flatMap jsonChar ++ ['"']

end LineScript
