import LineScript.Pattern.Basic

/-!
# Flags and escapes of written patterns

What one character, or one backslash with what follows it, stands for. Flags say how letters,
dots, anchors and classes are meant, and whether blanks and comments in the pattern count.
-/

namespace LineScript.Pattern

/-- Why a written pattern is refused. -/
inductive ReadError where
  | unclosedGroup
  | unopenedGroup
  | unclosedClass
  | unclosedCount
  | badCount
  | nothingToRepeat
  | lookAround
  | backReference
  | badGroupName
  | duplicateGroupName
  | badFlag
  | unfinishedEscape
  | unknownEscape
  | badCodePoint
  | badClassItem
  | reversedRange
  | notText
  | tooDeep
deriving DecidableEq, Repr, Inhabited

/-- The wording of a refusal. -/
def ReadError.message : ReadError → String
  | .unclosedGroup => "unclosed group"
  | .unopenedGroup => "unopened group"
  | .unclosedClass => "unclosed character class"
  | .unclosedCount => "unclosed counted repetition"
  | .badCount => "invalid repetition count"
  | .nothingToRepeat => "repetition operator missing expression"
  | .lookAround => "look-around is not supported"
  | .backReference => "backreferences are not supported"
  | .badGroupName => "invalid capture group name"
  | .duplicateGroupName => "duplicate capture group name"
  | .badFlag => "invalid flag"
  | .unfinishedEscape => "incomplete escape sequence"
  | .unknownEscape => "unrecognized escape sequence"
  | .badCodePoint => "invalid hexadecimal code point"
  | .badClassItem => "invalid character class item"
  | .reversedRange => "invalid character class range"
  | .notText => "pattern can match invalid UTF-8"
  | .tooDeep => "pattern is nested too deeply"

/-! ## Flags -/

/-- How the characters of a pattern are meant: letters stand for all their case forms, anchors hold
    at every line, a dot stands for a line feed too, blanks and comments in the pattern do not
    count, a carriage return ends a line, and classes reach beyond ASCII. -/
structure Flags where
  ignoreCase : Bool := false
  multiLine : Bool := false
  dotNewline : Bool := false
  ignoreBlank : Bool := false
  crlf : Bool := false
  unicode : Bool := true
deriving DecidableEq, Repr, Inhabited

/-- Switches the flag of a letter; `none` for other letters. -/
def Flags.set? (fl : Flags) (letter : Char) (on : Bool) : Option Flags :=
  match letter with
  | 'i' => some { fl with ignoreCase := on }
  | 'm' => some { fl with multiLine := on }
  | 's' => some { fl with dotNewline := on }
  | 'x' => some { fl with ignoreBlank := on }
  | 'R' => some { fl with crlf := on }
  | 'u' => some { fl with unicode := on }
  | 'U' => some fl
  | _ => none

/-- Drops blanks and comments; `comment` tells whether the text starts inside one. -/
def dropIgnored (comment : Bool) : Text → Text
  | [] => []
  | c :: cs =>
      if comment then dropIgnored (c ≠ '\n') cs
      else if isBlank c then dropIgnored false cs
      else if c = '#' then dropIgnored true cs
      else c :: cs

/-- Drops what does not count. -/
def Flags.skip (fl : Flags) (t : Text) : Text := if fl.ignoreBlank then dropIgnored false t else t

/-! ## Single characters -/

/-- What one character or escape stands for. -/
inductive Primitive where
  | literal (n : Nat)
  | set (s : CharSet)
  | look (l : Look)
deriving DecidableEq, Repr, Inhabited

/-- The case forms of a set, if flags ask for them. -/
def Flags.fold (fl : Flags) (s : CharSet) : CharSet := if fl.ignoreCase then .folded s else s

/-- Any character; without `dotNewline` none that ends a line. -/
def Flags.dot (fl : Flags) : CharSet :=
  if fl.dotNewline then .compl .none
  else if fl.crlf then .compl (.ranges [(0x0A, 0x0A), (0x0D, 0x0D)])
  else .compl (.single 0x0A)

/-- The pattern of a primitive. -/
def Primitive.toPattern (fl : Flags) : Primitive → Pattern
  | .literal n => .one (fl.fold (.single n))
  | .set s => .one s
  | .look l => .look l

/-- The members that a primitive brings to a class, which conditions do not. -/
def Primitive.toSet : Primitive → Except ReadError CharSet
  | .literal n => .ok (.single n)
  | .set s => .ok s
  | .look _ => .error .badClassItem

/-! ## Escapes -/

/-- The value of a hexadecimal digit. -/
def hexValue? (c : Char) : Option Nat :=
  if '0' ≤ c ∧ c ≤ '9' then some (c.toNat - 48)
  else if 'a' ≤ c ∧ c ≤ 'f' then some (c.toNat - 87)
  else if 'A' ≤ c ∧ c ≤ 'F' then some (c.toNat - 55)
  else none

/-- Reads that many hexadecimal digits. -/
def readHex (fl : Flags) : Nat → Nat → Text → Except ReadError (Nat × Text)
  | 0, value, t => .ok (value, t)
  | _ + 1, _, [] => .error .unfinishedEscape
  | count + 1, value, c :: t =>
      match hexValue? c with
      | some d => readHex fl count (value * 16 + d) (fl.skip t)
      | none => .error .badCodePoint

/-- Reads hexadecimal digits up to a closing brace, at most `fuel` of them. -/
def readBracedHex (fl : Flags) (digits : List Nat) : Nat → Text → Except ReadError (Nat × Text)
  | 0, _ => .error .unfinishedEscape
  | fuel + 1, t =>
      match fl.skip t with
      | [] => .error .unfinishedEscape
      | c :: t =>
          if c = '\x7d' then
            if digits.isEmpty then .error .badCodePoint
            else .ok (digits.foldr (fun d value => value * 16 + d) 0, fl.skip t)
          else match hexValue? c with
            | some d => readBracedHex fl (d :: digits) fuel t
            | none => .error .badCodePoint

/-- Reads the code point of an escape that has `count` digits unless they are in braces. -/
def readCodePoint (fl : Flags) (count : Nat) (t : Text) : Except ReadError (Primitive × Text) := do
  let (n, rest) ← match fl.skip t with
    | [] => .error .unfinishedEscape
    | c :: t =>
        if c = '\x7b' then readBracedHex fl [] (t.length + 1) t
        else readHex fl count 0 (c :: t)
  if n.isValidChar then .ok (.literal n, rest) else .error .badCodePoint

/-- Characters with a meaning of their own, which a backslash takes away. -/
def isMeta (c : Char) : Bool := "\\.+*?()|[]\x7b\x7d^$#&-~".toList.contains c

/-- Characters that a backslash leaves as they are: the ones with a meaning, and the other ASCII
    characters that are no letters, no digits and no angle brackets. -/
def isEscapable (c : Char) : Bool :=
  isMeta c || (c.toNat < 0x80 && !c.isAlphanum && c != '<' && c != '>')

/-- The class of a letter behind a backslash. -/
def letterClass? (fl : Flags) (c : Char) : Option CharSet :=
  match c with
  | 'd' => some (.digit fl.unicode)
  | 's' => some (.space fl.unicode)
  | 'w' => some (.word fl.unicode)
  | 'D' => some (.compl (.digit fl.unicode))
  | 'S' => some (.compl (.space fl.unicode))
  | 'W' => some (.compl (.word fl.unicode))
  | _ => none

/-- The kind of word boundary named in braces behind a boundary escape. -/
def namedBoundary? (fl : Flags) (name : Text) : Option Look :=
  match String.ofList name with
  | "start" => some (.wordStart fl.unicode)
  | "end" => some (.wordEnd fl.unicode)
  | "start-half" => some (.wordStartHalf fl.unicode)
  | "end-half" => some (.wordEndHalf fl.unicode)
  | _ => none

/-- Reads the name of a boundary up to a closing brace, at most `fuel` letters. -/
def readBoundaryName (fl : Flags) (name : Text) : Nat → Text → Except ReadError (Look × Text)
  | 0, _ => .error .unknownEscape
  | fuel + 1, t =>
      match fl.skip t with
      | [] => .error .unfinishedEscape
      | c :: t =>
          if c.isAlpha || c == '-' then readBoundaryName fl (c :: name) fuel t
          else if c = '\x7d' then
            match namedBoundary? fl name.reverse with
            | some l => .ok (l, t)
            | none => .error .unknownEscape
          else .error .unknownEscape

/-- Reads what follows a boundary escape: a name in braces, or nothing if they hold a count. -/
def readBoundary (fl : Flags) (t : Text) : Except ReadError (Primitive × Text) :=
  let plain := (.look (.boundary fl.unicode), t)
  match t with
  | '\x7b' :: inner =>
      match fl.skip inner with
      | [] => .error .unfinishedEscape
      | c :: _ =>
          if c.isAlpha || c == '-' then do
            let (l, rest) ← readBoundaryName fl [] (inner.length + 1) inner
            return (.look l, rest)
          else .ok plain
  | _ => .ok plain

/-- Reads what follows a backslash. -/
def readEscape (fl : Flags) : Text → Except ReadError (Primitive × Text)
  | [] => .error .unfinishedEscape
  | c :: t =>
      if c.isDigit then .error .backReference
      else match letterClass? fl c with
      | some s =>
          if !fl.unicode && c.isUpper then .error .notText else .ok (.set s, t)
      | none =>
          if isEscapable c then .ok (.literal c.toNat, t)
          else match c with
            | 'x' => readCodePoint fl 2 t
            | 'u' => readCodePoint fl 4 t
            | 'U' => readCodePoint fl 8 t
            | 'a' => .ok (.literal 0x07, t)
            | 'f' => .ok (.literal 0x0C, t)
            | 't' => .ok (.literal 0x09, t)
            | 'n' => .ok (.literal 0x0A, t)
            | 'r' => .ok (.literal 0x0D, t)
            | 'v' => .ok (.literal 0x0B, t)
            | 'A' => .ok (.look .startText, t)
            | 'z' => .ok (.look .endText, t)
            | 'b' => readBoundary fl t
            | 'B' => .ok (.look (.noBoundary fl.unicode), t)
            | '<' => .ok (.look (.wordStart fl.unicode), t)
            | '>' => .ok (.look (.wordEnd fl.unicode), t)
            | _ => .error .unknownEscape

end LineScript.Pattern
