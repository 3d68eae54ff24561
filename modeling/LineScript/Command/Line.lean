import LineScript.Command.Invocation

/-!
# The command line

A command line is read at two levels: the words up to the command, and the words behind it. Both
take the same flags, each at most once; where both give a value the inner level counts.

A value that stands alone is checked when the next flag or operand is met, or at the end of its
level, and the outer level ends after the inner one. So a request for help that comes first is
answered even if an earlier value turns out to be wrong.

* `Invocation.ofWords` reads a command line.
-/

namespace LineScript

/-- Why a command line does not lead to a command: it cannot be understood, or it asks for something
    else. -/
inductive Refusal where
  | misuse
  | help
  | version
deriving DecidableEq, Repr, Inhabited

/-- The status of a program that ends there. -/
def Refusal.exitCode : Refusal → Nat
  | .misuse => 2
  | .help | .version => 0

/-- What takes a value. -/
inductive Slot where
  | directory
  | root
  | extension
  | operand
deriving DecidableEq, Repr, Inhabited

/-- What is on or off. -/
inductive Switch where
  | noExtension
  | verbose
  | json
deriving DecidableEq, Repr, Inhabited

/-- What a flag does. -/
inductive Flag where
  | value (slot : Slot)
  | turn (switch : Switch)
  | request (refusal : Refusal)
deriving DecidableEq, Repr, Inhabited

/-- A level is the outer one or that of a command. -/
abbrev Scope := Option Verb

namespace Flag

/-- The flag of a long name. The version belongs to the outer level, and the JSON form to the
    command that prints scripts. -/
def ofName? (scope : Scope) (name : Text) : Option Flag :=
  if name = "dir".toList then some (.value .directory)
  else if name = "root".toList then some (.value .root)
  else if name = "ext".toList then some (.value .extension)
  else if name = "no-ext".toList then some (.turn .noExtension)
  else if name = "verbose".toList then some (.turn .verbose)
  else if name = "help".toList then some (.request .help)
  else if name = "version".toList ∧ scope = none then some (.request .version)
  else if name = "json".toList ∧ scope = some .expand then some (.turn .json)
  else none

/-- The flag of a letter. -/
def ofLetter? (scope : Scope) (c : Char) : Option Flag :=
  if c = 'v' then some (.turn .verbose)
  else if c = 'h' then some (.request .help)
  else if c = 'V' ∧ scope = none then some (.request .version)
  else none

end Flag

/-- The form of a word: two dashes, after which all words are operands; a long flag, with a value if
    one is attached; one or more letters behind a dash; or anything else, such as a single dash. -/
inductive Word where
  | stop
  | long (name : Text) (value : Option Text)
  | letters (letters : Text)
  | plain
deriving DecidableEq, Repr, Inhabited

/-- The form of a word: it has dashes in front or not, and the first equals sign of a long flag
    starts its value. -/
def Word.ofText : Text → Word
  | ['-', '-'] => .stop
  | '-' :: '-' :: cs =>
      match cs.dropWhile (· ≠ '=') with
      | [] => .long cs none
      | _ :: value => .long (cs.takeWhile (· ≠ '=')) (some value)
  | '-' :: c :: cs => .letters (c :: cs)
  | _ => .plain

/-- What has been read at a level: values that have been checked, switches that are on, and a value
    that has not been checked yet. -/
structure Level where
  values : List (Slot × Text) := []
  switches : List Switch := []
  pending : Option (Slot × Text) := none
deriving DecidableEq, Repr, Inhabited

namespace Level

/-- The value of a slot. -/
def value? (l : Level) (slot : Slot) : Option Text := l.values.lookup slot

/-- Whether a switch is on. -/
def isOn (l : Level) (switch : Switch) : Bool := l.switches.contains switch

/-- Whether a slot takes a path, which is never empty. -/
def takesPath (scope : Scope) : Slot → Bool
  | .directory => true
  | .operand => scope = some .check
  | _ => false

/-- Gives a slot its value, once. -/
def assign (scope : Scope) (l : Level) (slot : Slot) (value : Text) : Except Refusal Level :=
  if (l.value? slot).isSome ∨ (takesPath scope slot ∧ value = []) then .error .misuse
  else .ok { l with values := (slot, value) :: l.values }

/-- Checks the value that has not been checked. -/
def settle (scope : Scope) (l : Level) : Except Refusal Level :=
  match l.pending with
  | none => .ok l
  | some (slot, value) => { l with pending := none }.assign scope slot value

/-- Turns a switch on, once. -/
def turn (l : Level) (switch : Switch) : Except Refusal Level :=
  if l.isOn switch then .error .misuse
  else .ok { l with switches := switch :: l.switches }

/-- Takes a value that stands alone. -/
def hold (scope : Scope) (l : Level) (slot : Slot) (value : Text) : Except Refusal Level := do
  return { ← l.settle scope with pending := some (slot, value) }

/-- Applies a flag that takes no value. -/
def apply (scope : Scope) (l : Level) : Flag → Except Refusal Level
  | .value _ => .error .misuse
  | .turn switch => do (← l.settle scope).turn switch
  | .request refusal => do
      let _ ← l.settle scope
      .error refusal

/-- Applies the letters of a word one by one. -/
def applyLetters (scope : Scope) (l : Level) : Text → Except Refusal Level
  | [] => .ok l
  | c :: cs =>
      match Flag.ofLetter? scope c with
      | none => .error .misuse
      | some flag => do (← l.apply scope flag).applyLetters scope cs

/-- Takes all words as operands. -/
def takeOperands (scope : Scope) (l : Level) : List Text → Except Refusal Level
  | [] => .ok l
  | w :: ws => do (← l.hold scope .operand w).takeOperands scope ws

/-- Reads a level; at the outer one, up to the first word that is no flag, which comes back with
    the words behind it. -/
def read (scope : Scope) (l : Level) :
    List Text → Except Refusal (Level × Option (Text × List Text))
  | [] => .ok (l, none)
  | w :: ws =>
      match Word.ofText w with
      | .stop => do return (← l.takeOperands scope ws, none)
      | .letters cs => do (← l.applyLetters scope cs).read scope ws
      | .plain =>
          if scope = none then .ok (l, some (w, ws))
          else do (← l.hold scope .operand w).read scope ws
      | .long name value =>
          match Flag.ofName? scope name, value with
          | none, _ => .error .misuse
          | some (.value slot), some value => do
              (← (← l.settle scope).assign scope slot value).read scope ws
          | some (.value slot), none =>
              match ws with
              | [] => .error .misuse
              | v :: ws =>
                  if Word.ofText v = .plain then do (← l.hold scope slot v).read scope ws
                  else .error .misuse
          | some _, some _ => .error .misuse
          | some flag, none => do (← l.apply scope flag).read scope ws

/-- Ends a level: an extension and no extension exclude each other. -/
def close (scope : Scope) (l : Level) : Except Refusal Level := do
  let l ← l.settle scope
  if (l.value? .extension).isSome && l.isOn .noExtension then .error .misuse
  else .ok l

end Level

/-- The word that asks for help. -/
def helpWord : Text := "help".toList

/-- What a request for help leads to: at most one command may follow. -/
def helpRefusal : List Text → Refusal
  | [] => .help
  | [w] => if w = helpWord ∨ (Verb.ofWord? w).isSome then .help else .misuse
  | _ => .misuse

namespace Invocation

/-- The invocation that two levels make. -/
def ofLevels (verb : Verb) (operand : Text) (outer inner : Level) : Invocation :=
  let value? (slot : Slot) := inner.value? slot <|> outer.value? slot
  let isOn (switch : Switch) := inner.isOn switch || outer.isOn switch
  { verb, operand,
    directory := (value? .directory).getD ['.'],
    options :=
      { root := (value? .root).getD [],
        extension :=
          if isOn .noExtension then none else some ((value? .extension).getD defaultExtension) },
    json := isOn .json }

/-- Reads a command line. -/
def ofWords (words : List Text) : Except Refusal Invocation := do
  match ← Level.read none {} words with
  | (_, none) => .error .misuse
  | (outer, some (w, ws)) =>
      if w = helpWord then .error (helpRefusal ws)
      else match Verb.ofWord? w with
        | none => .error .misuse
        | some verb =>
            let (inner, _) ← Level.read (some verb) {} ws
            let inner ← inner.close (some verb)
            match inner.value? .operand <|> verb.defaultOperand with
            | none => .error .misuse
            | some operand => return ofLevels verb operand (← outer.close none) inner

end Invocation

end LineScript
