/-
# Words of a command line

A command understands switches, which are named by `--name` or by a letter after a single
dash, and places, which are filled by plain words in order.  A switch with a value takes it
from behind an equals sign, from the rest of its letters, or from the next word.  After the
word `--` every word is a plain one.

The words are gone through once.  A value found in a word of its own, or a plain word, is held
until the next switch or place or the end of the words, and only then read; so a word that
cannot be understood is reported before a bad value that precedes it, while an attached value
is read at once.

A word that names a subcommand ends the words of the command.

* `Grammar.walk` goes through the words of one command;
* `Walk.settle` reads what is held.
-/
import IrrigationLog.Command.Usage
import IrrigationLog.Text.Split

namespace IrrigationLog

open Text

/-! ## 1. Grammars -/

/-- Why reading a command line comes to an end without a command. -/
inductive Refusal where
  | usage (e : UsageError)
  /-- Help was asked for. -/
  | help
  /-- The version was asked for. -/
  | version
  deriving DecidableEq

/-- A switch with a value. -/
structure ValuedSwitch (σ : Type) where
  name : String
  /-- What stands for the value in messages. -/
  placeholder : String
  /-- Whether the value may be a number below zero in a word of its own. -/
  negative : Bool
  store : String → σ → Except ValueError σ

/-- What a switch does. -/
inductive SwitchAction (σ : Type) where
  | flag (set : σ → σ)
  | valued (placeholder : String) (negative : Bool) (store : String → σ → Except ValueError σ)
  | help
  | version

/-- A switch. -/
structure Switch (σ : Type) where
  name : String
  letter : Option Char
  action : SwitchAction σ

/-- A place for plain words. -/
structure Place (σ : Type) where
  placeholder : String
  negative : Bool := false
  /-- Whether any number of words fits. -/
  many : Bool := false
  store : String → σ → Except ValueError σ

/-- The words that a command understands. -/
structure Grammar (σ : Type) where
  switches : List (Switch σ)
  places : List (Place σ) := []
  subcommands : List String := []

/-- A switch with a value in messages. -/
def ValuedSwitch.label (s : ValuedSwitch σ) : String := s!"--{s.name} <{s.placeholder}>"

/-- A place in messages. -/
def Place.label (p : Place σ) : String :=
  if p.many then s!"<{p.placeholder}>..." else s!"<{p.placeholder}>"

/-! ## 2. Walks -/

/-- What waits to be read. -/
inductive Held (σ : Type) where
  | nothing
  /-- A switch whose value has not come. -/
  | awaiting (s : ValuedSwitch σ)
  /-- A switch with its value. -/
  | value (s : ValuedSwitch σ) (word : String)
  /-- A place with its words. -/
  | words (p : Place σ) (words : List String)

/-- The words held for a place. -/
def Held.wordsOf (p : Place σ) : Held σ → Option (List String)
  | .words q ws => if q.placeholder = p.placeholder then some ws else none
  | _ => none

/-- The words gone through so far. -/
structure Walk (σ : Type) where
  /-- What was read. -/
  read : σ
  /-- The switches that were given, and read. -/
  given : List String := []
  held : Held σ := .nothing
  /-- The place to be filled next. -/
  place : Nat := 0

namespace Walk

/-- Reads the value of a switch, which may be given once. -/
def storeValue (w : Walk σ) (s : ValuedSwitch σ) (word : String) : Except Refusal (Walk σ) :=
  if w.given.contains s.name then .error (.usage (.repeated s.label))
  else
    match s.store word w.read with
    | .ok read => .ok { w with read, given := s.name :: w.given }
    | .error why => .error (.usage (.ofValue word s.label why))

/-- Reads the words of a place. -/
def storeWords (w : Walk σ) (p : Place σ) : List String → Except Refusal (Walk σ)
  | [] => .ok w
  | word :: words =>
    match p.store word w.read with
    | .ok read => storeWords { w with read } p words
    | .error why => .error (.usage (.ofValue word p.label why))

/-- Reads what is held. -/
def settle (w : Walk σ) : Except Refusal (Walk σ) :=
  let free := { w with held := .nothing }
  match w.held with
  | .nothing => .ok free
  | .awaiting s => .error (.usage (.missingValue s.label))
  | .value s word => free.storeValue s word
  | .words p words => free.storeWords p words

/-- Whether a switch waits for its value. -/
def isAwaiting (w : Walk σ) : Bool :=
  match w.held with
  | .awaiting _ => true
  | _ => false

/-- Gives a switch without a value. -/
def giveFlag (w : Walk σ) (name : String) (set : σ → σ) : Except Refusal (Walk σ) := do
  let w ← w.settle
  if w.given.contains name then .error (.usage (.repeated s!"--{name}"))
  else .ok { w with read := set w.read, given := name :: w.given }

/-- Gives a switch with a value, if there is one attached. -/
def giveValued (w : Walk σ) (s : ValuedSwitch σ) (attached : Option String) :
    Except Refusal (Walk σ) := do
  let w ← w.settle
  match attached with
  | some word => w.storeValue s word
  | none => .ok { w with held := .awaiting s }

end Walk

/-! ## 3. Numbers below zero -/

/-- Digits, with a point after the first of them and an exponent after the point, if any. -/
def looksNumeric (cs : List Char) : Bool :=
  let (number, exponent) :=
    match cutOnce 'e' cs with
    | some (number, exponent) => (number, some exponent)
    | none => (cs, none)
  let plain := fun ds => ds.all Char.isDigit
  let numberOk :=
    match cutOnce '.' number with
    | some (whole, part) => !whole.isEmpty && plain whole && plain part
    | none => plain number
  match exponent with
  | none => numberOk
  | some ds => numberOk && !number.isEmpty && !ds.isEmpty && plain ds

namespace Grammar

/-- Whether a word with a dash in front may be a number below zero here. -/
def takesNegative (g : Grammar σ) (w : Walk σ) (letters : List Char) : Bool :=
  let wanted :=
    match w.held with
    | .awaiting s => s.negative
    | _ => false
  looksNumeric letters && (wanted || (g.places[w.place]?).any Place.negative)

/-! ## 4. One word -/

/-- Takes a plain word. -/
def takeWord (g : Grammar σ) (w : Walk σ) (trailing : Bool) (word : String) :
    Except Refusal (Walk σ) :=
  match g.places[w.place]? with
  | none =>
    if g.subcommands.isEmpty ∨ (trailing ∧ g.subcommands.contains word) then
      .error (.usage (.unexpectedArgument word))
    else .error (.usage (.unknownSubcommand word))
  | some p =>
    match p.many, w.held.wordsOf p with
    | true, some words => .ok { w with held := .words p (words ++ [word]) }
    | true, none => w.settle.map fun w => { w with held := .words p [word] }
    | false, _ => w.settle.map fun w => { w with held := .words p [word], place := w.place + 1 }

/-- Takes a plain word, which may be the value that a switch waits for. -/
def takeValueOrWord (g : Grammar σ) (w : Walk σ) (word : String) : Except Refusal (Walk σ) :=
  match w.held with
  | .awaiting s => .ok { w with held := .value s word }
  | _ => g.takeWord w false word

/-- Takes a switch given by its name, and the value attached to it. -/
def takeNamed (g : Grammar σ) (w : Walk σ) (name : String) (attached : Option String) :
    Except Refusal (Walk σ) :=
  match g.switches.find? fun s => s.name == name with
  | none => .error (.usage (.unexpectedArgument s!"--{name}"))
  | some s =>
    match s.action, attached with
    | .valued placeholder negative store, _ =>
      w.giveValued ⟨name, placeholder, negative, store⟩ attached
    | _, some value => .error (.usage (.unexpectedValue value s!"--{name}"))
    | .flag set, none => w.giveFlag name set
    | .help, none => w.settle.bind fun _ => .error .help
    | .version, none => w.settle.bind fun _ => .error .version

/-- The value attached to a letter: the letters after it, without an equals sign in front. -/
def attachedToLetter : List Char → Option String
  | [] => none
  | '=' :: cs => some (String.ofList cs)
  | cs => some (String.ofList cs)

/-- Takes switches given by their letters. -/
def takeLetters (g : Grammar σ) (w : Walk σ) : List Char → Except Refusal (Walk σ)
  | [] => .ok w
  | c :: cs =>
    match g.switches.find? fun s => s.letter == some c with
    | none => .error (.usage (.unexpectedArgument (String.ofList ['-', c])))
    | some s =>
      match s.action with
      | .flag set =>
        match w.giveFlag s.name set with
        | .ok w => takeLetters g w cs
        | .error r => .error r
      | .valued placeholder negative store =>
        w.giveValued ⟨s.name, placeholder, negative, store⟩ (attachedToLetter cs)
      | .help => w.settle.bind fun _ => .error .help
      | .version => w.settle.bind fun _ => .error .version

/-- Takes a word that is neither `--` nor a subcommand. -/
def take (g : Grammar σ) (w : Walk σ) (word : String) : Except Refusal (Walk σ) :=
  match word.toList with
  | '-' :: '-' :: cs =>
    match cutOnce '=' cs with
    | some (name, value) => g.takeNamed w (String.ofList name) (some (String.ofList value))
    | none => g.takeNamed w (String.ofList cs) none
  | '-' :: c :: cs =>
    if g.takesNegative w (c :: cs) then g.takeValueOrWord w word else g.takeLetters w (c :: cs)
  | _ => g.takeValueOrWord w word

/-! ## 5. All words -/

/-- Goes through words, up to a subcommand; gives that and the words after it.  After `--` the
words are `trailing`. -/
def walk (g : Grammar σ) (w : Walk σ) (trailing : Bool) :
    List String → Except Refusal (Walk σ × Option (String × List String))
  | [] => .ok (w, none)
  | word :: words =>
    if trailing then
      match g.takeWord w true word with
      | .ok w => g.walk w true words
      | .error r => .error r
    else if !w.isAwaiting && g.subcommands.contains word then .ok (w, some (word, words))
    else if word = "--" then g.walk w true words
    else
      match g.take w word with
      | .ok w => g.walk w false words
      | .error r => .error r

end Grammar

end IrrigationLog
