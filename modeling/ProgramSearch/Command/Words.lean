import ProgramSearch.Report.Presentation

/-!
# Words of a command line

Options, their values and positional words are read from left to right, and the first thing wrong
ends the reading. An option has a long name, perhaps a letter, and its value stands in the same
word or in the next one. Everything behind two dashes is positional.
-/
namespace ProgramSearch.Command

/-- What an option takes. -/
inductive OptionKind where
  | flag
  | help
  | version
  /-- A number. -/
  | count
  /-- A number above zero. -/
  | positive
  /-- Numbers above zero, parted by commas; the option may be repeated. -/
  | positives
  | text
  /-- A text that is not empty. -/
  | path
  | format
deriving Repr, DecidableEq

structure OptionSpec where
  name : String
  letter : Option Char
  kind : OptionKind
deriving Repr, DecidableEq

/-- The value of an option that was given. -/
inductive OptionValue where
  | flag
  | number (n : Nat)
  | numbers (ns : List Nat)
  | text (s : String)
  | format (f : Report.OutputFormat)
deriving Repr, DecidableEq

/-- Why a command line asks for no command. -/
inductive Halt where
  | usage
  | help
  | version
deriving Repr, DecidableEq

/-- A number of 64 bits in decimal digits, perhaps behind a plus sign. -/
def number? (s : String) : Option Nat :=
  let digits := match s.toList with
    | '+' :: cs => cs
    | cs => cs
  if digits.isEmpty || !digits.all Char.isDigit then none
  else
    let n := digits.foldl (fun n c => 10 * n + (c.toNat - '0'.toNat)) 0
    if n ≤ 0xFFFFFFFFFFFFFFFF then some n else none

def positive? (s : String) : Option Nat := (number? s).filter (0 < ·)

namespace OptionKind

/-- Whether the option stands without a value. -/
def isBare : OptionKind → Bool
  | flag | help | version => true
  | _ => false

/-- Reads the value of an option. -/
def read? (kind : OptionKind) (s : String) : Option OptionValue :=
  match kind with
  | flag | help | version => none
  | count => .number <$> number? s
  | positive => .number <$> positive? s
  | positives => .numbers <$> (s.splitOn ",").mapM positive?
  | text => some (.text s)
  | path => if s.isEmpty then none else some (.text s)
  | format =>
    match s with
    | "table" => some (.format .table)
    | "json" => some (.format .json)
    | _ => none

end OptionKind

/-- What has been read of a command line. `pending` is an option that is not entered yet, with its
value if that has been met. -/
structure Words where
  options : List (String × OptionValue) := []
  positionals : List String := []
  pending : Option (OptionSpec × Option String) := none
  trailing : Bool := false

namespace Words

/-- Enters an option; only lists may be given more than once. -/
def enter (w : Words) (spec : OptionSpec) (v : OptionValue) : Except Halt Words :=
  match w.options.lookup spec.name, v with
  | none, _ => .ok { w with options := w.options ++ [(spec.name, v)] }
  | some (.numbers old), .numbers new =>
    .ok { w with options := w.options.map fun (name, v) =>
      (name, if name == spec.name then .numbers (old ++ new) else v) }
  | some _, _ => .error .usage

def enterText (w : Words) (spec : OptionSpec) (s : String) : Except Halt Words :=
  match spec.kind.read? s with
  | some v => w.enter spec v
  | none => .error .usage

/-- Enters the pending option, which must have its value by now. -/
def settle (w : Words) : Except Halt Words :=
  match w.pending with
  | none => .ok w
  | some (_, none) => .error .usage
  | some (spec, some s) => { w with pending := none }.enterText spec s

/-- Meets an option, with its value if that stands in the same word. -/
def meet (w : Words) (spec : OptionSpec) (attached : Option String) : Except Halt Words := do
  if spec.kind.isBare && attached.isSome then .error .usage
  else
    let w ← w.settle
    match spec.kind, attached with
    | .help, _ => .error .help
    | .version, _ => .error .version
    | .flag, _ => w.enter spec .flag
    | _, some s => w.enterText spec s
    | _, none => return { w with pending := some (spec, none) }

/-- Meets the letters of one word. A letter whose option takes a value ends them. -/
def meetLetters (specs : List OptionSpec) (w : Words) : List Char → Except Halt Words
  | [] => .ok w
  | c :: rest =>
    match specs.find? (·.letter == some c) with
    | none => .error .usage
    | some spec =>
      if spec.kind.isBare then do
        let w ← w.meet spec none
        meetLetters specs w rest
      else
        match rest with
        | [] => w.meet spec none
        | '=' :: rest => w.meet spec (some (String.ofList rest))
        | rest => w.meet spec (some (String.ofList rest))

/-- Meets an option by its long name, perhaps with a value behind an equals sign. -/
def meetLong (specs : List OptionSpec) (w : Words) (word : List Char) : Except Halt Words :=
  let name := word.takeWhile (· != '=')
  let attached := match word.drop name.length with
    | _ :: rest => some (String.ofList rest)
    | [] => none
  match specs.find? (·.name == String.ofList name) with
  | some spec => w.meet spec attached
  | none => .error .usage

/-- Meets a word that is no option. There is room for `places` of them. -/
def meetPositional (places : Nat) (w : Words) (word : String) : Except Halt Words := do
  let w ← w.settle
  if w.positionals.length < places && !word.isEmpty then
    return { w with positionals := w.positionals ++ [word] }
  else .error .usage

/-- Whether the next word is the value of an option. -/
def wantsValue (w : Words) : Bool :=
  match w.pending with
  | some (_, none) => !w.trailing
  | _ => false

/-- Reads one word. -/
def step (specs : List OptionSpec) (places : Nat) (w : Words) (word : String) :
    Except Halt Words :=
  if w.trailing then w.meetPositional places word
  else
    match word.toList with
    | ['-', '-'] => .ok { w with trailing := true }
    | '-' :: '-' :: long => w.meetLong specs long
    | '-' :: c :: letters => w.meetLetters specs (c :: letters)
    | _ =>
      match w.pending with
      | some (spec, none) => .ok { w with pending := some (spec, some word) }
      | _ => w.meetPositional places word

/-- Reads all words. -/
def read (specs : List OptionSpec) (places : Nat) (words : List String) : Except Halt Words := do
  let w ← words.foldlM (step specs places) {}
  let w ← w.settle
  if w.positionals.length == places then return w else .error .usage

def has (w : Words) (name : String) : Bool := (w.options.lookup name).isSome

def number? (w : Words) (name : String) : Option Nat :=
  match w.options.lookup name with
  | some (.number n) => some n
  | _ => none

def numbers (w : Words) (name : String) : List Nat :=
  match w.options.lookup name with
  | some (.numbers ns) => ns
  | _ => []

def text? (w : Words) (name : String) : Option String :=
  match w.options.lookup name with
  | some (.text s) => some s
  | _ => none

def format? (w : Words) (name : String) : Option Report.OutputFormat :=
  match w.options.lookup name with
  | some (.format f) => some f
  | _ => none

def positional (w : Words) (place : Nat) : String := (w.positionals[place]?).getD ""

end Words

end ProgramSearch.Command
