/-!
# Path patterns

Patterns of ignore files. A star matches within one component, two stars between slashes match
any number of components, brackets hold character classes and braces alternatives. Patterns are
matched against the bytes of a path.
-/
namespace ProgramSearch

namespace Glob

inductive Token where
  | literal (b : UInt8)
  | anyByte
  | star
  /-- Any number of leading components. -/
  | leading
  /-- Everything below a component. -/
  | below
  /-- Any number of components between two slashes. -/
  | between
  | byteClass (negated : Bool) (ranges : List (UInt8 × UInt8))
deriving Repr, DecidableEq, Inhabited

end Glob

/-- The alternatives of a pattern, each a list of tokens. -/
abbrev Glob := List (List Glob.Token)

namespace Glob

def slash : UInt8 := 0x2F

/-- Whether some tail of the path, reached over accepted bytes, fits. -/
def someTail (accept : UInt8 → Bool) (fits : List UInt8 → Bool) : List UInt8 → Bool
  | [] => fits []
  | b :: rest => fits (b :: rest) || (accept b && someTail accept fits rest)

/-- Whether the path behind some slash fits. -/
def behindSlash (fits : List UInt8 → Bool) : List UInt8 → Bool
  | [] => false
  | b :: rest => (b == slash && fits rest) || behindSlash fits rest

def inClass (negated : Bool) (ranges : List (UInt8 × UInt8)) (b : UInt8) : Bool :=
  (ranges.any fun (low, high) => low ≤ b && b ≤ high) != negated

/-- Whether the tokens match the whole path. -/
def fits : List Token → List UInt8 → Bool
  | [], path => path.isEmpty
  | .literal b :: ts, path =>
    match path with
    | c :: rest => b == c && fits ts rest
    | [] => false
  | .anyByte :: ts, path =>
    match path with
    | c :: rest => c != slash && fits ts rest
    | [] => false
  | .byteClass negated ranges :: ts, path =>
    match path with
    | c :: rest => inClass negated ranges c && fits ts rest
    | [] => false
  | .star :: ts, path => someTail (· != slash) (fits ts) path
  | .leading :: ts, path => fits ts path || behindSlash (fits ts) path
  | .below :: ts, path =>
    match path with
    | c :: rest => c == slash && someTail (fun _ => true) (fits ts) rest
    | [] => false
  | .between :: ts, path =>
    match path with
    | c :: rest => c == slash && (fits ts rest || behindSlash (fits ts) rest)
    | [] => false

/-- Two stars alone match every path. -/
def hits (g : Glob) (path : String) : Bool :=
  g == [[.leading]] || g.any fun ts => fits ts path.toUTF8.data.toList

/-- What a bracket opens. A class whose range runs backwards spoils the pattern, and a bracket that
is never closed stands for itself. -/
inductive ClassReading where
  | closed (ranges : List (Char × Char)) (rest : List Char)
  | backwards
  | unclosed

/-- Reads a character class behind its bracket. A closing bracket or a dash that comes first stands
for itself, and so does a dash that comes last. `opened` says that a dash waits for the end of its
range. -/
def readClass (first opened : Bool) (ranges : List (Char × Char)) : List Char → ClassReading
  | [] => .unclosed
  | c :: rest =>
    if c == ']' && !first then .closed (if opened then ('-', '-') :: ranges else ranges) rest
    else if c == '-' && !first && !opened then readClass false true ranges rest
    else match opened, ranges with
      | true, (a, _) :: others =>
        if c < a then .backwards else readClass false false ((a, c) :: others) rest
      | _, _ => readClass false false ((c, c) :: ranges) rest

/-- The bytes of a range of characters. Beyond one byte, the range runs from the last byte of the
first character to the first byte of the last one. -/
def byteRanges : Char × Char → List (UInt8 × UInt8)
  | (a, b) =>
    let single (byte : UInt8) := (byte, byte)
    let low := String.utf8EncodeChar a
    let high := String.utf8EncodeChar b
    if a == b then low.map single
    else low.dropLast.map single ++ [(low.getLastD 0, high.headD 0)] ++ high.tail.map single

/-- One open level of braces: finished alternatives, and those being read. -/
structure Level where
  finished : Glob
  current : Glob
deriving Inhabited

def Level.fresh : Level := ⟨[], [[]]⟩

/-- Appends tokens to every alternative that is being read. -/
def Level.push (l : Level) (ts : List Token) : Level := { l with current := l.current.map (· ++ ts) }

def Level.isFresh (l : Level) : Bool := l.current.all List.isEmpty

/-- Replaces the last token, a slash, by a token for several components. -/
def Level.replaceSlash (l : Level) (t : Token) : Level :=
  { l with current := l.current.map fun ts =>
      match ts.getLast? with
      | some .leading => ts
      | some .below => ts
      | _ => ts.dropLast ++ [t] }

/-- The alternatives of a level. Empty ones do not count, unless there are no others. -/
def Level.choices (l : Level) : Glob :=
  match (l.finished ++ l.current).filter (!·.isEmpty) with
  | [] => [[]]
  | choices => choices

def literals (c : Char) : List Token := (String.utf8EncodeChar c).map .literal

/-- Reads a pattern. `levels` holds the open braces, the innermost first. -/
def readTokens : Nat → Option Char → List Level → List Char → Option Glob
  | 0, _, _, _ => none
  | _ + 1, _, [l], [] => some (l.finished ++ l.current)
  | _ + 1, _, _, [] => none
  | _ + 1, _, [], _ => none
  | fuel + 1, before, l :: outer, c :: rest =>
    let onward (last : Char) (ts : List Token) (rest : List Char) :=
      readTokens fuel (some last) (l.push ts :: outer) rest
    let classOf (negated : Bool) (behind : List Char) :=
      match readClass true false [] behind with
      | .closed ranges rest => onward ']' [.byteClass negated (ranges.flatMap byteRanges)] rest
      | .backwards => none
      | .unclosed => onward c (literals c) rest
    match c, rest with
    | '?', _ => onward c [.anyByte] rest
    | '\\', d :: rest => onward d (literals d) rest
    | '\\', [] => none
    | '[', '!' :: behind => classOf true behind
    | '[', '^' :: behind => classOf true behind
    | '[', _ => classOf false rest
    | '{', _ => readTokens fuel (some c) (.fresh :: l :: outer) rest
    | '}', _ =>
      match outer with
      | [] => none
      | parent :: outer =>
        let joined := parent.current.flatMap fun ts => l.choices.map (ts ++ ·)
        readTokens fuel (some c) ({ parent with current := joined } :: outer) rest
    | ',', _ =>
      if outer.isEmpty then onward c (literals c) rest
      else readTokens fuel (some c) (⟨l.finished ++ l.current, [[]]⟩ :: outer) rest
    | '*', '*' :: rest =>
      let two := onward c [.star, .star] rest
      if l.isFresh then
        match rest with
        | [] => onward c [.leading] []
        | '/' :: rest => onward '/' [.leading] rest
        | _ => two
      else if before != some '/' then two
      else match rest with
        | [] => readTokens fuel (some c) (l.replaceSlash .below :: outer) []
        | '/' :: rest => readTokens fuel (some '/') (l.replaceSlash .between :: outer) rest
        | d :: _ =>
          if (d == ',' || d == '}') && !outer.isEmpty then
            readTokens fuel (some c) (l.replaceSlash .below :: outer) rest
          else two
    | '*', _ => onward c [.star] rest
    | c, _ => onward c (literals c) rest

/-- Reads a pattern; a malformed one matches nothing and is refused. -/
def parse? (pattern : String) : Option Glob :=
  readTokens (pattern.length + 1) none [.fresh] pattern.toList

end Glob

end ProgramSearch
