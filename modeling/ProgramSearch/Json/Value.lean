/-!
# JSON values

A value as the library handles it: members of an object stay in the order given, and `normal`
sorts them and lets the last of equal keys win. Equality of values is `same`.
-/
namespace ProgramSearch.Json

/-- Integers stay apart from floating numbers, also when they denote the same real. -/
inductive Number where
  | integer (n : Int)
  | double (x : Float)
  | single (x : Float32)
deriving Inhabited, Repr

inductive Value where
  | null
  | bool (b : Bool)
  | number (n : Number)
  | string (s : String)
  | array (items : List Value)
  | object (members : List (String × Value))
deriving Inhabited, Repr

namespace Value

abbrev nat (n : Nat) : Value := .number (.integer n)

abbrev strings (ss : List String) : Value := .array (ss.map .string)

/-- The value of the first member named `key`; nothing for a value that is no object. -/
def get? (v : Value) (key : String) : Option Value :=
  match v with
  | .object members => members.lookup key
  | _ => none

def string? : Value → Option String
  | .string s => some s
  | _ => none

def array? : Value → Option (List Value)
  | .array items => some items
  | _ => none

def isNull : Value → Bool
  | .null => true
  | _ => false

end Value

/-- Sets what stands under a key in a list that is sorted by key. -/
def setMember {α : Type} (key : String) (a : α) : List (String × α) → List (String × α)
  | [] => [(key, a)]
  | (k, b) :: rest =>
    if key < k then (key, a) :: (k, b) :: rest
    else if k < key then (k, b) :: setMember key a rest
    else (key, a) :: rest

mutual

/-- Sorted members, the last of equal keys, at every level. -/
def Value.normal : Value → Value
  | .array items => .array (normalItems items)
  | .object members => .object (normalMembers [] members)
  | v => v

def normalItems : List Value → List Value
  | [] => []
  | v :: rest => v.normal :: normalItems rest

def normalMembers (done : List (String × Value)) : List (String × Value) → List (String × Value)
  | [] => done
  | (k, v) :: rest => normalMembers (setMember k v.normal done) rest

end

/-- Doubles are the same when they have one bit pattern, or are the two zeros. -/
def sameDouble (x y : Float) : Bool :=
  x.toBits == y.toBits || (x == 0 && y == 0)

def Number.same : Number → Number → Bool
  | .integer m, .integer n => m == n
  | .double x, .double y => sameDouble x y
  | .single x, .single y => x.toBits == y.toBits || (x == 0 && y == 0)
  | _, _ => false

mutual

/-- Equality, member by member in the order given; integers and doubles differ. -/
def Value.same : Value → Value → Bool
  | .null, .null => true
  | .bool a, .bool b => a == b
  | .number m, .number n => m.same n
  | .string s, .string t => s == t
  | .array xs, .array ys => sameItems xs ys
  | .object xs, .object ys => sameMembers xs ys
  | _, _ => false

def sameItems : List Value → List Value → Bool
  | [], [] => true
  | x :: xs, y :: ys => x.same y && sameItems xs ys
  | _, _ => false

def sameMembers : List (String × Value) → List (String × Value) → Bool
  | [], [] => true
  | (k, x) :: xs, (l, y) :: ys => k == l && x.same y && sameMembers xs ys
  | _, _ => false

end

mutual

/-- Singles become doubles, and numbers that JSON cannot write become null. -/
def Value.widen : Value → Value
  | .number (.single x) => if x.isFinite then .number (.double x.toFloat) else .null
  | .number (.double x) => if x.isFinite then .number (.double x) else .null
  | .array items => .array (widenItems items)
  | .object members => .object (widenMembers members)
  | v => v

def widenItems : List Value → List Value
  | [] => []
  | v :: rest => v.widen :: widenItems rest

def widenMembers : List (String × Value) → List (String × Value)
  | [] => []
  | (k, v) :: rest => (k, v.widen) :: widenMembers rest

end

end ProgramSearch.Json
