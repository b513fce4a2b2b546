/-!
# TOML values and tables

The value of a document, and the tables under construction while it is read. How a table came to
be decides what may still be added to it: nothing is defined twice, a table with a header of its
own is not extended by dotted keys, and a table made by dotted keys gets no header.
-/
namespace ProgramSearch.Toml

inductive Value where
  | string (s : String)
  | integer (n : Int)
  | float (x : Float)
  | bool (b : Bool)
  /-- A date, a time or both, as written. -/
  | date (text : String)
  | array (items : List Value)
  | table (members : List (String × Value))
deriving Inhabited, Repr

/-- How a table came to be: by its header, by the header of a table inside it, or by a dotted
key. -/
inductive Origin where
  | header
  | implied
  | dotted
deriving DecidableEq, Repr

/-- A member of a table that is being built. A value is finished; of an array of tables only the
last is open. -/
inductive Node where
  | value (v : Value)
  | table (origin : Origin) (members : List (String × Node))
  | tables (items : List (List (String × Node)))
deriving Inhabited, Repr

abbrev Members := List (String × Node)

mutual

/-- The value of a finished member. -/
def Node.close : Node → Value
  | .value v => v
  | .table _ members => .table (closeMembers members)
  | .tables items => .array (closeTables items)

def closeMembers : List (String × Node) → List (String × Value)
  | [] => []
  | (key, node) :: rest => (key, node.close) :: closeMembers rest

def closeTables : List (List (String × Node)) → List Value
  | [] => []
  | members :: rest => .table (closeMembers members) :: closeTables rest

end

namespace Members

/-- Replaces the member of a key. -/
def set (members : Members) (key : String) (node : Node) : Members :=
  members.map fun (k, old) => (k, if k == key then node else old)

/-- Changes the table at the end of a path, and makes the tables that are missing on the way.
Dotted keys do not lead into a table that has a header. -/
def descend (dotted : Bool) (change : Origin → Members → Option Members) :
    List String → Origin → Members → Option Members
  | [], origin, members => change origin members
  | key :: path, _, members =>
    match members.lookup key with
    | none => do
      let origin := if dotted then Origin.dotted else .implied
      let inner ← descend dotted change path origin []
      return members ++ [(key, .table origin inner)]
    | some (.value _) => none
    | some (.table origin inner) =>
      if dotted && origin == .header then none
      else do
        let inner ← descend dotted change path origin inner
        return members.set key (.table origin inner)
    | some (.tables items) =>
      match items.getLast? with
      | none => none
      | some last => do
        let last ← descend dotted change path .header last
        return members.set key (.tables (items.dropLast ++ [last]))

/-- Adds the value of a key that is new. -/
def addValue (members : Members) (key : String) (v : Value) : Option Members :=
  match members.lookup key with
  | some _ => none
  | none => some (members ++ [(key, .value v)])

/-- Adds the value of a dotted key. Only tables made by dotted keys take it up. -/
def assign (members : Members) (path : List String) (key : String) (v : Value) : Option Members :=
  descend true (fun origin members =>
    if (origin == .dotted) == path.isEmpty then none else members.addValue key v)
    path .header members

/-- Gives a table its header. -/
def openTable (members : Members) (path : List String) (key : String) : Option Members :=
  descend false (fun _ members =>
    match members.lookup key with
    | none => some (members ++ [(key, .table .header [])])
    | some (.table .implied inner) => some (members.set key (.table .header inner))
    | some _ => none) path .header members

/-- Adds a table to an array of tables. -/
def openElement (members : Members) (path : List String) (key : String) : Option Members :=
  descend false (fun _ members =>
    match members.lookup key with
    | none => some (members ++ [(key, .tables [[]])])
    | some (.tables items) => some (members.set key (.tables (items ++ [[]])))
    | some _ => none) path .header members

end Members

end ProgramSearch.Toml
