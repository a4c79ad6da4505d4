/-! The content of a configuration document, a tree of values and tables. Tables keep their entries
in the order of their keys' first appearance, and each remembers how it came to be, on which
depends what may still be added to it. -/

namespace Durability.Config

inductive TableForm where
  /-- It is the document, or a header names it. -/
  | header
  /-- Headers name only tables within it. -/
  | implied
  /-- A dotted key passes through it. -/
  | dotted
  /-- It stands in braces. -/
  | braces
  /-- A dotted key passes through it within braces. -/
  | bracesDotted
  deriving DecidableEq, Repr

inductive Node where
  | text (characters : String)
  | integer (value : Int)
  | float (value : Float)
  | boolean (value : Bool)
  /-- A date, a time of day or both. No setting is one, so that its fields are not kept. -/
  | moment
  | array (items : List Node)
  | table (form : TableForm) (entries : List (String × Node))
  /-- The tables that repeated headers in double brackets give. -/
  | tables (items : List (List (String × Node)))

abbrev Entries := List (String × Node)

inductive Route where
  /-- To the table that a header names. -/
  | header
  /-- To the table in which a dotted key defines a value. -/
  | dotted
  /-- To the same within braces. -/
  | bracesDotted
  deriving DecidableEq, Repr

namespace TableForm

def isDotted : TableForm → Bool
  | dotted | bracesDotted => true
  | _ => false

end TableForm

namespace Route

def makes : Route → TableForm
  | header => .implied
  | dotted => .dotted
  | bracesDotted => .bracesDotted

/-- Whether the way may lead into a table. Braces close a table for what follows them, and dotted
keys add nothing to a table that has a header. -/
def enters : Route → TableForm → Bool
  | header, form => form = .header ∨ form = .implied ∨ form = .dotted
  | dotted, form => form = .implied ∨ form = .dotted
  | bracesDotted, form => form = .bracesDotted

end Route

namespace Entries

def replace (entries : Entries) (key : String) (node : Node) : Entries :=
  entries.map fun entry => if entry.1 = key then (key, node) else entry

def erase (entries : Entries) (key : String) : Entries :=
  entries.filter fun entry => entry.1 ≠ key

def insert? (entries : Entries) (key : String) (node : Node) : Option Entries :=
  if (entries.lookup key).isSome then none else some (entries ++ [(key, node)])

/-- Changes the table to which `path` leads from a table of the given form, making the tables that
are missing on the way. Of tables that repeat, the last one is meant. There is no way through a
value. -/
def alter? (route : Route) (change : TableForm → Entries → Option Entries) :
    (path : List String) → (form : TableForm) → Entries → Option Entries
  | [], form, entries => change form entries
  | key :: path, _, entries =>
    match entries.lookup key with
    | none => do
      let inner ← alter? route change path route.makes []
      some (entries ++ [(key, .table route.makes inner)])
    | some (.table form inner) =>
      if route.enters form then do
        let inner ← alter? route change path form inner
        some (replace entries key (.table form inner))
      else none
    | some (.tables items) => do
      let inner ← alter? route change path .header (items.getLast?.getD [])
      some (replace entries key (.tables (items.dropLast ++ [inner])))
    | some _ => none

/-- Defines a value under a dotted key. The table that receives it is the one at hand if the key
has a single part, and otherwise one that dotted keys made. -/
def define? (entries : Entries) (route : Route) (path : List String) (key : String)
    (node : Node) : Option Entries :=
  entries.alter? route
    (fun form inner =>
      if form.isDotted = path.isEmpty then none else inner.insert? key node)
    path .header

end Entries

end Durability.Config
