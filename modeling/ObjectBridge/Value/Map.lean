import ObjectBridge.Value.Equality

/-!
# Maps in insertion order

A map is the list of its entries, each with a key of its own. Keys are compared by an equality
that the caller supplies, since keys may hold boxes.

* Inserting under a key that is present replaces the value and keeps the key and its place;
  otherwise the entry goes to the end.
* Removing an entry leaves the order of the others.
-/

namespace ObjectBridge.ValueMap

/-- The value under a key. -/
def get? (same : Value → Value → Bool) (key : Value) : ValueMap → Option Value
  | [] => none
  | (k, v) :: rest => if same k key then some v else get? same key rest

/-- Put a value under a key. -/
def insert (same : Value → Value → Bool) (key value : Value) : ValueMap → ValueMap
  | [] => [(key, value)]
  | (k, v) :: rest =>
      if same k key then (k, value) :: rest else (k, v) :: insert same key value rest

/-- Take the entry of a key away. -/
def erase (same : Value → Value → Bool) (key : Value) : ValueMap → ValueMap
  | [] => []
  | (k, v) :: rest => if same k key then rest else (k, v) :: erase same key rest

/-- The map that successive inserts build. -/
def ofEntries (same : Value → Value → Bool) (entries : List (Value × Value)) : ValueMap :=
  entries.foldl (fun m entry => insert same entry.1 entry.2 m) []

/-- The map from texts to values with the given entries; the texts are distinct. -/
def record (fields : List (String × Value)) : ValueMap :=
  fields.map fun (name, value) => (.text name, value)

/-- Whether a key is the text given. -/
def isText (name : String) : Value → Bool
  | .text s => s == name
  | _ => false

/-- The value under a text. -/
def field? (name : String) : ValueMap → Option Value
  | [] => none
  | (k, v) :: rest => if isText name k then some v else field? name rest

/-- Put a value under a text. -/
def setField (name : String) (value : Value) : ValueMap → ValueMap
  | [] => [(.text name, value)]
  | (k, v) :: rest =>
      if isText name k then (k, value) :: rest else (k, v) :: setField name value rest

/-- A step in the life of a map. -/
inductive Step where
  | insert (key value : Value)
  | get (key : Value)
  | remove (key : Value)

/-- Take a step: the value that the key had, and the map afterwards. -/
def take (same : Value → Value → Bool) (m : ValueMap) : Step → Option Value × ValueMap
  | .insert key value => (m.get? same key, m.insert same key value)
  | .get key => (m.get? same key, m)
  | .remove key => (m.get? same key, m.erase same key)

end ObjectBridge.ValueMap
