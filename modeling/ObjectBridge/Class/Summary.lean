import ObjectBridge.Class.Table

/-!
# Descriptions of classes as values

What host code learns when it asks for a class, a method or the whole table: maps from the names of
the properties to their values.
-/

namespace ObjectBridge

namespace EnumType

/-- The name and the entries of an enumeration. Of entries with one name, the last payload and the
first place count. -/
def summary (t : EnumType) : Value :=
  let entries := t.entries.foldl (fun m entry => ValueMap.setField entry.1 (.int entry.2) m) []
  .map (ValueMap.record [("name", .text t.name), ("entries", .map entries)])

end EnumType

namespace Candidates

/-- Where overloads were found, their declarations and the sorts of their bodies. -/
def summary (cells : Cells) (method : String) (c : Candidates) : Value :=
  let declared := c.overloads.map fun o => Value.text (o.sig.render cells method)
  let sorts := c.overloads.map fun o => Value.text o.body.sort
  .map (ValueMap.record
    [("owner", .text c.owner), ("overloads", .list declared), ("bodies", .list sorts)])

end Candidates

namespace ClassTable

/-- An optional value, with nil for none. -/
def orNil (v : Option Value) : Value :=
  v.getD .nil

/-- A number as a value. -/
def number (n : Nat) : Value :=
  .int (Int64.ofNat n)

/-- The line that identifies a class in diagnostics. -/
def debugLine (c : ClassInfo) : String :=
  let classId (id : ClassId) := "ClassId(" ++ Text.naturalText id ++ ")"
  let base := (c.base.map fun id => "Some(" ++ classId id ++ ")").getD "None"
  "ClassDescriptor \x7b id: " ++ classId c.id ++ ", name: " ++ Text.quoted c.name ++ ", base: " ++
    base ++ ", kind: " ++ c.kind.name ++ ", methods: " ++ Text.naturalText c.methods.length ++
    " \x7d"

/-- The properties of a class. -/
def summary (t : ClassTable) (cells : Cells) (c : ClassInfo) : Value :=
  .map (ValueMap.record [
    ("id", number c.id),
    ("name", .text c.name),
    ("base", orNil (c.base.map fun id => .text (t.nameOf id))),
    ("kind", .text c.kind.name),
    ("host", .bool c.overrides.isSome),
    ("methods", .list (c.methodNames.map Value.text)),
    ("ancestors", .list ((t.ancestors c.id).map fun a => .text a.name)),
    ("descendants", .list ((t.descendants c.id).map number)),
    ("lazy", .bool (t.findLazy c.id).isSome),
    ("ctors", orNil ((t.findConstructors c.id).map (Candidates.summary cells "new"))),
    ("debug", .text (debugLine c))])

/-- What a class knows under the name of a method or event. -/
def methodSummary (t : ClassTable) (cells : Cells) (id : ClassId) (method : String) : Value :=
  let own := ((t.get? id).bind fun c => c.method? method).map fun os => number os.length
  let event := (t.findEvent id method).map fun e =>
    Value.list (e.params.map fun p => .text (p.display cells))
  .map (ValueMap.record [
    ("found", orNil ((t.findMethod id method).map (Candidates.summary cells method))),
    ("virtual", .bool (t.isVirtual id method)),
    ("own", orNil own),
    ("event", orNil event)])

/-- The size of the table and the names of its classes, and the name of the number after them. -/
def tableSummary (t : ClassTable) : Value :=
  let names := (List.range (t.classes.length + 1)).map fun id => Value.text (t.nameOf id)
  .map (ValueMap.record [
    ("len", number t.classes.length),
    ("empty", .bool t.classes.isEmpty),
    ("next", number t.nextId),
    ("names", .list names)])

end ClassTable

end ObjectBridge
