import OpenApiClient.Index.Step

/-!
The schemas of a document by name. All of them can be found by pointer, and those that are more than
primitive by name. A reference keeps the name of what it leads to.
-/

namespace OpenApiClient

structure NamedSchema where
  name : String
  schema : Schema
  kind : SchemaKind
  -- Where it was found first.
  origin : String

-- The schemas found, in order; no two have one name. `positions` gives the name at each pointer,
-- latest first, whether there is a class for it or not.
structure SchemaIndex where
  entries : List NamedSchema := []
  positions : List (String × String) := []

namespace SchemaIndex

def get? (m : SchemaIndex) (name : String) : Option NamedSchema :=
  m.entries.find? (·.name == name)

def classes (m : SchemaIndex) : List NamedSchema := m.entries.filter (·.kind.hasClass)

def nameAt? (m : SchemaIndex) (pointer : String) : Option String := m.positions.lookup pointer

-- The name for what a reference leads to: a component is named by its key, anything else by what
-- was found there.
def nameOf (m : SchemaIndex) (terminal : String) : Except BuildError String := do
  match ← Pointer.segments terminal with
  | ["components", "schemas", key] => Naming.ofComponentKey key
  | _ =>
    match m.nameAt? (← Pointer.canonical terminal) with
    | some name => return name
    | none => throw (.naming (.unnamedReference terminal))

def insert (m : SchemaIndex) (found : NamedSchema) : Except NamingError SchemaIndex :=
  match m.get? found.name with
  | none => .ok { m with entries := m.entries ++ [found] }
  | some first =>
    if first.schema.same found.schema then .ok m
    else .error (.nameCollision found.name first.origin found.origin)

end SchemaIndex

namespace SchemaPosition

-- How deep named schemas may lie in each other.
def maxDepth : Nat := 64

-- Names the schema at a position. A name may not recur among those around it. A schema without a
-- class is only remembered by its position.
def record (p : SchemaPosition) (m : SchemaIndex) : Except NamingError SchemaIndex :=
  if p.name ∈ p.enclosing ∨ maxDepth ≤ p.enclosing.length then
    .error (.cyclicSchema (p.enclosing ++ [p.name]))
  else
    let m := { m with positions := (p.pointer, p.name) :: m.positions }
    let kind := p.schema.kind
    if kind = .primitive then .ok m
    else m.insert { name := p.name, schema := p.schema, kind, origin := p.pointer }

end SchemaPosition

namespace Document

-- A reference has to lead to what is expected; its target is named where it stands.
def takeStep (d : Document) (m : SchemaIndex) : IndexStep → Except BuildError SchemaIndex
  | .visit position => position.record m
  | .followSchema target => do let _ ← d.destination .schema target; return m
  | .followRequestBody target => do let _ ← d.destination .requestBody target; return m
  | .followParameter target => do let _ ← d.destination .parameter target; return m
  | .fail error => throw error

def schemaIndex (d : Document) (responses : ResponseIndex) : Except BuildError SchemaIndex :=
  (d.indexSteps responses).foldlM d.takeStep {}

end Document

end OpenApiClient
