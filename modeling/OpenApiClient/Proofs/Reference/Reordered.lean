import OpenApiClient.Operation.Parameter
import OpenApiClient.Index.Response
import OpenApiClient.Proofs.Distinct
import OpenApiClient.Proofs.Reference.Step

/-!
The order in which a document lists the schemas of its components. No reference leads anywhere else in another order, and
none fails in another way.
-/

namespace OpenApiClient

namespace Entries

variable {α : Type} {entries others : List (String × α)} {key : String}

theorem get?_eq_of_perm (hd : Distinct entries) (h : entries.Perm others) : get? key entries = get? key others := by
  have distinct : Distinct others := (h.map _).nodup hd
  cases found : get? key others with
  | some value => exact get?_of_mem hd (h.mem_iff.mpr (mem_of_get? found))
  | none =>
    cases found' : get? key entries with
    | none => rfl
    | some value =>
      have := get?_of_mem distinct (h.mem_iff.mp (mem_of_get? found'))
      simp [this] at found

end Entries

namespace Document

-- The document with other schemas for components, or with the same ones in another order.
def withSchemas (d : Document) (schemas : List (String × SchemaRef)) : Document :=
  { d with components := d.components.map fun c => { c with schemas } }

end Document

-- What can stand in the place of a node once the schemas of the components are listed in another order.
inductive Node.Reordered (d : Document) (schemas : List (String × SchemaRef)) : Node → Node → Prop
  | document : Reordered d schemas (.document d) (.document (d.withSchemas schemas))
  | components {c} : d.components = some c → Reordered d schemas (.components c) (.components { c with schemas })
  | schemaMap {c} : d.components = some c → Reordered d schemas (.schemaMap c.schemas) (.schemaMap schemas)
  | same {node} : Reordered d schemas node node

-- Two ways to a node that both break at one segment, or lead to nodes that can stand in each other's place.
inductive Node.SameWay {ε : Type} (d : Document) (schemas : List (String × SchemaRef)) :
    Except ε Node → Except ε Node → Prop
  | error {e} : SameWay d schemas (.error e) (.error e)
  | ok {node node'} : node.Reordered d schemas node' → SameWay d schemas (.ok node) (.ok node')

namespace Node

variable {d : Document} {schemas : List (String × SchemaRef)} {node node' : Node} {segment : String}

theorem Reordered.option_same {found : Option Node} : Option.Rel (Reordered d schemas) found found := by
  cases found with
  | none => exact .none
  | some => exact .some .same

theorem Reordered.option_of_map {α : Type} {found : Option α} {before after : α → Node}
    (h : ∀ a ∈ found, (before a).Reordered d schemas (after a)) :
    Option.Rel (Reordered d schemas) (found.map before) (found.map after) := by
  cases found with
  | none => exact .none
  | some a => exact .some (h a rfl)

theorem Reordered.step? (hd : d.Distinct) (hp : schemas.Perm d.componentSchemas) (h : node.Reordered d schemas node') :
    Option.Rel (Reordered d schemas) (node.step? segment) (node'.step? segment) := by
  cases h with
  | same => exact option_same
  | document =>
    change Option.Rel _ (if segment = "components" then d.components.map Node.components else _)
      (if segment = "components" then (d.components.map fun c => { c with schemas }).map Node.components else _)
    split
    case isTrue =>
      rw [Option.map_map]
      exact option_of_map fun c hc => .components hc
    case isFalse => exact option_same
  | @components c hc =>
    change Option.Rel _ (if segment = "schemas" then some (Node.schemaMap c.schemas) else _)
      (if segment = "schemas" then some (Node.schemaMap schemas) else _)
    split
    case isTrue => exact .some (.schemaMap hc)
    case isFalse => exact option_same
  | @schemaMap c hc =>
    have listed : d.componentSchemas = c.schemas := by simp [Document.componentSchemas, hc]
    rw [step?_schemaMap, step?_schemaMap,
      Entries.get?_eq_of_perm (hd.components c hc).schemas.distinct (listed ▸ hp).symm]
    exact option_same

theorem SameWay.mapError {ε ε' : Type} {x y : Except ε Node} (h : SameWay d schemas x y) (f : ε → ε') :
    SameWay d schemas (x.mapError f) (y.mapError f) := by
  cases h with
  | error => exact .error
  | ok h => exact .ok h

theorem Reordered.walk (hd : d.Distinct) (hp : schemas.Perm d.componentSchemas) (h : node.Reordered d schemas node')
    (way : List String) : SameWay d schemas (node.walk way) (node'.walk way) := by
  induction way generalizing node node' with
  | nil => exact .ok h
  | cons segment rest ih =>
    have step : Option.Rel _ (node.step? segment) (node'.step? segment) := h.step? hd hp
    unfold Node.walk
    generalize node.step? segment = next at step
    generalize node'.step? segment = next' at step
    cases step with
    | none => exact .error
    | some h => exact ih h

end Node

namespace Reference

variable {d : Document} {schemas : List (String × SchemaRef)} {α : Type} {target : Target α}

-- What is expected is not one of the nodes whose content is in order.
structure Target.Ordered (target : Target α) : Prop where
  document (d : Document) : target.pick? (.document d) = none
  components (c : Components) : target.pick? (.components c) = none
  schemaMap (entries : List (String × SchemaRef)) : target.pick? (.schemaMap entries) = none

theorem Target.ordered_schema : Target.schema.Ordered :=
  ⟨fun _ => rfl, fun _ => rfl, fun _ => rfl⟩

theorem Target.ordered_response : Target.response.Ordered :=
  ⟨fun _ => rfl, fun _ => rfl, fun _ => rfl⟩

theorem Target.ordered_parameter : Target.parameter.Ordered :=
  ⟨fun _ => rfl, fun _ => rfl, fun _ => rfl⟩

theorem Target.ordered_requestBody : Target.requestBody.Ordered :=
  ⟨fun _ => rfl, fun _ => rfl, fun _ => rfl⟩

end Reference

namespace Document

open Reference

variable {d : Document} {schemas : List (String × SchemaRef)} {α : Type} {target : Target α}

theorem resolve_withSchemas (hd : d.Distinct) (hp : schemas.Perm d.componentSchemas) (reference : String) :
    Node.SameWay d schemas (d.resolve reference) ((d.withSchemas schemas).resolve reference) := by
  unfold resolve
  cases Pointer.segments reference with
  | error => exact .error
  | ok way => exact (Node.Reordered.document.walk hd hp way).mapError _

theorem follow_withSchemas (hd : d.Distinct) (hp : schemas.Perm d.componentSchemas) (ht : target.Ordered)
    (seen : List String) (current : String) (steps : Nat) :
    follow (d.withSchemas schemas).look target seen current steps = follow d.look target seen current steps := by
  induction steps generalizing seen current with
  | zero => rfl
  | succ steps ih =>
    have resolved := resolve_withSchemas hd hp current
    have look (d : Document) : d.look current = (.mk (d.resolve current) : ExceptT ResolveError Id Node) := rfl
    unfold follow
    rw [look, look]
    generalize d.resolve current = found at resolved
    generalize (d.withSchemas schemas).resolve current = found' at resolved
    cases resolved with
    | error => rfl
    | ok reordered =>
      have found (node : Node) (f : Node → ExceptT ResolveError Id (String × α)) :
          (ExceptT.mk (.ok node : Except ResolveError Node) >>= f : ExceptT ResolveError Id _) = f node := rfl
      rw [found, found]
      cases reordered with
      | same => simp only [ih]
      | document => rw [ht.document, ht.document]; rfl
      | components hc => rw [ht.components, ht.components]; rfl
      | schemaMap hc => rw [ht.schemaMap, ht.schemaMap]; rfl

theorem entryReferences_eq (entries : List (String × SchemaRef)) :
    Schema.entryReferences entries = entries.flatMap fun entry => Schema.refReferences entry.2 := by
  induction entries <;> simp_all [Schema.entryReferences]

theorem maxSteps_withSchemas (hp : schemas.Perm d.componentSchemas) : (d.withSchemas schemas).maxSteps = d.maxSteps := by
  cases hc : d.components with
  | none => simp [maxSteps, references, withSchemas, hc]
  | some c =>
    have listed : d.componentSchemas = c.schemas := by simp [componentSchemas, hc]
    have same : (Schema.entryReferences schemas).length = (Schema.entryReferences c.schemas).length := by
      rw [entryReferences_eq, entryReferences_eq]
      exact ((listed ▸ hp).flatMap_right _).length_eq
    simp [maxSteps, references, withSchemas, hc, Components.references, same]

-- The chain that starts with a reference has the same end, or breaks for the same reason.
theorem destination_withSchemas (hd : d.Distinct) (hp : schemas.Perm d.componentSchemas) (ht : target.Ordered)
    (reference : String) : (d.withSchemas schemas).destination target reference = d.destination target reference := by
  unfold destination Reference.destination
  rw [maxSteps_withSchemas hp, follow_withSchemas hd hp ht]

theorem operationParameters_withSchemas (hd : d.Distinct) (hp : schemas.Perm d.componentSchemas) (o : OperationSite) :
    (d.withSchemas schemas).operationParameters o = d.operationParameters o := by
  have parameterOf (p : RefOr Parameter) : (d.withSchemas schemas).parameterOf p = d.parameterOf p := by
    cases p with
    | inline => rfl
    | ref reference =>
      simp only [Document.parameterOf, valueOf, destination_withSchemas hd hp Target.ordered_parameter]
  simp only [operationParameters, parametersAt, parameterOf]

-- So the responses are found whatever the order of schemas is.
theorem responseIndex_withSchemas (hd : d.Distinct) (hp : schemas.Perm d.componentSchemas) :
    (d.withSchemas schemas).responseIndex = d.responseIndex := by
  have sites : (d.withSchemas schemas).responseSites = d.responseSites := by
    have components : (d.withSchemas schemas).componentResponseSites = d.componentResponseSites := by
      cases hc : d.components <;> simp [componentResponseSites, withSchemas, hc]
    rw [responseSites, components]
    rfl
  have add : (d.withSchemas schemas).addResponse = d.addResponse := by
    funext m site
    unfold addResponse
    simp only [destination_withSchemas hd hp Target.ordered_response]
  rw [responseIndex, sites, add]
  rfl

end Document

end OpenApiClient
