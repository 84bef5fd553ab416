import OpenApiClient.Proofs.Client.LocalNames

/-!
The parameters that an operation has in effect, in order, and what they are called locally. Each is called what it is
called for the server unless one before it has come to the same identifier, be it that this one was renamed itself.
-/

namespace OpenApiClient

namespace OperationParameter

variable {taken : List String} {p : Parameter} {q : OperationParameter} {parameters before after : List OperationParameter}

-- A parameter called what it is called for the server.
def unnamed (p : OperationParameter) : OperationParameter :=
  { p with localName := p.parameter.name }

-- What the names start with that a parameter gets when its own is taken.
def located (p : Parameter) : String := p.name ++ Naming.joinCapitalized p.location.name

theorem located_ne_name (p : Parameter) (suffix : String) : located p ++ suffix ≠ p.name := by
  have location : (Naming.joinCapitalized p.location.name).toList ≠ [] := by
    cases p.location <;> decide
  intro same
  have chars := congrArg String.toList same
  rw [located, String.toList_append, String.toList_append, List.append_assoc, List.append_right_eq_self] at chars
  exact location (List.append_eq_nil_iff.mp chars).1

theorem tries_freeName (h : fold p.name ∈ taken) : Naming.Tries fold taken (located p) 0 (freeName taken p) := by
  rw [freeName, if_pos h]
  exact Naming.tries_firstFree (fold_numbered_injective p)

theorem freeName_ne_name_iff : freeName taken p ≠ p.name ↔ fold p.name ∈ taken := by
  constructor
  · intro renamed
    by_contra free
    exact renamed (if_neg free)
  · intro there same
    obtain ⟨i, numbered⟩ := (tries_freeName there).exists_form
    rw [Naming.numbered_eq] at numbered
    exact located_ne_name p _ (numbered.symm.trans same)

theorem unnamed_nameApart : (nameApart taken parameters).map unnamed = parameters.map unnamed := by
  induction parameters generalizing taken with
  | nil => rfl
  | cons p rest ih =>
    rw [nameApart, List.map_cons, List.map_cons, ih]
    rfl

-- A parameter is named when those before it have been.
theorem of_nameApart (h : nameApart taken parameters = before ++ q :: after) : ∃ known,
    (∀ name, name ∈ known ↔ name ∈ before.map (fold ·.localName) ∨ name ∈ taken) ∧
      q.localName = freeName known q.parameter := by
  induction before generalizing taken parameters with
  | nil =>
    cases parameters with
    | nil => contradiction
    | cons p rest =>
      obtain ⟨rfl, -⟩ := List.cons.inj h
      exact ⟨taken, by simp, rfl⟩
  | cons first before ih =>
    cases parameters with
    | nil => contradiction
    | cons p rest =>
      obtain ⟨rfl, others⟩ := List.cons.inj h
      obtain ⟨known, same, named⟩ := ih others
      refine ⟨known, fun name => ?_, named⟩
      rw [same, List.mem_cons, List.map_cons, List.mem_cons, or_assoc, or_left_comm]

end OperationParameter

namespace Document

open OperationParameter

-- A parameter as it is written in a list.
structure Written (d : Document) (pointer : String) (place : RefOr Parameter × Nat) (p : OperationParameter) : Prop where
  source : p.source = place.1
  parameter : d.parameterOf place.1 = .ok p.parameter
  pointer : p.pointer = pointer ++ "/parameters/" ++ toString place.2
  localName : p.localName = p.parameter.name

variable {d : Document} {o : OperationSite} {pointer : String} {places : List (RefOr Parameter)}
  {parameters : List OperationParameter}

theorem written_of_parametersAt (h : d.parametersAt pointer places = .ok parameters) :
    List.Forall₂ (d.Written pointer) places.zipIdx parameters := by
  refine forall₂_of_mapM h fun place _ p made => ?_
  simp only [bind_eq_ok, pure_eq_ok] at made
  obtain ⟨parameter, found, rfl⟩ := made
  exact { source := rfl, parameter := found, pointer := rfl, localName := rfl }

theorem unnamed_of_parametersAt (h : d.parametersAt pointer places = .ok parameters) :
    ∀ p ∈ parameters, p.unnamed = p := by
  intro p mem
  obtain ⟨_, _, made⟩ := mem_of_mapM h p mem
  simp only [bind_eq_ok, pure_eq_ok] at made
  obtain ⟨_, _, rfl⟩ := made
  rfl

-- The parameters of an operation are those of its path that it has none for, and its own. They have different
-- identifiers, and are renamed only to keep them so. Looking for a name ends, whatever is taken.
theorem parameters_merged (h : d.operationParameters o = .ok parameters) :
    (∃ shared own, List.Forall₂ (d.Written (OperationSite.pathPointer o.path)) o.item.parameters.zipIdx shared ∧
      List.Forall₂ (d.Written o.pointer) o.operation.parameters.zipIdx own ∧
      parameters.map unnamed = shared.filter (fun p => ∀ q ∈ own,
        ¬ (q.parameter.name = p.parameter.name ∧ q.parameter.location = p.parameter.location)) ++ own) ∧
    (parameters.map (fold ·.localName)).Nodup ∧
    (∀ before p after, parameters = before ++ p :: after →
      (p.localName ≠ p.parameter.name ↔ ∃ q ∈ before, fold q.localName = fold p.parameter.name) ∧
      (p.localName ≠ p.parameter.name →
        Naming.Tries fold (before.map (fold ·.localName)) (located p.parameter) 0 p.localName)) ∧
    ∀ taken p, ∃! name, Naming.Tries fold taken (located p) 0 name := by
  simp only [operationParameters, bind_eq_ok, pure_eq_ok] at h
  obtain ⟨own, ho, shared, hs, rfl⟩ := h
  refine ⟨⟨shared, own, written_of_parametersAt hs, written_of_parametersAt ho, ?_⟩, folds_nameApart.1, ?_,
    fun taken p => ?_⟩
  · have same (p : OperationParameter) : (!own.any fun q => sameWire q.parameter p.parameter) =
        decide (∀ q ∈ own, ¬ (q.parameter.name = p.parameter.name ∧ q.parameter.location = p.parameter.location)) := by
      rw [Bool.eq_iff_iff]
      simp [sameWire]
    rw [unnamed_nameApart, List.map_congr_left (g := id), List.map_id, List.filter_congr fun p _ => same p]
    intro p mem
    rcases List.mem_append.mp mem with mem | mem
    · exact unnamed_of_parametersAt hs p (List.mem_filter.mp mem).1
    · exact unnamed_of_parametersAt ho p mem
  · intro before p after split
    obtain ⟨known, same, named⟩ := of_nameApart split
    simp only [List.not_mem_nil, or_false] at same
    rw [named, freeName_ne_name_iff, same]
    refine ⟨by simp, fun there => ?_⟩
    exact (tries_freeName ((same _).mpr there)).congr same
  · have ends : Naming.Tries fold taken (located p) 0 _ := Naming.tries_firstFree (fold_numbered_injective p)
    exact ⟨_, ends, fun _ other => other.unique ends⟩

end Document

namespace Kennel

-- The identifier of a pet is in the path, in the query and in a header.
def inPath : Parameter where
  name := "petId"
  location := .path

def inQuery : Parameter where
  name := "pet-id"
  location := .query

def inHeader : Parameter where
  name := "petIdQuery"
  location := .header

def limit : Parameter where
  name := "limit"
  location := .query

def find : Operation where
  operationId := some "findPet"
  parameters := [.inline { limit with description := some "At most so many." }, .inline inQuery, .inline inHeader]

def item : PathItem where
  parameters := [.inline limit, .inline inPath]
  get := some find

def document : Document where
  openapi := "3.0.0"
  info := { title := "Kennel", version := "1" }
  paths := [("/pets", item)]

def site : OperationSite where
  path := "/pets"
  item := item
  method := .get
  operation := find

end Kennel

theorem Document.kennel_merged : Kennel.site ∈ Kennel.document.operations ∧ ∃ parameters,
    Kennel.document.operationParameters Kennel.site = .ok parameters ∧
    parameters.map (fun p => (p.pointer, p.localName)) =
      [("#/paths/~1pets/parameters/1", "petId"), ("#/paths/~1pets/get/parameters/0", "limit"),
        ("#/paths/~1pets/get/parameters/1", "pet-idQuery"), ("#/paths/~1pets/get/parameters/2", "petIdQueryHeader")] ∧
    (parameters.map (OperationParameter.fold ·.localName)).Nodup := by
  have computed : (Kennel.document.operationParameters Kennel.site).toOption.map
      (fun parameters => parameters.map fun p => (p.pointer, p.localName)) =
    some [("#/paths/~1pets/parameters/1", "petId"), ("#/paths/~1pets/get/parameters/0", "limit"),
      ("#/paths/~1pets/get/parameters/1", "pet-idQuery"),
      ("#/paths/~1pets/get/parameters/2", "petIdQueryHeader")] := by decide +kernel
  obtain ⟨parameters, hp, names⟩ := exists_ok computed
  exact ⟨List.mem_singleton_self _, parameters, hp, names, (parameters_merged hp).2.1⟩

end OpenApiClient
