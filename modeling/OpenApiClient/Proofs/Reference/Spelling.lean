import OpenApiClient.Proofs.Index.OneName

/-!
Spellings of references. Once a reference is decoded, only positions in lists can still be written in more
than one way, so that each place has one spelling in which no position has a sign. The walk spells the
places of schemas like this; a reference with a sign is taken for one to another place.
-/

namespace OpenApiClient

open Pointer

namespace Node

-- A segment as it is written at a node: a position in a list as numbers are, a key as it is.
def spell (node : Node) (segment : String) : String :=
  if node.isList then ((position? segment).map toString).getD segment else segment

-- The way with each segment as it is written where the way has led so far.
def spelled (start : Node) : List String → List String
  | [] => []
  | segment :: rest =>
    start.spell segment :: match start.step? segment with
      | some next => next.spelled rest
      | none => rest

-- No position in a list has a sign.
def unsigned (start : Node) : List String → Bool
  | [] => true
  | segment :: rest =>
    !(start.isList && segment.toList.head? == some '+') && match start.step? segment with
      | some next => next.unsigned rest
      | none => true

variable {start node next : Node} {segment : String} {way : List String}

theorem position_of_step? (hl : node.isList) (h : node.step? segment = some next) :
    ∃ i, position? segment = some i := by
  cases node <;> simp only [isList, Bool.false_eq_true] at hl
  case schemaList | parameterList =>
    obtain ⟨_, hi, -⟩ := Option.map_eq_some_iff.mp h
    exact (item?_eq_some hi).imp fun _ => And.left

theorem step?_of_position? {other : String} (hl : node.isList) (h : position? other = position? segment) :
    node.step? other = node.step? segment := by
  cases node <;> simp only [isList, Bool.false_eq_true] at hl
  case schemaList | parameterList => simp only [step?, item?, h]

-- It makes no difference to where a segment leads how it is spelled.
theorem step?_spell (h : node.step? segment = some next) : node.step? (node.spell segment) = some next := by
  unfold spell
  split
  case isTrue hl =>
    obtain ⟨i, hi⟩ := position_of_step? hl h
    rw [hi, Option.map_some, Option.getD_some, ← h]
    refine step?_of_position? hl ?_
    rw [position?_toString, if_pos (le_of_position? hi), hi]
  case isFalse => exact h

theorem spell_eq_iff (h : node.step? segment = some next) :
    node.spell segment = segment ↔ !(node.isList && segment.toList.head? == some '+') := by
  unfold spell
  split
  case isTrue hl =>
    obtain ⟨i, hi⟩ := position_of_step? hl h
    simpa [hl, hi] using toString_eq_iff hi
  case isFalse hl => simp [hl]

example : (schemaList [.inline {}]).spell "+0" = "0" := by decide +kernel

@[simp] theorem written_repr (i : Nat) : ((position? i.repr).map toString).getD i.repr = i.repr := by
  rw [← Nat.toString_eq_repr, position?_toString]
  split <;> rfl

@[simp] theorem spelled_nil : start.spelled [] = [] :=
  rfl

@[simp] theorem spelled_cons_eq_iff {rest : List String} :
    start.spelled (segment :: rest) = segment :: rest ↔ start.spell segment = segment ∧
      ∀ next, start.step? segment = some next → next.spelled rest = rest := by
  rw [spelled, List.cons.injEq]
  cases start.step? segment <;> simp

theorem walk_spelled (h : start.walk way = .ok node) : start.walk (start.spelled way) = .ok node := by
  induction way generalizing start with
  | nil => exact h
  | cons segment rest ih =>
    obtain ⟨next, hs, hw⟩ := walk_cons_eq_ok.mp h
    simp only [spelled, hs]
    exact walk_cons_eq_ok.mpr ⟨next, step?_spell hs, ih hw⟩

theorem spelled_eq_iff (h : start.walk way = .ok node) : start.spelled way = way ↔ start.unsigned way := by
  induction way generalizing start with
  | nil => simp [spelled, unsigned]
  | cons segment rest ih =>
    obtain ⟨next, hs, hw⟩ := walk_cons_eq_ok.mp h
    simp only [spelled, unsigned, hs, List.cons.injEq, spell_eq_iff hs, ih hw, Bool.and_eq_true]

theorem spelled_append (start : Node) (a b : List String) : start.spelled (a ++ b) =
    start.spelled a ++ match start.walk a with
      | .ok next => next.spelled b
      | .error _ => b := by
  induction a generalizing start with
  | nil => rfl
  | cons segment a ih =>
    simp only [List.cons_append, spelled, walk]
    cases start.step? segment with
    | none => rfl
    | some next => exact congrArg _ (ih next)

-- Ways that are spelled as they should be are put together to such a way.
theorem Reaches.spelled_append {mid : Node} {a b : List String} (h : start.Reaches a mid)
    (ha : start.spelled a = a) (hb : mid.spelled b = b) : start.spelled (a ++ b) = a ++ b := by
  rw [Node.spelled_append, ha]
  cases hw : start.walk a with
  | error => rfl
  | ok next =>
    cases h next hw
    exact congrArg _ hb

end Node

namespace Schema

variable {s s' : Schema} {name name' : String} {rest : List String}

theorem spelled_role (role : Role) : (Node.schema s).spelled role.segments = role.segments := by
  cases role <;> simp [Role.segments, Node.spell, Node.isList]

theorem Below.spelled (h : s.Below name rest name' s') (hd : s.Distinct) :
    (Node.schema s).spelled rest = rest := by
  induction h with
  | part hs => exact spelled_role _
  | deeper hs _ ih => exact (hs.reaches hd).spelled_append (spelled_role _) (ih (hd.part hs))
  | @merged _ s i _ _ _ _ hm _ ih =>
    have member : (Node.schema s).spelled ["allOf", toString i] = ["allOf", toString i] := by
      simp [Node.spell, Node.isList]
    exact hm.reaches.spelled_append member (ih (hd.member hm))

end Schema

namespace Document

theorem spelled_root (d : Document) (root : Root) : (Node.document d).spelled root.way = root.way := by
  rcases root with _ | ⟨_ | _, _⟩ | _ | _ | _ | ⟨_ | _⟩ <;>
    simp [Root.way, ResponsePlace.way, ParameterPlace.way, Node.spell, Node.isList]
  -- What is left goes on from a place where a reference may stand, which leads nowhere.
  all_goals
    intros
    rename_i place _
    cases place <;> simp [Node.ofRefOr]

-- The place that a reference points to, spelled as the walk does it.
def placeOf (d : Document) (reference : String) : Except ResolveError String :=
  (segments reference).map fun way => ofSegments ((Node.document d).spelled way)

variable {d : Document} {n : NamedDocument} {responses : ResponseIndex} {way : List String}
  {reference name : String} {s : Schema} {p : SchemaPosition}

theorem Visits.spelled (hd : d.Distinct) (h : d.Visits responses way name s) :
    (Node.document d).spelled way = way := by
  cases h with
  | root begins => exact d.spelled_root _
  | below begins below =>
    exact (Node.Reaches.root hd begins).spelled_append (d.spelled_root _) (below.spelled (begins.distinct hd))

-- So the walk has a name for a reference to a place that it has visited, unless a position has a sign.
theorem nameAt?_of_spelled (hd : d.Distinct) (h : d.named = .ok n) {node : Node}
    (hw : (Node.document d).walk way = .ok node) :
    n.schemas.nameAt? (ofSegments way) = if (Node.document d).unsigned way then
      n.schemas.nameAt? (ofSegments ((Node.document d).spelled way)) else none := by
  have ⟨_, hr, index⟩ := of_named h
  split
  case isTrue unsigned => rw [(Node.spelled_eq_iff hw).mpr unsigned]
  case isFalse signed =>
    cases hn : n.schemas.nameAt? (ofSegments way) with
    | none => rfl
    | some name =>
      obtain ⟨p, hv, pointer, -⟩ := index.visit_of_nameAt? hn
      obtain ⟨way', at_way, visits⟩ := visits_of_step hr hv
      obtain rfl := ofSegments_injective (at_way.symm.trans pointer)
      exact absurd ((Node.spelled_eq_iff hw).mp (visits.spelled hd)) signed

-- A component is found by its key.
theorem name_of_component {key : String} (h : d.named = .ok n)
    (hn : n.schemas.nameAt? (ofSegments (Root.schema key).way) = some name) :
    Naming.ofComponentKey key = .ok name := by
  have ⟨_, hr, index⟩ := of_named h
  obtain ⟨p, hv, pointer, rfl⟩ := index.visit_of_nameAt? hn
  have ⟨way, at_way, visits⟩ := visits_of_step hr hv
  obtain rfl := ofSegments_injective (at_way.symm.trans pointer)
  cases visits.begins with
  | schema _ key_name => exact key_name

-- Whatever reference leads to a schema that was visited, the name of the place is found if no position in a list
-- has a sign, and only then.
theorem spelling_named (hd : d.Distinct) (h : d.named = .ok n) (hv : .visit p ∈ d.indexSteps n.responses)
    (hr : d.resolve reference = .ok (.schema s)) (hp : d.placeOf reference = .ok p.pointer) :
    ∃ way name, segments reference = .ok way ∧ n.schemas.nameAt? p.pointer = some name ∧ p.schema = s ∧
      n.schemas.nameOf reference = if (Node.document d).unsigned way then .ok name
        else .error (.naming (.unnamedReference reference)) := by
  obtain ⟨_, hresponses, index⟩ := of_named h
  simp only [resolve, placeOf, bind_eq_ok, mapError_eq_ok, map_eq_ok] at hr hp
  obtain ⟨way, hs, hw⟩ := hr
  obtain ⟨_, hs', pointer⟩ := hp
  cases hs.symm.trans hs'
  obtain ⟨_, at_way, visits⟩ := visits_of_step hresponses hv
  obtain rfl := ofSegments_injective (at_way.symm.trans pointer.symm)
  obtain ⟨name, hn⟩ := index.nameAt?_of_visit hv
  refine ⟨way, name, hs, hn, ?_, ?_⟩
  · exact (Node.schema.inj (visits.reaches hd _ (Node.walk_spelled hw))).symm
  · by_cases component : ∃ key, way = (Root.schema key).way
    case pos =>
      obtain ⟨key, rfl⟩ := component
      have spelled := d.spelled_root (.schema key)
      rw [← pointer, spelled] at hn
      rw [if_pos ((Node.spelled_eq_iff hw).mp spelled)]
      exact SchemaIndex.nameOf_component hs (name_of_component h hn)
    case neg =>
      rw [SchemaIndex.nameOf_eq hs (not_exists.mp component), nameAt?_of_spelled hd h hw, pointer, hn]
      by_cases unsigned : (Node.document d).unsigned way <;> simp [unsigned]

theorem petStore_spelling : ∃ n, PetStore.document.named = .ok n ∧
    n.schemas.nameOf "#/paths/%2Fpets/parameters/%30/schema" = .ok "ListPetsOrderParameter" := by
  have found : PetStore.document.named.toOption.map
      (·.schemas.nameAt? "#/paths/~1pets/parameters/0/schema") = some (some "ListPetsOrderParameter") := by
    decide +kernel
  obtain ⟨n, hn, found⟩ := exists_ok found
  obtain ⟨p, hv, pointer, _⟩ := (of_named hn).2.2.visit_of_nameAt? found
  have segments_eq : segments "#/paths/%2Fpets/parameters/%30/schema" =
      .ok ["paths", "/pets", "parameters", "0", "schema"] := by decide +kernel
  have position : Node.position? "0" = some 0 := by decide +kernel
  have resolved : PetStore.document.resolve "#/paths/%2Fpets/parameters/%30/schema" =
      .ok (.schema { enumValues := [.string "name", .string "age"] }) := by
    simp [resolve, segments_eq, PetStore.document, PetStore.order, Entries.get?, Node.item?, position]
  have place : PetStore.document.placeOf "#/paths/%2Fpets/parameters/%30/schema" = .ok p.pointer := by
    rw [pointer]
    decide +kernel
  obtain ⟨way, name, way_eq, name_eq, _, spelled⟩ := spelling_named PetStore.distinct hn hv resolved place
  cases segments_eq.symm.trans way_eq
  cases found.symm.trans (pointer ▸ name_eq)
  exact ⟨n, hn, spelled.trans (if_pos (by decide +kernel))⟩

-- A schema that refers to the first alternative of another one, with a sign before the position.
def signed : Document where
  openapi := "3.1.0"
  info := { title := "T", version := "1" }
  components := some { schemas := [
    ("Pet", .inline { oneOf := [.inline { typeKeyword := some (.single .object) }] }),
    ("Alias", .ref "#/components/schemas/Pet/oneOf/+0")] }

theorem not_spelling_named : ∃ n p, signed.named = .ok n ∧ .visit p ∈ signed.indexSteps n.responses ∧
    signed.resolve "#/components/schemas/Pet/oneOf/+0" = .ok (.schema p.schema) ∧
    signed.placeOf "#/components/schemas/Pet/oneOf/+0" = .ok p.pointer ∧
    n.schemas.nameAt? p.pointer = some "PetOneOf1" ∧
    n.schemas.nameOf "#/components/schemas/Pet/oneOf/+0" =
      .error (.naming (.unnamedReference "#/components/schemas/Pet/oneOf/+0")) := by
  have named : signed.named.toOption.map (fun n =>
      (n.schemas.positions, n.schemas.nameOf "#/components/schemas/Pet/oneOf/+0")) = some (
        [("#/components/schemas/Pet/oneOf/0", "PetOneOf1"), ("#/components/schemas/Pet", "Pet")],
        .error (.naming (.unnamedReference "#/components/schemas/Pet/oneOf/+0"))) := by decide +kernel
  obtain ⟨n, hn, named⟩ := exists_ok named
  obtain ⟨positions, unnamed⟩ := Prod.mk.inj named
  have found : n.schemas.nameAt? "#/components/schemas/Pet/oneOf/0" = some "PetOneOf1" := by
    rw [SchemaIndex.nameAt?, positions]
    decide
  have key_name : Naming.ofComponentKey "Pet" = .ok "Pet" := by decide +kernel
  have begins : signed.Begins n.responses (.schema "Pet") "Pet" _ := .schema List.mem_cons_self key_name
  obtain ⟨enclosing, hv⟩ := (Visits.below begins (.part (.oneOf (i := 0) rfl))).step (of_named hn).2.1
  have pointer : ofSegments ((Root.schema "Pet").way ++ (Role.oneOf 0).segments) =
      "#/components/schemas/Pet/oneOf/0" := by decide +kernel
  have segments_eq : segments "#/components/schemas/Pet/oneOf/+0" =
      .ok ["components", "schemas", "Pet", "oneOf", "+0"] := by decide +kernel
  have position : Node.position? "+0" = some 0 := by decide +kernel
  have resolved : signed.resolve "#/components/schemas/Pet/oneOf/+0" =
      .ok (.schema { typeKeyword := some (.single .object) }) := by
    simp [resolve, segments_eq, signed, Entries.get?, Node.item?, position]
  have place : signed.placeOf "#/components/schemas/Pet/oneOf/+0" =
      .ok (ofSegments ((Root.schema "Pet").way ++ (Role.oneOf 0).segments)) := by decide +kernel
  exact ⟨n, _, hn, hv, resolved, place, pointer ▸ found, unnamed⟩

end Document

end OpenApiClient
