import OpenApiClient.Proofs.Index.Latest

/-!
What the index knows of the parts of a schema. The walk may come to a place again and call it something else; but it
always comes to all that is in the place too, and then calls this after the place.
-/

namespace OpenApiClient

open Pointer

namespace Schema

-- A schema itself, or an inline member of it, of a member of it, and so on. The numbers are those of the members.
inductive Holds : Schema → List Nat → Schema → Prop
  | self {s} : Holds s [] s
  | member {s i m is t} : s.Merges i m → Holds m is t → Holds s (i :: is) t

-- The way to a member, and what it adds to a pointer.
def memberWay (is : List Nat) : List String := is.flatMap fun i => ["allOf", toString i]

def memberPointer (is : List Nat) : String := String.join (is.map fun i => "/allOf/" ++ toString i)

theorem ofSegments_append_memberWay (base : List String) (is : List Nat) :
    ofSegments (base ++ memberWay is) = ofSegments base ++ memberPointer is := by
  simp (disch := decide) [← String.toList_inj, toList_ofSegments, memberWay, memberPointer, List.flatMap_assoc,
    List.flatMap_map, escapeSegment_eq_self]

variable {s t c s' : Schema} {name name' : String} {rest : List String} {is : List Nat} {role : Role}

-- A part of a member is named like a part of the schema that holds the member.
theorem Holds.below_of_has (h : s.Holds is t) (hs : t.Has role (.inline c)) :
    s.Below name (memberWay is ++ role.segments) (role.nameIn name) c := by
  induction h with
  | self => exact .part hs
  | member hm _ ih => exact .merged hm (ih hs)

theorem Within.part (h : s.Within name rest name' s') (ht : s'.Holds is t) (hs : t.Has role (.inline c)) :
    s.Within name (rest ++ memberWay is ++ role.segments) (role.nameIn name') c := by
  rw [List.append_assoc]
  cases h with
  | self => exact .below (ht.below_of_has hs)
  | below h => exact .below (h.trans (ht.below_of_has hs))

-- Where something is does not depend on what it is called.
theorem Below.rename (h : s.Below name rest name' s') (other : String) : ∃ other', s.Below other rest other' s' := by
  induction h generalizing other with
  | part hs => exact ⟨_, .part hs⟩
  | @deeper _ _ role _ _ _ _ hs _ ih =>
    obtain ⟨other', below⟩ := ih (role.nameIn other)
    exact ⟨other', .deeper hs below⟩
  | merged hm _ ih =>
    obtain ⟨other', below⟩ := ih other
    exact ⟨other', .merged hm below⟩

theorem Within.rename (h : s.Within name rest name' s') (other : String) : ∃ other', s.Within other rest other' s' := by
  cases h with
  | self => exact ⟨other, .self⟩
  | below h =>
    obtain ⟨other', below⟩ := h.rename other
    exact ⟨other', .below below⟩

-- A way ends like a way to a member only if its last part does, be it with the number alone.
theorem append_ne_member (before : List String) {i : Nat} (nonempty : rest ≠ [])
    (h : (∀ way, rest ≠ way ++ ["allOf", toString i]) ∧ rest ≠ [toString i]) (way : List String) :
    before ++ rest ≠ way ++ ["allOf", toString i] := by
  intro split
  rcases List.append_eq_append_iff.mp split with ⟨way', -, rest_eq⟩ | ⟨last, -, rest_eq⟩
  · exact h.1 way' rest_eq
  · rcases last with _ | ⟨_, _ | ⟨_, last⟩⟩
    · exact h.1 [] rest_eq.symm
    · exact h.2 (List.cons.inj rest_eq).2.symm
    · exact nonempty (by simp_all)

theorem Below.not_member (h : s.Below name rest name' s') (i : Nat) :
    (∀ way, rest ≠ way ++ ["allOf", toString i]) ∧ rest ≠ [toString i] := by
  induction h with
  | @part _ _ role =>
    constructor
    · intro way
      rcases way with _ | ⟨_, _ | ⟨_, _⟩⟩ <;> cases role <;> simp [Role.segments]
    · have additional : "additionalProperties" ≠ toString i := toString_ne rfl i
      have items : "items" ≠ toString i := toString_ne rfl i
      cases role <;> simp_all [Role.segments]
  | @deeper _ _ role _ rest _ _ _ below ih =>
    refine ⟨append_ne_member role.segments below.ne_nil ih, fun split => ?_⟩
    have : rest = [] := by cases role <;> simp_all [Role.segments]
    exact below.ne_nil this
  | @merged _ _ j _ rest _ _ _ below ih =>
    exact ⟨append_ne_member ["allOf", toString j] below.ne_nil ih, by simp⟩

end Schema

namespace Document

open IndexStep

variable {d : Document} {responses : ResponseIndex} {steps : List IndexStep} {root : Root} {rest : List String}
  {name : String} {s t c : Schema} {is : List Nat} {role : Role}

-- Whenever the walk comes to a root, it comes to all that is below. So a part is called after the place that has it,
-- whatever that is called in the end.
theorem Walks.latest_part (hd : d.Distinct) (h : d.Walks responses steps)
    (visits : d.Visits responses (root.way ++ rest) name s) (ht : s.Holds is t) (hs : t.Has role (.inline c)) :
    latest steps (ofSegments (root.way ++ (rest ++ Schema.memberWay is ++ role.segments))) =
      (latest steps (ofSegments (root.way ++ rest))).map role.nameIn := by
  induction h with
  | nil => rfl
  | elsewhere other =>
    have nothing (pointer : String) : latest [_] pointer = none :=
      latest_eq_none.mpr fun p hp _ => other p (List.mem_singleton.mp hp).symm
    rw [nothing, nothing, Option.map_none]
  | @root root' other_name s' begins =>
    by_cases same : root' = root
    case pos =>
      subst same
      obtain ⟨_, s₀, begins', within⟩ := visits_root_iff.mp visits
      obtain rfl := (begins.unique hd begins').1
      obtain ⟨name', within⟩ := within.rename other_name
      rw [within.latest, (within.part ht hs).latest, Option.map_some]
    case neg => rw [Schema.latest_elsewhere same, Schema.latest_elsewhere same, Option.map_none]
  | append _ _ ih ih' => rw [latest_append, latest_append, ih, ih', Option.map_or]

end Document

theorem Root.way_ne_member (root : Root) (i : Nat) (way : List String) : root.way ≠ way ++ ["allOf", toString i] := by
  have schema : "schema" ≠ i.repr := toString_ne rfl i
  intro split
  have ends : root.way.reverse = toString i :: "allOf" :: way.reverse := by simp [split]
  rcases root with _ | ⟨_ | _, _⟩ | _ | _ | _ | ⟨_ | _⟩ <;>
    simp [Root.way, ResponsePlace.way, ParameterPlace.way, schema] at ends

theorem Document.Visits.not_member {d : Document} {responses : ResponseIndex} {way : List String} {name : String}
    {s : Schema} (h : d.Visits responses way name s) (i : Nat) (way' : List String) :
    way ≠ way' ++ ["allOf", toString i] := by
  cases h with
  | root => exact Root.way_ne_member _ i way'
  | below _ below => exact Schema.append_ne_member _ below.ne_nil (below.not_member i) way'

-- The walk came to a schema in this place, and called it so.
def NamedDocument.Visited (n : NamedDocument) (pointer name : String) (s : Schema) : Prop :=
  ∃ enclosing, .visit ⟨name, s, pointer, enclosing⟩ ∈ n.document.indexSteps n.responses

namespace Document

open IndexStep

variable {d : Document} {n : NamedDocument} {pointer name : String} {s t c : Schema} {is : List Nat} {role : Role}

theorem visited_iff (h : d.named = .ok n) :
    n.Visited pointer name s ↔ ∃ way, pointer = ofSegments way ∧ d.Visits n.responses way name s := by
  obtain ⟨document, hr, -⟩ := of_named h
  rw [NamedDocument.Visited, document]
  constructor
  · rintro ⟨enclosing, hv⟩
    exact visits_of_step hr hv
  · rintro ⟨way, rfl, visits⟩
    exact visits.step hr

theorem nameAt?_eq_latest (h : d.named = .ok n) (pointer : String) :
    n.schemas.nameAt? pointer = latest (d.indexSteps n.responses) pointer := by
  simp only [named, bind_eq_ok, pure_eq_ok] at h
  obtain ⟨responses, -, m, taken, rfl⟩ := h
  rw [SchemaIndex.nameAt?, positions_of_takeSteps taken, latest]

theorem visited_componentSchema (h : d.named = .ok n) {key : String} (hk : (key, .inline s) ∈ d.componentSchemas) :
    ∃ name, Naming.ofComponentKey key = .ok name ∧ n.Visited ("#/components/schemas/" ++ escapeSegment key) name s ∧
      n.schemas.nameAt? ("#/components/schemas/" ++ escapeSegment key) = some name := by
  obtain ⟨name, hn⟩ := name_of_componentSchema h hk
  have begins : d.Begins n.responses (.schema key) name s := .schema hk hn
  have visits : d.Visits n.responses ["components", "schemas", key] name s := .root begins
  rw [componentSchema_pointer]
  refine ⟨name, hn, (visited_iff h).mpr ⟨_, rfl, visits⟩, ?_⟩
  obtain ⟨-, hr, -⟩ := of_named h
  obtain ⟨enclosing, hv⟩ := visits.step hr
  rw [nameAt?_eq_latest h]
  refine latest_of_visit hv fun q hq pointer => ?_
  obtain ⟨way, at_q, visits⟩ := visits_of_step hr hq
  obtain rfl : way = (Root.schema key).way := ofSegments_injective (at_q.symm.trans pointer)
  cases visits.begins with
  | schema _ hn' => exact Except.ok.inj (hn'.symm.trans hn)

section

variable (h : d.named = .ok n) (visited : n.Visited pointer name s) (ht : s.Holds is t)
include h visited ht

theorem visited_part (hs : t.Has role (.inline c)) :
    n.Visited (pointer ++ Schema.memberPointer is ++ role.pointer) (role.nameIn name) c := by
  obtain ⟨way, rfl, visits⟩ := (visited_iff h).mp visited
  obtain ⟨root, rest, name₀, s₀, rfl, begins, within⟩ := visits.within
  rw [← Schema.ofSegments_append_memberWay, ← Role.ofSegments_append, List.append_assoc, List.append_assoc,
    ← List.append_assoc rest]
  exact (visited_iff h).mpr ⟨_, rfl, visits_root_iff.mpr ⟨name₀, s₀, begins, within.part ht hs⟩⟩

theorem nameAt?_part (hd : d.Distinct) (hs : t.Has role (.inline c)) :
    n.schemas.nameAt? (pointer ++ Schema.memberPointer is ++ role.pointer) =
      (n.schemas.nameAt? pointer).map role.nameIn := by
  obtain ⟨-, hr, -⟩ := of_named h
  obtain ⟨way, rfl, visits⟩ := (visited_iff h).mp visited
  obtain ⟨root, rest, -, -, rfl, -, -⟩ := visits.within
  rw [nameAt?_eq_latest h, nameAt?_eq_latest h, ← Schema.ofSegments_append_memberWay, ← Role.ofSegments_append,
    List.append_assoc, List.append_assoc, ← List.append_assoc rest]
  exact (walks_indexSteps hr).latest_part hd visits ht hs

omit ht in
theorem nameAt?_member (proper : is ≠ []) : n.schemas.nameAt? (pointer ++ Schema.memberPointer is) = none := by
  obtain ⟨-, hr, -⟩ := of_named h
  obtain ⟨way, rfl, -⟩ := (visited_iff h).mp visited
  obtain ⟨is, i, rfl⟩ := List.eq_nil_or_concat is |>.resolve_left proper
  rw [nameAt?_eq_latest h, ← Schema.ofSegments_append_memberWay]
  refine latest_eq_none.mpr fun p hp pointer => ?_
  obtain ⟨way', at_p, visits⟩ := visits_of_step hr hp
  obtain rfl := ofSegments_injective (at_p.symm.trans pointer)
  exact visits.not_member i (way ++ Schema.memberWay is) (by simp [Schema.memberWay])

end

-- Every schema of the components is found and called after its key. Wherever the walk finds a schema, it finds the
-- parts of it and of the members that it holds, and they are called after the schema, both when the walk is there and
-- in the end. The members themselves are not called anything.
theorem parts_named (hd : d.Distinct) (h : d.named = .ok n) :
    (∀ key s, (key, .inline s) ∈ d.componentSchemas → ∃ name, Naming.ofComponentKey key = .ok name ∧
      n.Visited ("#/components/schemas/" ++ escapeSegment key) name s ∧
      n.schemas.nameAt? ("#/components/schemas/" ++ escapeSegment key) = some name) ∧
    ∀ pointer name s, n.Visited pointer name s → ∀ is t, s.Holds is t →
      (∀ role c, t.Has role (.inline c) →
        n.Visited (pointer ++ Schema.memberPointer is ++ role.pointer) (role.nameIn name) c ∧
        (n.schemas.nameAt? pointer = some name →
          n.schemas.nameAt? (pointer ++ Schema.memberPointer is ++ role.pointer) = some (role.nameIn name))) ∧
      (is ≠ [] → n.schemas.nameAt? (pointer ++ Schema.memberPointer is) = none) := by
  refine ⟨fun key s => visited_componentSchema h, fun pointer name s visited is t ht => ⟨fun role c hs => ?_, ?_⟩⟩
  · refine ⟨visited_part h visited ht hs, fun recorded => ?_⟩
    rw [nameAt?_part h visited ht hd hs, recorded, Option.map_some]
  · exact nameAt?_member h visited

end Document

namespace Books

-- A book takes over what has a price. Two operations share a parameter that is written like a book.
def price : Schema where
  properties := [("amount", .inline { typeKeyword := some (.single .integer) })]

def priced : Schema where
  properties := [("price", .inline price)]

def book : Schema where
  allOf := [.inline priced]

def sample : Parameter where
  name := "sample"
  location := .query
  schema := some (.inline book)

def books : PathItem where
  parameters := [.inline sample]
  get := some { operationId := some "findBooks" }
  post := some { operationId := some "addBook" }

def document : Document where
  openapi := "3.0.0"
  info := { title := "Books", version := "1" }
  paths := [("/books", books)]
  components := some { schemas := [("Book", .inline book)] }

theorem distinct : document.Distinct := by
  simp [Document.distinct_iff, Components.distinct_iff, PathItem.distinct_iff, Operation.distinct_iff,
    Parameter.Distinct, Schema.distinct_iff, document, books, book, priced, price, sample, Entries.keys,
    Entries.Distinct, PathItem.operations, PathItem.operation, HttpMethod.all]

end Books

theorem Document.books_parts : Books.document.Distinct ∧ ∃ n, Books.document.named = .ok n ∧
    n.Visited "#/components/schemas/Book" "Book" Books.book ∧
    n.schemas.nameAt? "#/components/schemas/Book/allOf/0/properties/price" = some "BookPrice" ∧
    n.schemas.nameAt? "#/components/schemas/Book/allOf/0" = none := by
  have computed : Books.document.named.toOption.map (fun _ => ()) = some () ∧
      Naming.ofComponentKey "Book" = .ok "Book" ∧
      "#/components/schemas/" ++ escapeSegment "Book" = "#/components/schemas/Book" ∧
      "#/components/schemas/Book" ++ Schema.memberPointer [0] = "#/components/schemas/Book/allOf/0" ∧
      "#/components/schemas/Book/allOf/0" ++ (Role.property "price").pointer =
        "#/components/schemas/Book/allOf/0/properties/price" ∧
      (Role.property "price").nameIn "Book" = "BookPrice" := by decide +kernel
  obtain ⟨named, key, component, member, property, part⟩ := computed
  obtain ⟨n, hn, -⟩ := exists_ok named
  obtain ⟨components, parts⟩ := parts_named Books.distinct hn
  obtain ⟨name, hk, visited, recorded⟩ := components "Book" Books.book (List.mem_singleton_self _)
  obtain rfl := Except.ok.inj (hk.symm.trans key)
  rw [component] at visited recorded
  obtain ⟨below, nothing⟩ := parts _ _ _ visited [0] Books.priced (.member rfl .self)
  have price := (below (.property "price") Books.price (.property (List.mem_singleton_self _))).2 recorded
  rw [member, property, part] at price
  rw [member] at nothing
  exact ⟨Books.distinct, n, hn, visited, price, nothing (List.cons_ne_nil 0 [])⟩

-- The two operations name the place of their parameter one after the other, and the last one names the parts.
example : Books.document.named.toOption.map (fun n =>
      n.schemas.nameAt? "#/paths/~1books/parameters/0/schema/allOf/0/properties/price") =
    some (some "AddBookSampleParameterPrice") := by decide +kernel

end OpenApiClient
