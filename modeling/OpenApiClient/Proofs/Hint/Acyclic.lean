import OpenApiClient.Proofs.Hint.Expansion
import OpenApiClient.Proofs.Hint.Named

/-!
Places from which no schema is reached twice on one way. There the hints come to an end without a guard, and the
guard leaves nothing open as long as no name recurs. A name recurs only if a primitive schema has it, as
nothing keeps the names of these apart from others.
-/

namespace OpenApiClient

namespace Document

-- No way from a place leads through a schema twice, whatever the schemas are called. A schema that is met again under
-- another spelling of its place leads to what it led to before, so it does not matter how places are spelled.
def Acyclic (d : Document) (schemas : SchemaIndex) (start : SchemaRef) : Prop :=
  ∀ passed here, d.Trail schemas .never start passed here → (passed.map (·.way)).Nodup

variable {d : Document} {n : NamedDocument} {schemas : SchemaIndex} {guard : Guard} {form : ValueForm}
  {passed : List Expansion} {reference name : String} {b : Expansion} {start here : SchemaRef} {s t : Schema}
  {outcome : Except BuildError Hints}

-- What was visited under one name and is not primitive is the same.
theorem Named.same (hd : d.Distinct) (h : d.named = .ok n) (hs : d.Named n.responses name s)
    (ht : d.Named n.responses name t) (ks : s.kind ≠ .primitive) (kt : t.kind ≠ .primitive) : s.same t := by
  obtain ⟨_, hs⟩ := hs
  obtain ⟨_, ht⟩ := ht
  obtain ⟨_, hs⟩ := hs.step (of_named h).2.1
  obtain ⟨_, ht⟩ := ht.step (of_named h).2.1
  obtain ⟨found, hf, same, -⟩ := entry_of_visit hd h hs ks
  obtain ⟨found', hf', same', -⟩ := entry_of_visit hd h ht kt
  cases hf.symm.trans hf'
  obtain ⟨p, hp, -, rfl⟩ := (of_named h).2.2.visit_of_entry found (SchemaIndex.of_get?_eq_some hf).1
  have first : EquivAt Schema.same p.schema := Schema.equivAt_same (distinct_of_visit hd h hp)
  have second : EquivAt Schema.same s := Schema.equivAt_same (distinct_of_visit hd h hs)
  exact second.trans (first.symm same) same'

theorem Trail.means (h : d.Trail schemas guard start passed here) (hb : b ∈ passed) :
    ∃ reference, d.Means schemas reference b := by
  induction h with
  | start => contradiction
  | expand _ _ means _ ih =>
    rcases List.mem_cons.mp hb with rfl | hb
    · exact ⟨_, means⟩
    · exact ih hb

-- From every schema on the way, the way goes on with a reference that this schema asks for.
theorem Trail.next (h : d.Trail schemas guard start passed here) (hb : b ∈ passed) :
    here = .inline b.schema ∨
      ∃ c ∈ passed, ∃ reference, Schema.Asks (.inline b.schema) reference ∧ d.Means schemas reference c := by
  induction h with
  | start => contradiction
  | @expand passed here reference e trail asks means _ ih =>
    rcases List.mem_cons.mp hb with rfl | hb
    · exact .inl rfl
    · rcases ih hb with rfl | ⟨c, hc, asked⟩
      · exact .inr ⟨e, List.mem_cons_self, reference, asks, means⟩
      · exact .inr ⟨c, List.mem_cons_of_mem _ hc, asked⟩

-- Two schemas that are the same ask for the same references. So the later one leads to what the earlier one led
-- to, which is on the way already.
theorem Trail.primitive (hd : d.Distinct) (h : d.named = .ok n) (acyclic : d.Acyclic n.schemas start)
    (trail : d.Trail n.schemas .never start passed here) : passed.Pairwise fun a b =>
      a.name = b.name → a.schema.kind = .primitive ∨ b.schema.kind = .primitive := by
  induction trail with
  | start => exact .nil
  | @expand passed here reference a trail asks means fresh ih =>
    refine .cons (fun b hb same_name => ?_) ih
    by_contra primitive
    obtain ⟨ka, kb⟩ := not_or.mp primitive
    have later : d.Trail n.schemas .never start (a :: passed) (.inline a.schema) := .expand trail asks means fresh
    obtain ⟨_, means_b⟩ := trail.means hb
    have named : d.Named n.responses a.name b.schema := same_name ▸ means_b.leads.named hd h
    have same : b.schema.same a.schema := named.same hd h (means.leads.named hd h) kb ka
    obtain ⟨c, hc, reference, asks_c, means_c⟩ : ∃ c ∈ a :: passed, ∃ reference,
        Schema.Asks (.inline b.schema) reference ∧ d.Means n.schemas reference c := by
      rcases trail.next hb with rfl | ⟨c, hc, asked⟩
      · exact ⟨a, List.mem_cons_self, _, asks, means⟩
      · exact ⟨c, List.mem_cons_of_mem _ hc, asked⟩
    have asks_again := asks_c.of_same (Schema.sameRef_inline.mpr ⟨_, rfl, same⟩)
    have again := acyclic _ _ (.expand later asks_again means_c id)
    exact (List.nodup_cons.mp again).1 (List.mem_map_of_mem hc)

-- The induction is on how many more schemas a way can lead through.
theorem Acyclic.expands {room : Nat} (acyclic : d.Acyclic schemas start)
    (trail : d.Trail schemas .never start passed here) (asks : Schema.Asks here reference)
    (enough : d.references.length + 2 ≤ room + passed.length) (visiting : List String) :
    ∃ outcome, d.Expands schemas .never form visiting reference outcome := by
  induction room generalizing passed here reference visiting with
  | zero =>
    have := trail.length_le (List.Nodup.of_map _ (acyclic _ _ trail))
    omega
  | succ room ih =>
    cases ht : d.meantSchema reference with
    | error error => exact ⟨_, .broken ht⟩
    | ok found =>
      obtain ⟨terminal, s⟩ := found
      cases hn : schemas.nameOf terminal with
      | error error => exact ⟨_, .unnamed ht hn⟩
      | ok name =>
        obtain ⟨e, means, rfl, rfl⟩ := means_of_named ht hn
        have inner (target : String) (asks' : Schema.Asks (.inline e.schema) target) :
            ∃ outcome, d.Expands schemas .never form (e.name :: visiting) target outcome := by
          refine ih (.expand trail asks means id) asks' ?_ _
          simp only [List.length_cons]
          omega
        have answers : Nonempty (Except BuildError Hints) := ⟨.ok []⟩
        choose! expand expands using inner
        exact ⟨_, .target means id expands⟩

theorem Acyclic.resolves (acyclic : d.Acyclic schemas start) :
    ∃ outcome, d.Resolves schemas .never form name (some start) outcome := by
  have trail : d.Trail schemas .never start [] start := .start
  have each (target : String) (asks : Schema.Asks start target) :
      ∃ outcome, d.Expands schemas .never form [] target outcome := acyclic.expands trail asks (Nat.le_refl _) []
  have answers : Nonempty (Except BuildError Hints) := ⟨.ok []⟩
  choose! expand expands using each
  exact ⟨_, .some expands⟩

-- Where no name recurs, the guard holds nothing back.
theorem Expands.unguarded {names : List String}
    (own : ∀ passed here, d.Trail schemas .never start passed here → (passed.map (·.name)).Nodup)
    (h : d.Expands schemas .returning form names reference outcome)
    (trail : d.Trail schemas .never start passed here) (asks : Schema.Asks here reference)
    (hn : names = passed.map (·.name)) : d.Expands schemas .never form names reference outcome := by
  induction h generalizing passed here with
  | broken ht => exact .broken ht
  | unnamed ht unnamed => exact .unnamed ht unnamed
  | back means again =>
    have different := own _ _ (.expand trail asks means id)
    exact absurd (hn ▸ again) (List.nodup_cons.mp different).1
  | target means _ _ ih =>
    exact .target means id fun inner asks' => ih inner asks' (.expand trail asks means id) asks' (by simp [hn])

theorem resolves_unguarded
    (own : ∀ passed here, d.Trail schemas .never start passed here → (passed.map (·.name)).Nodup)
    (h : d.Resolves schemas .returning form name (some start) outcome) :
    d.Resolves schemas .never form name (some start) outcome := by
  cases h with
  | some expands => exact .some fun target asks => (expands target asks).unguarded own .start asks rfl

-- A place from which no schema is reached twice has hints without a guard. The guard does not change them as long as
-- no primitive schema is called like another one on the way.
theorem unguarded_of_acyclic (hd : d.Distinct) (h : d.named = .ok n) (acyclic : d.Acyclic n.schemas start) :
    (∀ form name, ∃! outcome, d.Resolves n.schemas .never form name (some start) outcome) ∧
    ((∀ passed here, d.Trail n.schemas .never start passed here → passed.Pairwise fun a b =>
        a.schema.kind = .primitive ∨ b.schema.kind = .primitive → a.name ≠ b.name) →
      ∀ form name outcome, d.Resolves n.schemas .never form name (some start) outcome ↔
        d.hintsAt n.schemas form name (some start) = outcome) := by
  constructor
  · intro form name
    obtain ⟨outcome, resolves⟩ := acyclic.resolves
    exact ⟨outcome, resolves, fun _ resolves' => resolves'.unique resolves⟩
  · intro apart form name outcome
    have own (passed : List Expansion) (here : SchemaRef) (trail : d.Trail n.schemas .never start passed here) :
        (passed.map (·.name)).Nodup := by
      rw [List.Nodup, List.pairwise_map]
      exact (trail.primitive hd h acyclic).imp₂ (fun _ _ primitive other same => other (primitive same) same)
        (apart passed here trail)
    have guarded : d.Resolves n.schemas .never form name (some start) (d.hintsAt n.schemas form name (some start)) :=
      resolves_unguarded own resolves_hintsAt
    exact ⟨fun resolves => guarded.unique resolves, fun hints => hints ▸ guarded⟩

end Document

namespace Shop

-- Two components whose keys make one name: a primitive schema and another one that it may be.
def code : Schema where
  typeKeyword := some (.single .string)

def size : Schema where
  oneOf := [.ref "#/components/schemas/size-code"]

def stock : Schema where
  typeKeyword := some (.single .array)
  items := some (.ref "#/components/schemas/size-code")

def document : Document where
  openapi := "3.1.0"
  info := { title := "Shop", version := "1" }
  components := some {
    schemas := [("size_code", .inline size), ("size-code", .inline code), ("stock", .inline stock)] }

def codeEntry : Expansion := ⟨"SizeCode", ["components", "schemas", "size-code"], code⟩

def sizeEntry : Expansion := ⟨"SizeCode", ["components", "schemas", "size_code"], size⟩

def stockEntry : Expansion := ⟨"Stock", ["components", "schemas", "stock"], stock⟩

variable {schemas : SchemaIndex} {guard : Guard} {form : ValueForm} {name target reference : String}
  {here : SchemaRef} {passed : List Expansion} {e : Expansion}

-- What can be computed of the document: it has names, and its references are read as ways to components.
theorem computed : document.named.toOption.map (fun _ => ()) = some () ∧
    Pointer.segments "#/components/schemas/size-code" = .ok codeEntry.way ∧
    Pointer.segments "#/components/schemas/size_code" = .ok sizeEntry.way ∧
    Pointer.segments "#/components/schemas/stock" = .ok stockEntry.way ∧
    Naming.ofComponentKey "size-code" = .ok "SizeCode" ∧ Naming.ofComponentKey "size_code" = .ok "SizeCode" ∧
    Naming.ofComponentKey "stock" = .ok "Stock" := by
  decide +kernel

theorem means_component {key : String} {s : Schema}
    (way : Pointer.segments reference = .ok ["components", "schemas", key])
    (found : (Node.document document).walk ["components", "schemas", key] = .ok (.schema s))
    (ha : s.annotatedReference = none) (hn : Naming.ofComponentKey key = .ok name) :
    document.Means schemas reference ⟨name, ["components", "schemas", key], s⟩ :=
  Document.means_component (Document.meantSchema_of_resolve (Document.resolve_of_walk way found) ha) way hn

theorem means_code : document.Means schemas "#/components/schemas/size-code" codeEntry := by
  obtain ⟨-, code_way, -, -, code_name, -⟩ := computed
  exact means_component code_way rfl rfl code_name

theorem means_size : document.Means schemas "#/components/schemas/size_code" sizeEntry := by
  obtain ⟨-, -, size_way, -, -, size_name, -⟩ := computed
  exact means_component size_way rfl rfl size_name

theorem means_stock : document.Means schemas "#/components/schemas/stock" stockEntry := by
  obtain ⟨-, -, -, stock_way, -, -, stock_name⟩ := computed
  exact means_component stock_way rfl rfl stock_name

theorem not_asks_code : ¬ Schema.Asks (.inline code) target := by
  rintro (_ | ha | ⟨-, shows, has, -⟩)
  · cases ha
  · cases has <;> simp_all [code]

theorem asks_code {s : Schema} (ha : s.annotatedReference = none)
    (only : ∀ role place, s.Has role place → place = .ref "#/components/schemas/size-code")
    (h : Schema.Asks (.inline s) target) : target = "#/components/schemas/size-code" := by
  cases h with
  | annotated ha' => cases ha.symm.trans ha'
  | part _ _ has asks =>
    cases only _ _ has
    cases asks
    rfl

theorem asks_size (target : String) (h : Schema.Asks (.inline size) target) :
    target = "#/components/schemas/size-code" := by
  refine asks_code rfl (fun role place has => ?_) h
  cases has <;> simp_all [size, List.getElem?_cons]

theorem asks_stock (target : String) (h : Schema.Asks (.inline stock) target) :
    target = "#/components/schemas/size-code" := by
  refine asks_code rfl (fun role place has => ?_) h
  cases has <;> simp_all [stock]

-- What asks for the code alone leads there and no further.
theorem trail_cases (means : document.Means schemas reference e)
    (asks : ∀ target, Schema.Asks (.inline e.schema) target → target = "#/components/schemas/size-code")
    (trail : document.Trail schemas guard (.ref reference) passed here) :
    passed = [] ∧ here = .ref reference ∨ passed = [e] ∧ here = .inline e.schema ∨
      passed = [codeEntry, e] ∧ here = .inline code := by
  induction trail with
  | start => exact .inl ⟨rfl, rfl⟩
  | expand _ asks' means' _ ih =>
    rcases ih with ⟨rfl, rfl⟩ | ⟨rfl, rfl⟩ | ⟨-, rfl⟩
    · cases asks'
      cases means'.unique means
      exact .inr (.inl ⟨rfl, rfl⟩)
    · cases asks _ asks'
      cases means'.unique means_code
      exact .inr (.inr ⟨rfl, rfl⟩)
    · exact absurd asks' not_asks_code

theorem acyclic (means : document.Means schemas reference e)
    (asks : ∀ target, Schema.Asks (.inline e.schema) target → target = "#/components/schemas/size-code")
    (other : codeEntry.way ≠ e.way) : document.Acyclic schemas (.ref reference) := by
  intro passed here trail
  rcases trail_cases means asks trail with ⟨rfl, -⟩ | ⟨rfl, -⟩ | ⟨rfl, -⟩ <;> simp [other]

theorem expands_code {visiting : List String} (fresh : ¬ guard visiting "SizeCode") :
    document.Expands schemas guard form visiting "#/components/schemas/size-code" (.ok [.string]) := by
  have hints : code.hints (fun _ => .ok []) form "SizeCode" = .ok [.string] := by
    cases form <;> rfl
  exact hints ▸ .target means_code fresh fun _ asks => absurd asks not_asks_code

-- Without a guard, a size is a code, which is a text.
theorem resolves_size : document.Resolves schemas .never form name
    (some (.ref "#/components/schemas/size_code")) (.ok [.string]) := by
  have hints : size.hints (fun _ => .ok [.string]) form "SizeCode" = .ok [.string] := by
    cases form <;> rfl
  refine Document.resolves_ref.mpr (hints ▸ .target means_size id fun _ asks => ?_)
  exact asks_size _ asks ▸ expands_code id

-- With the guard it is left open, as if it contained itself.
theorem hintsAt_size :
    document.hintsAt schemas form name (some (.ref "#/components/schemas/size_code")) = .ok [.mixed] := by
  have hints : size.hints (fun _ => .ok [.mixed]) form "SizeCode" = .ok [.mixed] := by
    cases form <;> rfl
  refine Document.resolves_hintsAt.unique (Document.resolves_ref.mpr ?_)
  refine hints ▸ .target means_size List.not_mem_nil fun _ asks => ?_
  exact asks_size _ asks ▸ .back means_code (List.mem_singleton_self _)

theorem hintsAt_stock :
    document.hintsAt schemas form name (some (.ref "#/components/schemas/stock")) = .ok [.array [.string]] := by
  have hints : stock.hints (fun _ => .ok [.string]) form "Stock" = .ok [.array [.string]] := by
    cases form <;> rfl
  refine Document.resolves_hintsAt.unique (Document.resolves_ref.mpr ?_)
  refine hints ▸ .target means_stock List.not_mem_nil fun _ asks => ?_
  exact asks_stock _ asks ▸ expands_code (by simp [Guard.returning, stockEntry])

theorem distinct : document.Distinct := by
  simp [Document.distinct_iff, Components.distinct_iff, Schema.distinct_iff, document, size, code, stock,
    Entries.keys, Entries.Distinct]

end Shop

namespace Document

open Shop

theorem shop_unguarded : ∃ n, document.Distinct ∧ document.named = .ok n ∧
    document.Acyclic n.schemas (.ref "#/components/schemas/stock") ∧
    (∃! outcome,
      document.Resolves n.schemas .never .typed "Root" (some (.ref "#/components/schemas/stock")) outcome) ∧
    document.Resolves n.schemas .never .typed "Root" (some (.ref "#/components/schemas/stock"))
      (.ok [.array [.string]]) := by
  obtain ⟨n, named, -⟩ := exists_ok Shop.computed.1
  have acyclic : document.Acyclic n.schemas (.ref "#/components/schemas/stock") :=
    Shop.acyclic means_stock asks_stock (by decide)
  obtain ⟨once, same⟩ := unguarded_of_acyclic distinct named acyclic
  refine ⟨n, distinct, named, acyclic, once .typed "Root", (same ?_ .typed "Root" _).mpr hintsAt_stock⟩
  intro passed here trail
  rcases trail_cases means_stock asks_stock trail with ⟨rfl, -⟩ | ⟨rfl, -⟩ | ⟨rfl, -⟩ <;>
    simp [codeEntry, stockEntry]

-- A name that a primitive schema shares makes a difference.
theorem not_unguarded : ¬ ∀ (d : Document) (n : NamedDocument), d.Distinct → d.named = .ok n →
    ∀ start, d.Acyclic n.schemas start → ∀ form name outcome,
      d.Resolves n.schemas .never form name (some start) outcome →
        d.hintsAt n.schemas form name (some start) = outcome := by
  intro unguarded
  obtain ⟨n, named, -⟩ := exists_ok Shop.computed.1
  have acyclic : document.Acyclic n.schemas (.ref "#/components/schemas/size_code") :=
    Shop.acyclic means_size asks_size (by decide)
  have hints := unguarded document n distinct named _ acyclic .typed "ShopSize" _ resolves_size
  cases hintsAt_size.symm.trans hints

end Document

end OpenApiClient
