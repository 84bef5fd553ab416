import OpenApiClient.Document.Equality
import OpenApiClient.Proofs.Distinct

/-!
Saying the same is an equivalence, as long as no map has a key twice. What says the same is also
of the same kind.
-/

namespace OpenApiClient

namespace Json

-- A number of which zero has one form only.
def Number.plain : Number → Number
  | int n   => int n
  | float x => float (if x.isZero then .zero else x)

theorem Number.equals_iff {a b : Number} : a.equals b ↔ a.plain = b.plain := by
  cases a <;> cases b <;> simp only [equals, plain]
  case float.float x y => grind [Binary64.equals, Binary64.isZero, Binary64.zero]
  all_goals simp

namespace Value

mutual

-- A value in which no zero has a sign: equal values are those that have the same plain form.
def plain : Value → Value
  | null           => null
  | bool b         => bool b
  | number n       => number n.plain
  | string s       => string s
  | array items    => array (plainItems items)
  | object members => object (plainMembers members)

def plainItems : List Value → List Value
  | []           => []
  | item :: rest => item.plain :: plainItems rest

def plainMembers : List (String × Value) → List (String × Value)
  | []             => []
  | (k, v) :: rest => (k, v.plain) :: plainMembers rest

end

mutual

theorem equals_iff : (a b : Value) → (a.equals b ↔ a.plain = b.plain)
  | null, b => by cases b <;> simp [equals, plain]
  | bool _, b => by cases b <;> simp [equals, plain]
  | number _, b => by cases b <;> simp [equals, plain, Number.equals_iff]
  | string _, b => by cases b <;> simp [equals, plain]
  | array as, b => by cases b <;> simp [equals, plain, itemsEqual_iff as]
  | object as, b => by cases b <;> simp [equals, plain, membersEqual_iff as]

theorem itemsEqual_iff : (as bs : List Value) → (itemsEqual as bs ↔ plainItems as = plainItems bs)
  | [], bs => by cases bs <;> simp [itemsEqual, plainItems]
  | a :: as, bs => by cases bs <;> simp [itemsEqual, plainItems, equals_iff a, itemsEqual_iff as]

theorem membersEqual_iff : (as bs : List (String × Value)) →
    (membersEqual as bs ↔ plainMembers as = plainMembers bs)
  | [], bs => by cases bs <;> simp [membersEqual, plainMembers]
  | (_, a) :: as, bs => by
    cases bs <;> simp [membersEqual, plainMembers, equals_iff a, membersEqual_iff as, and_assoc]

end

end Value

end Json

-- What an equivalence says about one value. Equality of schemas is only one where keys are distinct,
-- which is why this is said value by value.
structure EquivAt {α : Type} (same : α → α → Bool) (a : α) : Prop where
  refl : same a a
  symm {b : α} : same a b → same b a
  trans {b c : α} : same a b → same b c → same a c

namespace EquivAt

variable {α β : Type} {a : α}

theorem of_iff {same : α → α → Bool} {f : α → β} (h : ∀ a b, same a b ↔ f a = f b) :
    EquivAt same a where
  refl := (h ..).mpr rfl
  symm he := (h ..).mpr ((h ..).mp he).symm
  trans he he' := (h ..).mpr (((h ..).mp he).trans ((h ..).mp he'))

theorem eq [BEq β] [LawfulBEq β] (f : α → β) : EquivAt (fun a b => f a == f b) a :=
  of_iff (f := f) (by simp)

theorem and {same same' : α → α → Bool} (h : EquivAt same a) (h' : EquivAt same' a) :
    EquivAt (fun a b => same a b && same' a b) a where
  refl := by simp [h.refl, h'.refl]
  symm := by
    simp only [Bool.and_eq_true]
    exact fun ⟨e, e'⟩ => ⟨h.symm e, h'.symm e'⟩
  trans := by
    simp only [Bool.and_eq_true]
    exact fun ⟨e, e'⟩ ⟨f, f'⟩ => ⟨h.trans e f, h'.trans e' f'⟩

theorem comap {same : β → β → Bool} (f : α → β) (h : EquivAt same (f a)) :
    EquivAt (fun a b => same (f a) (f b)) a where
  refl := h.refl
  symm := h.symm
  trans := h.trans

variable {same : α → α → Bool}

theorem option {o : Option α} (h : ∀ a ∈ o, EquivAt same a) : EquivAt (sameOption same) o := by
  cases o <;> constructor
  case none.refl => rfl
  case none.symm => intro b; cases b <;> simp [sameOption]
  case none.trans => intro b; cases b <;> simp [sameOption]
  case some.refl => exact (h _ rfl).refl
  case some.symm =>
    intro b
    cases b
    case none => nofun
    case some => exact (h _ rfl).symm
  case some.trans =>
    intro b c
    cases b <;> cases c
    case some.some => exact (h _ rfl).trans
    all_goals nofun

theorem list {l : List α} (h : ∀ a ∈ l, EquivAt same a) : EquivAt (sameList same) l := by
  induction l
  case nil =>
    constructor
    case refl => rfl
    case symm => intro b; cases b <;> simp [sameList]
    case trans => intro b; cases b <;> simp [sameList]
  case cons a l ih =>
    have ha := h a List.mem_cons_self
    have ih := ih fun a ha => h a (List.mem_cons_of_mem _ ha)
    constructor
    case refl => simp [sameList, ha.refl, ih.refl]
    case symm =>
      intro b
      cases b <;> simp only [sameList, Bool.and_eq_true]
      case nil => nofun
      case cons => exact fun ⟨e, e'⟩ => ⟨ha.symm e, ih.symm e'⟩
    case trans =>
      intro b c
      cases b <;> cases c <;> simp only [sameList, Bool.and_eq_true]
      case cons.cons => exact fun ⟨e, e'⟩ ⟨f, f'⟩ => ⟨ha.trans e f, ih.trans e' f'⟩
      all_goals nofun

end EquivAt

theorem sameEntries_iff {α : Type} {same : α → α → Bool} {a b : List (String × α)} :
    sameEntries same a b ↔ a.length = b.length ∧
      ∀ {key v}, (key, v) ∈ a → ∃ w, Entries.get? key b = some w ∧ same v w := by
  simp [sameEntries, Option.any_eq_true]

-- From one side it is enough to look at the keys of the other, from the other side it takes that
-- there are no more.
theorem EquivAt.entries {α : Type} {same : α → α → Bool} {a : List (String × α)}
    (hd : Entries.Distinct a) (h : ∀ {key v}, (key, v) ∈ a → EquivAt same v) :
    EquivAt (sameEntries same) a := by
  constructor <;> simp only [sameEntries_iff]
  case refl => exact ⟨trivial, fun hm => ⟨_, Entries.get?_of_mem hd hm, (h hm).refl⟩⟩
  case symm =>
    intro b ⟨hl, hw⟩
    have hs : Entries.keys a ⊆ Entries.keys b := by
      intro key hk
      have ⟨_, hm⟩ := Entries.mem_keys.mp hk
      have ⟨_, hg, _⟩ := hw hm
      exact Entries.mem_keys.mpr ⟨_, Entries.mem_of_get? hg⟩
    have hp := hd.keys_perm hs hl
    have hd' : Entries.Distinct b := hp.nodup_iff.mp hd
    refine ⟨hl.symm, fun hm => ?_⟩
    have ⟨_, hm'⟩ := Entries.mem_keys.mp <| hp.mem_iff.mpr <| Entries.mem_keys.mpr ⟨_, hm⟩
    have ⟨_, hg, he⟩ := hw hm'
    cases hd'.value_unique hm (Entries.mem_of_get? hg)
    exact ⟨_, Entries.get?_of_mem hd hm', (h hm').symm he⟩
  case trans =>
    intro b c ⟨hl, hw⟩ ⟨hl', hw'⟩
    refine ⟨hl.trans hl', fun hm => ?_⟩
    have ⟨_, hg, he⟩ := hw hm
    have ⟨_, hg', he'⟩ := hw' (Entries.mem_of_get? hg)
    exact ⟨_, hg', (h hm).trans he he'⟩

namespace Schema

theorem sameItems_eq (a b : Option SchemaRef) : sameItems a b = sameOption sameRef a b := by
  cases a <;> cases b <;> simp [sameItems, sameOption]

theorem sameMembers_eq (as bs : List SchemaRef) : sameMembers as bs = sameList sameRef as bs := by
  induction as generalizing bs <;> cases bs <;> simp_all [sameMembers, sameList]

theorem entriesWithin_eq (as bs : List (String × SchemaRef)) :
    entriesWithin as bs = as.all fun (k, a) => (Entries.get? k bs).any (sameRef a) := by
  induction as with
  | nil => simp [entriesWithin]
  | cons a as ih =>
    obtain ⟨k, a⟩ := a
    cases h : Entries.get? k bs <;> simp [entriesWithin, h, ih]

theorem same_eq (a b : Schema) : a.same b =
    (a.typeKeyword == b.typeKeyword && (a.format == b.format && (a.title == b.title &&
      (a.description == b.description &&
      (sameOption Json.Value.equals a.defaultValue b.defaultValue && (a.nullable == b.nullable &&
      (sameEntries sameRef a.properties b.properties && (a.required == b.required &&
      (sameAdditional a.additionalProperties b.additionalProperties &&
      (sameOption sameRef a.items b.items && (sameList sameRef a.allOf b.allOf &&
      (sameList sameRef a.oneOf b.oneOf && (sameList sameRef a.anyOf b.anyOf &&
      (sameOption Discriminator.same a.discriminator b.discriminator &&
      (sameList Json.Value.equals a.enumValues b.enumValues &&
      (sameOption Json.Value.equals a.constValue b.constValue && (a.readOnly == b.readOnly &&
      (a.writeOnly == b.writeOnly && (a.deprecated == b.deprecated &&
      sameOption Json.Value.equals a.exampleValue b.exampleValue))))))))))))))))))) := by
  cases a
  unfold same
  simp only [sameItems_eq, sameMembers_eq, entriesWithin_eq, sameEntries, Bool.and_assoc]

@[simp] theorem sameRef_ref {t : String} {b : SchemaRef} : sameRef (.ref t) b ↔ b = .ref t := by
  cases b <;> simp [sameRef, eq_comm (a := t)]

@[simp] theorem sameRef_inline {s : Schema} {b : SchemaRef} :
    sameRef (.inline s) b ↔ ∃ t, b = .inline t ∧ s.same t := by
  cases b <;> simp [sameRef]

theorem equivAt_sameRef {place : SchemaRef} (h : place.Only (EquivAt same)) :
    EquivAt sameRef place := by
  cases place <;> constructor <;> simp only [sameRef_ref, sameRef_inline]
  case ref.symm => rintro _ rfl; simp
  case ref.trans => rintro _ _ rfl; simp
  case inline.refl => exact ⟨_, rfl, (h _ rfl).refl⟩
  case inline.symm => rintro _ ⟨_, rfl, he⟩; exact sameRef_inline.mpr ⟨_, rfl, (h _ rfl).symm he⟩
  case inline.trans =>
    rintro _ _ ⟨_, rfl, he⟩ he'
    have ⟨_, hc, he'⟩ := sameRef_inline.mp he'
    exact ⟨_, hc, (h _ rfl).trans he he'⟩

@[simp] theorem sameAdditional_none {b : Option (AdditionalProperties SchemaRef)} :
    sameAdditional none b ↔ b = none := by
  cases b <;> simp [sameAdditional]

@[simp] theorem sameAdditional_allowed {flag : Bool} {b : Option (AdditionalProperties SchemaRef)} :
    sameAdditional (some (.allowed flag)) b ↔ b = some (.allowed flag) := by
  rcases b with - | - | - <;> simp [sameAdditional, eq_comm (a := flag)]

@[simp] theorem sameAdditional_schema {r : SchemaRef} {b : Option (AdditionalProperties SchemaRef)} :
    sameAdditional (some (.schema r)) b ↔ ∃ r', b = some (.schema r') ∧ sameRef r r' := by
  rcases b with - | - | - <;> simp [sameAdditional]

theorem equivAt_sameAdditional {a : Option (AdditionalProperties SchemaRef)}
    (h : ∀ {place}, a = some (.schema place) → EquivAt sameRef place) :
    EquivAt sameAdditional a := by
  rcases a with - | flag | place <;> constructor <;>
    simp only [sameAdditional_none, sameAdditional_allowed, sameAdditional_schema]
  case none.symm | some.allowed.symm => rintro _ rfl; simp
  case none.trans | some.allowed.trans => rintro _ _ rfl; simp
  case some.schema.refl => exact ⟨_, rfl, (h rfl).refl⟩
  case some.schema.symm =>
    rintro _ ⟨_, rfl, he⟩
    exact sameAdditional_schema.mpr ⟨_, rfl, (h rfl).symm he⟩
  case some.schema.trans =>
    rintro _ _ ⟨_, rfl, he⟩ he'
    have ⟨_, hc, he'⟩ := sameAdditional_schema.mp he'
    exact ⟨_, hc, (h rfl).trans he he'⟩

theorem equivAt_discriminator {a : Discriminator} (h : Entries.Distinct a.mapping) :
    EquivAt Discriminator.same a :=
  (EquivAt.eq Discriminator.propertyName).and <|
    .comap Discriminator.mapping <| .entries h fun _ => .eq id

theorem equivAt_same {s : Schema} (hd : s.Distinct) : EquivAt same s := by
  induction s using Schema.induction with
  | step s parts members =>
    have part {role : Role} {place : SchemaRef} (h : s.Has role place) : EquivAt sameRef place :=
      equivAt_sameRef fun _ hc => parts (hc ▸ h) (hd.part (hc ▸ h))
    have member {place : SchemaRef} (h : place ∈ s.allOf) : EquivAt sameRef place :=
      have ⟨_, hi⟩ := List.mem_iff_getElem?.mp h
      equivAt_sameRef fun _ hc => members (hc ▸ hi) (hd.member (hc ▸ hi))
    have value {f : Schema → Option Json.Value} :
        EquivAt (fun a b => sameOption Json.Value.equals (f a) (f b)) s :=
      .comap f <| .option fun _ _ => .of_iff Json.Value.equals_iff
    have places {f : Schema → List SchemaRef} (h : ∀ place ∈ f s, EquivAt sameRef place) :
        EquivAt (fun a b => sameList sameRef (f a) (f b)) s :=
      .comap f <| .list h
    have union {members : List SchemaRef} {role : Nat → Role}
        (h : ∀ {i place}, members[i]? = some place → s.Has (role i) place) :
        ∀ place ∈ members, EquivAt sameRef place :=
      fun _ hm => have ⟨_, hi⟩ := List.mem_iff_getElem?.mp hm; part (h hi)
    rw [funext₂ same_eq]
    exact (EquivAt.eq typeKeyword).and <| (EquivAt.eq format).and <| (EquivAt.eq title).and <|
      (EquivAt.eq description).and <| value.and <| (EquivAt.eq nullable).and <|
      (EquivAt.comap properties (.entries hd.properties fun h => part (.property h))).and <|
      (EquivAt.eq required).and <|
      (EquivAt.comap additionalProperties (equivAt_sameAdditional fun h => part (.additional h))).and <|
      (EquivAt.comap items (.option fun _ h => part (.item h))).and <|
      (places fun _ h => member h).and <| (places <| union .oneOf).and <|
      (places <| union .anyOf).and <|
      (EquivAt.comap discriminator (.option fun d h => equivAt_discriminator (hd.mapping d h))).and <|
      (EquivAt.comap enumValues (.list fun _ _ => .of_iff Json.Value.equals_iff)).and <|
      value.and <| (EquivAt.eq readOnly).and <| (EquivAt.eq writeOnly).and <|
      (EquivAt.eq deprecated).and value

end Schema

theorem MediaType.equivAt_same {m : MediaType} (hd : m.Distinct) : EquivAt same m :=
  have schema : ∀ place ∈ m.schema, EquivAt Schema.sameRef place := fun place hm =>
    Schema.equivAt_sameRef fun s hs => Schema.equivAt_same (hd.schema place hm s hs)
  ((EquivAt.comap MediaType.schema (.option schema)).and <|
    .comap exampleValue <| .option fun _ _ => .of_iff Json.Value.equals_iff).and <|
    .comap examples <| .entries hd.examples fun _ => .of_iff Json.Value.equals_iff

theorem Response.equivAt_same {r : Response} (hd : r.Distinct) : EquivAt same r :=
  ((EquivAt.eq description).and <|
    .comap content <| .entries hd.content.distinct fun h => MediaType.equivAt_same (hd.content.values h)).and <|
    .comap headers <| .entries hd.headers fun _ => .of_iff Json.Value.equals_iff

end OpenApiClient
