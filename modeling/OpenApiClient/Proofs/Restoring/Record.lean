import Mathlib.Data.List.Basic
import OpenApiClient.Proofs.Restoring.Basic

/-!
Reading back the members of a record. Each field is written under its name or not at all, so that it is found again, or
found missing; what a missing one stands for has to be what is not written.
-/

namespace OpenApiClient

open Json (Value)

-- The members of a record, by the values that are written for its fields.
def present (fields : List (String × Option Value)) : List (String × Value) :=
  fields.filterMap fun field => field.2.map (field.1, ·)

section

variable {α : Type} {fields : List (String × Option Value)} {name : String} {v : Value}

@[simp] theorem present_nil : present [] = [] :=
  rfl

@[simp] theorem present_cons {found : Option Value} :
    present ((name, found) :: fields) = optionalMember name id found ++ present fields := by
  cases found <;> rfl

theorem mem_present : (name, v) ∈ present fields ↔ (name, some v) ∈ fields := by
  simp only [present, List.mem_filterMap, Option.map_eq_some_iff]
  constructor
  · rintro ⟨⟨_, _⟩, hf, _, rfl, ⟨⟩⟩
    exact hf
  · exact fun h => ⟨_, h, v, rfl, rfl⟩

theorem keys_present_sublist : (Entries.keys (present fields)).Sublist (Entries.keys fields) := by
  induction fields with
  | nil => exact .slnil
  | cons field rest ih =>
    obtain ⟨name, _ | v⟩ := field
    case none => exact ih.cons _
    case some => exact ih.cons_cons _

theorem distinct_present (h : Entries.Distinct fields) : Entries.Distinct (present fields) :=
  h.sublist keys_present_sublist

theorem Entries.get?_eq_none_iff {entries : List (String × α)} : get? name entries = none ↔ name ∉ keys entries := by
  induction entries with
  | nil => simp [get?, keys]
  | cons entry rest ih =>
    simp only [get?, keys, List.map_cons, List.mem_cons, not_or] at ih ⊢
    split
    case isTrue same => simp [same]
    case isFalse other => simp [ih, Ne.symm other]

theorem get?_present {found : Option Value} (h : Entries.Distinct fields) (hf : (name, found) ∈ fields) :
    Entries.get? name (present fields) = found := by
  cases found with
  | some v => exact Entries.get?_of_mem (distinct_present h) (mem_present.mpr hf)
  | none =>
    refine Entries.get?_eq_none_iff.mpr fun there => ?_
    obtain ⟨v, hv⟩ := Entries.mem_keys.mp there
    cases h.value_unique hf (mem_present.mp hv)

-- The members of a record as they are read.
def presentSources (fields : List (String × Option Value)) : List (String × Source) :=
  (present fields).map fun member => (member.1, member.2.source)

theorem source_present : (Value.object (present fields)).source = .object (presentSources fields) :=
  Value.source_object _

theorem keys_presentSources_sublist : (Entries.keys (presentSources fields)).Sublist (Entries.keys fields) := by
  have keys : Entries.keys (presentSources fields) = Entries.keys (present fields) := by
    simp [presentSources, Entries.keys, Function.comp_def]
  exact keys ▸ keys_present_sublist

theorem distinct_presentSources (h : Entries.Distinct fields) : Entries.Distinct (presentSources fields) :=
  h.sublist keys_presentSources_sublist

-- A list that is written if there is something in it.
def listJson? (items : List Value) : Option Value :=
  if items = [] then none else some (.array items)

-- A map that is written if there is something in it.
def mapJson? (members : List (String × Value)) : Option Value :=
  if members = [] then none else some (.object members)

@[simp] theorem optionalMember_map {write : α → Value} {found : Option α} :
    optionalMember name id (found.map write) = optionalMember name write found := by
  cases found <;> rfl

@[simp] theorem optionalMember_some : optionalMember name id (some v) = [(name, v)] :=
  rfl

@[simp] theorem optionalMember_listJson? {items : List Value} :
    optionalMember name id (listJson? items) = listMember name items := by
  cases items <;> rfl

@[simp] theorem optionalMember_mapJson? {members : List (String × Value)} :
    optionalMember name id (mapJson? members) = mapMember name members := by
  cases members <;> rfl

end

/-! ### Fields -/

section

variable {place : Place} {names : List String} {members : List (String × Source)} {s : Source} {f : Fields}
  {fields : List (String × Option Value)} {n m : Nat}

theorem fieldName?_string (key : String) :
    place.fieldName? names (.string key) = some (if key ∈ names then some key else none) := by
  cases place <;> rfl

theorem collect?_members (h : Entries.Distinct members) :
    place.collect? names (members.map fun m => (.string m.1, m.2)) = some (members.filter (·.1 ∈ names)) := by
  induction members with
  | nil => rfl
  | cons member rest ih =>
    have ⟨fresh, distinct⟩ := List.nodup_cons.mp h
    have missing : Entries.get? member.1 (rest.filter (·.1 ∈ names)) = none :=
      Entries.get?_eq_none_iff.mpr fun there => fresh ((List.filter_sublist.map _).subset there)
    by_cases declared : member.1 ∈ names <;>
      simp [Place.collect?, ih distinct, fieldName?_string, declared, missing]

theorem fields?_object (h : Entries.Distinct members) :
    place.fields? names (.object members) = some ⟨members.filter (·.1 ∈ names), false⟩ := by
  simp [Place.fields?, Source.object, collect?_members h]

theorem mem_collect? {entries : List (Source × Source)} {sources : List (String × Source)}
    (h : place.collect? names entries = some sources) : ∀ source ∈ sources, ∃ entry ∈ entries, entry.2 = source.2 := by
  induction entries generalizing sources with
  | nil =>
    cases h
    exact List.forall_mem_nil _
  | cons entry rest ih =>
    obtain ⟨others, ho, h⟩ := Option.bind_eq_some_iff.mp h
    obtain ⟨name, _, h⟩ := Option.bind_eq_some_iff.mp h
    have later : ∀ source ∈ others, ∃ e ∈ entry :: rest, e.2 = source.2 := fun source hs =>
      have ⟨e, he, same⟩ := ih ho source hs
      ⟨e, List.mem_cons_of_mem _ he, same⟩
    cases name with
    | none =>
      cases h
      exact later
    | some name =>
      dsimp only at h
      split at h <;> cases h
      exact List.forall_mem_cons.mpr ⟨⟨entry, List.mem_cons_self, rfl⟩, later⟩

-- The fields of a record are on one level less than it.
theorem fits_fields (hs : s.Fits n) (h : place.fields? names s = some f) :
    ∃ n', n = n' + 1 ∧ ∀ source ∈ f.sources, source.2.Fits n' := by
  cases hs with
  | leaf | unreadable => simp [Place.fields?, Source.ofAtom, Scalar.ofAtom] at h
  | list fits =>
    unfold Place.fields? at h
    split at h <;> cases h
    exact ⟨_, rfl, fun source hs => fits _ (List.of_mem_zip hs).2⟩
  | @object _ members fits =>
    obtain ⟨sources, hc, rfl⟩ := Option.map_eq_some_iff.mp h
    refine ⟨_, rfl, fun source hs => ?_⟩
    obtain ⟨entry, he, same⟩ := mem_collect? hc source hs
    obtain ⟨member, hm, rfl⟩ := List.mem_map.mp he
    exact same ▸ fits member hm

-- Fields in which each field of a record is found as it was written, with at most so many levels.
structure Holds (m : Nat) (fields : List (String × Option Value)) (f : Fields) : Prop where
  named : f.positional = false
  lower : ∀ {name v}, (name, some v) ∈ fields → v.source.height ≤ m
  get? : ∀ {name found}, (name, found) ∈ fields → Entries.get? name f.sources = found.map Value.source

-- A field that was read, and what is written for it.
structure FieldKept {β : Type} (n m : Nat) (read' : Fields → Option β) (name : String) (b : β)
    (written : Option Value) : Prop where
  fits : ∀ v ∈ written, v.source.Fits n
  back : ∀ {fields f}, Holds m fields f → (name, written) ∈ fields → read' f = some b

theorem record_kept {α : Type} {read' : Source → Option α} {a : α} (place : Place) (names : List String)
    (hn : Entries.keys fields = names) (hd : names.Nodup)
    (fits : fields.Forall fun field => ∀ v ∈ field.2, v.source.Fits n)
    (back : ∀ {s' f}, place.fields? names s' = some f → Holds m fields f → read' s' = some a) :
    Kept (n + 1) (m + 1) read' s a (.object (present fields)) := by
  have distinct : Entries.Distinct fields := by
    rw [Entries.Distinct, hn]
    exact hd
  refine ⟨?fits, fun null => by contradiction, fun height => ?back⟩ <;> rw [source_present] at *
  case fits =>
    refine .object (List.forall_mem_map.mpr fun member hm => ?_)
    exact List.forall_iff_forall_mem.mp fits _ (mem_present.mp hm) member.2 rfl
  case back =>
    have all : (presentSources fields).filter (·.1 ∈ names) = presentSources fields := by
      refine List.filter_eq_self.mpr fun source hs => ?_
      have key : source.1 ∈ Entries.keys fields := keys_presentSources_sublist.subset (List.mem_map_of_mem hs)
      simpa [← hn] using key
    have found : place.fields? names (.object (presentSources fields)) = some ⟨presentSources fields, false⟩ := by
      rw [fields?_object (distinct_presentSources distinct), all]
    refine back found ⟨rfl, ?lower, ?get?⟩
    case lower =>
      intro name v hv
      have member : (name, v.source) ∈ presentSources fields :=
        List.mem_map_of_mem (f := fun member => (member.1, member.2.source)) (mem_present.mpr hv)
      have lower : v.source.height < _ := Source.height_lt_object member
      omega
    case get? =>
      intro name found hf
      rw [← get?_present distinct hf]
      exact Entries.get?_map

end

section

variable {α : Type} {read read' : Source → Option α} {write : α → Value} {place : Place} {f : Fields} {n m : Nat}
  {name : String}

theorem Restores.required (h : Restores read read' write m) (fits : ∀ source ∈ f.sources, source.2.Fits n) {a : α}
    (ha : f.required name read = some a) : FieldKept n m (·.required name read') name a (some (write a)) := by
  obtain ⟨s, found, hr⟩ := Option.bind_eq_some_iff.mp ha
  have kept := h (fits _ (Entries.mem_of_get? found)) hr
  refine ⟨by simpa using kept.fits, fun holds hf => ?_⟩
  simp [Fields.required, holds.get? hf, kept.back (holds.lower hf)]

theorem absent?_source {v : Value} (h : v ≠ .null) : place.absent? v.source = some false := by
  cases v with
  | null => contradiction
  | bool | number | string => cases place <;> rfl
  | array | object => simp [Value.source, Place.absent?]

theorem Restores.optional (h : Restores read read' write m) (fits : ∀ source ∈ f.sources, source.2.Fits n)
    {found : Option α} (ha : f.optional place name read = some found) :
    FieldKept n m (·.optional place name read') name found (found.map write) := by
  cases found with
  | none =>
    refine ⟨by simp, fun holds hf => ?_⟩
    simp [Fields.optional, holds.get? hf, holds.named]
  | some a =>
    unfold Fields.optional at ha
    split at ha
    case h_1 => split at ha <;> cases ha
    case h_2 s found =>
      obtain ⟨absent, present, hr⟩ := Option.bind_eq_some_iff.mp ha
      split at hr
      case isTrue => cases hr
      case isFalse there =>
        obtain ⟨_, hr, ⟨⟩⟩ := Option.map_eq_some_iff.mp hr
        have kept := h (fits _ (Entries.mem_of_get? found)) hr
        have null : write a ≠ .null := by
          intro null
          obtain rfl : s = _ := kept.null null
          cases place <;> simp_all [Place.absent?, Source.ofAtom, Scalar.ofAtom]
        refine ⟨by simpa using kept.fits, fun holds hf => ?_⟩
        simp [Fields.optional, holds.get? hf, absent?_source null, kept.back (holds.lower hf)]

-- What a missing field stands for could have been written there.
theorem Restores.default (h : Restores read read' write m) (fits : ∀ source ∈ f.sources, source.2.Fits n) {a value : α}
    {usual : Source} (hu : usual.Fits n) (hv : read usual = some value) (ha : f.defaulted name value read = some a) :
    FieldKept n m (·.defaulted name value read') name a (some (write a)) := by
  have ⟨s, kept⟩ : ∃ s, Kept n m read' s a (write a) := by
    unfold Fields.defaulted at ha
    split at ha
    case h_1 => exact Option.some.inj ha ▸ ⟨usual, h hu hv⟩
    case h_2 s found => exact ⟨s, h (fits _ (Entries.mem_of_get? found)) ha⟩
  refine ⟨by simpa using kept.fits, fun holds hf => ?_⟩
  simp [Fields.defaulted, holds.get? hf, kept.back (holds.lower hf)]

-- What is not written because it is what a missing field stands for.
theorem Restores.defaultEmpty (h : Restores read read' write m) (fits : ∀ source ∈ f.sources, source.2.Fits n)
    {a empty : α} {written : Option Value} (hw : a = empty ∧ written = none ∨ a ≠ empty ∧ written = some (write a))
    (ha : f.defaulted name empty read = some a) : FieldKept n m (·.defaulted name empty read') name a written := by
  obtain ⟨rfl, rfl⟩ | ⟨other, rfl⟩ := hw
  case inl =>
    refine ⟨by simp, fun holds hf => ?_⟩
    simp [Fields.defaulted, holds.get? hf]
  case inr =>
    unfold Fields.defaulted at ha
    split at ha
    case h_1 => exact absurd (Option.some.inj ha).symm other
    case h_2 s found =>
      have kept := h (fits _ (Entries.mem_of_get? found)) ha
      refine ⟨by simpa using kept.fits, fun holds hf => ?_⟩
      simp [Fields.defaulted, holds.get? hf, kept.back (holds.lower hf)]

theorem Restores.defaultList (h : Restores read read' write m) (fits : ∀ source ∈ f.sources, source.2.Fits n)
    {items : List α} (ha : f.defaulted name [] (place.list? read) = some items) :
    FieldKept n m (·.defaulted name [] (place.list? read')) name items (listJson? (items.map write)) := by
  refine h.list.defaultEmpty fits ?_ ha
  cases items <;> simp [listJson?]

theorem Restores.defaultMap (h : Restores read read' write m) (fits : ∀ source ∈ f.sources, source.2.Fits n)
    {entries : List (String × α)} (ha : f.defaulted name [] (place.map? read) = some entries) :
    FieldKept n m (·.defaulted name [] (place.map? read')) name entries (mapJson? (writeEntries write entries)) := by
  refine h.map.defaultEmpty fits ?_ ha
  cases entries <;> simp [mapJson?, writeEntries]

end

end OpenApiClient
