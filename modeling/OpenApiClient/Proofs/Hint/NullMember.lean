import OpenApiClient.Proofs.Hint.Erasure

/-!
Null as a member of a union. A schema of nothing but null leaves the value open, and as a member it opens the whole
union: null is not all that it adds.
-/

namespace OpenApiClient

namespace Hints

variable {hints before after extra : Hints} {hint : Hint}

theorem filter_push {p : Hint → Bool} :
    (hints.push hint).filter p = if p hint then push (hints.filter p) hint else hints.filter p := by
  by_cases known : hint ∈ hints
  case pos => simp +contextual [push_of_mem, known]
  case neg => cases hp : p hint <;> simp [push, known, List.filter_append, hp]

-- Duplicates may be dropped before or after others are.
theorem filter_extend {p : Hint → Bool} :
    (hints.extend extra).filter p = extend (hints.filter p) (extra.filter p) := by
  induction extra generalizing hints with
  | nil => rfl
  | cons hint rest ih =>
    calc (hints.extend (hint :: rest)).filter p
      _ = ((hints.push hint).extend rest).filter p := rfl
      _ = extend ((hints.push hint).filter p) (rest.filter p) := ih
      _ = extend (hints.filter p) ((hint :: rest).filter p) := by
        rw [filter_push, List.filter_cons]
        split <;> rfl

theorem filter_ofList {p : Hint → Bool} : (ofList hints).filter p = ofList (hints.filter p) :=
  filter_extend

variable {first last : List Hint}

theorem ofList_opened_perm :
    (ofList (first ++ [.null, .mixed] ++ last)).Perm (((ofList (first ++ last)).push .null).push .mixed) := by
  rw [List.perm_ext_iff_of_nodup (ofList_nodup _) (push_nodup (push_nodup (ofList_nodup _) _) _)]
  intro hint
  simp only [mem_ofList, mem_push, List.mem_append, List.mem_cons, List.not_mem_nil, or_false]
  grind

theorem perm_push_null_iff (h : after.Perm ((before.push .null).push .mixed)) :
    after.Perm (before.push .null) ↔ .mixed ∈ before := by
  constructor
  case mp =>
    intro nullable
    have opened : .mixed ∈ after := h.mem_iff.mpr (mem_push.mpr (.inr rfl))
    simpa using nullable.mem_iff.mp opened
  case mpr =>
    intro known
    rwa [push_of_mem (mem_push.mpr (.inl known))] at h

theorem filter_ofList_opened :
    (ofList (first ++ [.null, .mixed] ++ last)).filter (fun hint => hint ≠ .null ∧ hint ≠ .mixed) =
      (ofList (first ++ last)).filter (fun hint => hint ≠ .null ∧ hint ≠ .mixed) := by
  simp only [filter_ofList, List.filter_append]
  simp

theorem extend_nulls_push (h : last ⊆ [.null]) : (hints.extend last).push .null = hints.push .null := by
  cases last with
  | nil => rfl
  | cons hint rest =>
    obtain ⟨first, others⟩ := List.cons_subset.mp h
    have known : rest ⊆ hints.push .null :=
      fun other ho => mem_push.mpr (.inr (List.mem_singleton.mp (others ho)))
    calc (hints.extend (hint :: rest)).push .null
      _ = ((hints.push .null).extend rest).push .null := by rw [List.mem_singleton.mp first]; rfl
      _ = (hints.push .null).push .null := by rw [extend_of_subset known]
      _ = hints.push .null := push_of_mem (mem_push.mpr (.inr rfl))

theorem ofList_opened_eq (h : last ⊆ [.null]) :
    ofList (first ++ [.null, .mixed] ++ last) = ((ofList (first ++ last)).push .null).push .mixed := by
  have known : last ⊆ ((ofList first).push .null).push .mixed :=
    fun hint hm => mem_push.mpr (.inl (mem_push.mpr (.inr (List.mem_singleton.mp (h hm)))))
  calc ofList (first ++ [.null, .mixed] ++ last)
    _ = (((ofList first).push .null).push .mixed).extend last := by rw [ofList_append, ofList_append]; rfl
    _ = ((ofList first).push .null).push .mixed := extend_of_subset known
    _ = ((ofList (first ++ last)).push .null).push .mixed := by rw [ofList_append, extend_nulls_push h]

end Hints

namespace Schema

open Hints

-- The keywords whose members are alternatives.
inductive UnionKeyword where
  | oneOf
  | anyOf

def members (s : Schema) : UnionKeyword → List SchemaRef
  | .oneOf => s.oneOf
  | .anyOf => s.anyOf

-- The schema with one more alternative at the end.
def addMember (s : Schema) (member : SchemaRef) : UnionKeyword → Schema
  | .oneOf => { s with oneOf := s.oneOf ++ [member] }
  | .anyOf => { s with anyOf := s.anyOf ++ [member] }

def onlyNull : Schema where
  typeKeyword := some (.single .null)

variable {expand : String → Except BuildError Hints} {form : ValueForm} {name : String} {s : Schema}
  {member : SchemaRef} {keyword : UnionKeyword} {hints : Hints}

theorem isStructured_of_members (h : s.members keyword ≠ []) : s.isStructured := by
  cases keyword <;> simp_all [members, isStructured]

theorem annotatedReference_of_members (h : s.members keyword ≠ []) : s.annotatedReference = none := by
  simp [annotatedReference, isStructured_of_members h]

theorem members_addMember : (s.addMember member keyword).members keyword = s.members keyword ++ [member] := by
  cases keyword <;> rfl

theorem kind_addMember (h : s.members keyword ≠ []) : (s.addMember member keyword).kind = s.kind := by
  have added : (s.addMember member keyword).members keyword ≠ [] := by simp [members_addMember]
  rw [kind_eq, kind_eq s, annotatedReference_of_members added, annotatedReference_of_members h]
  cases keyword <;> rfl

theorem memberHints_append {word : String} {i : Nat} {members more : List SchemaRef} :
    memberHints expand form name word i (members ++ more) = do
      let first ← memberHints expand form name word i members
      let others ← memberHints expand form name word (i + members.length) more
      return first ++ others := by
  induction members generalizing i with
  | nil => simp [memberHints]
  | cons place rest ih =>
    have later : i + (place :: rest).length = i + 1 + rest.length := by
      rw [List.length_cons, Nat.add_right_comm, Nat.add_assoc]
    simp only [List.cons_append, memberHints, ih, later, bind_assoc, pure_bind, List.append_assoc]

theorem hintsAt_onlyNull : hintsAt expand form name (.inline onlyNull) = .ok [.null, .mixed] := by
  have kind : onlyNull.kind = .primitive := by rfl
  have types : onlyNull.types = [.null] := rfl
  rw [hintsAt_inline rfl, hints_eq, kind, types]
  rfl

-- The hints of a schema that declares no type: those up to the end of a union, and those after it.
def unionHints (expand : String → Except BuildError Hints) (form : ValueForm) (name : String) (s : Schema)
    (keyword : UnionKeyword) : Except BuildError (List Hint × List Hint) := do
  let implied ← s.impliedHints expand form name
  let ones ← memberHints expand form name "oneOf" 0 s.oneOf
  let anys ← memberHints expand form name "anyOf" 0 s.anyOf
  let nullable := if s.nullable == some true then [.null] else []
  return match keyword with
    | .oneOf => (implied ++ ones, anys ++ nullable)
    | .anyOf => (implied ++ ones ++ anys, nullable)

theorem not_isEnum (he : s.enumValues = []) : ¬ s.kind.isEnum := by
  simp [isEnum_iff, he, scalarValues]

theorem types_eq_nil (ht : s.typeKeyword = none) : s.types = [] := by
  simp [types, ht]

theorem hints_eq_union (ht : s.typeKeyword = none) (he : s.enumValues = []) : s.hints expand form name =
    (s.unionHints expand form name keyword).map fun parts => orMixed (ofList (parts.1 ++ parts.2)) := by
  rw [hints_eq, if_neg (not_isEnum he), types_eq_nil ht, unionHints]
  cases s.impliedHints expand form name
  case error => rfl
  cases memberHints expand form name "oneOf" 0 s.oneOf
  case error => rfl
  cases memberHints expand form name "anyOf" 0 s.anyOf
  case error => rfl
  cases keyword <;> simp [bind, Except.bind, pure, Except.pure, Except.map]

-- What the added member may be stands at the end of its union, and nothing else is different.
theorem unionHints_addMember {extra : Hints} (h : s.members keyword ≠ [])
    (hm : ∀ name, hintsAt expand form name member = .ok extra) :
    (s.addMember member keyword).unionHints expand form name keyword =
      (s.unionHints expand form name keyword).map fun parts => (parts.1 ++ extra, parts.2) := by
  have added {word : String} {members : List SchemaRef} :
      memberHints expand form name word 0 (members ++ [member]) =
        (memberHints expand form name word 0 members).map (· ++ extra) := by
    rw [memberHints_append]
    cases memberHints expand form name word 0 members
    case error => rfl
    simp [memberHints, hm, bind, Except.bind, pure, Except.pure, Except.map]
  have implied : (s.addMember member keyword).impliedHints expand form name = s.impliedHints expand form name := by
    rw [impliedHints, impliedHints, kind_addMember h]
    cases keyword <;> rfl
  have ones : memberHints expand form name "oneOf" 0 (s.addMember member .oneOf).oneOf =
      (memberHints expand form name "oneOf" 0 s.oneOf).map (· ++ extra) := added
  have anys : memberHints expand form name "anyOf" 0 (s.addMember member .anyOf).anyOf =
      (memberHints expand form name "anyOf" 0 s.anyOf).map (· ++ extra) := added
  rw [unionHints, unionHints, implied]
  cases s.impliedHints expand form name
  case error => rfl
  cases keyword with
  | oneOf =>
    have rest : (s.addMember member .oneOf).anyOf = s.anyOf := rfl
    rw [ones, rest]
    cases memberHints expand form name "oneOf" 0 s.oneOf
    case error => rfl
    cases memberHints expand form name "anyOf" 0 s.anyOf
    case error => rfl
    simp [Except.map, bind, Except.bind, pure, Except.pure, addMember]
  | anyOf =>
    have rest : (s.addMember member .anyOf).oneOf = s.oneOf := rfl
    rw [anys, rest]
    cases memberHints expand form name "oneOf" 0 s.oneOf
    case error => rfl
    cases memberHints expand form name "anyOf" 0 s.anyOf
    case error => rfl
    simp [Except.map, bind, Except.bind, pure, Except.pure, addMember]

theorem orMixed_of_known (hn : hints.Nodup) (known : ∃ hint ∈ hints, hint ≠ .null) : orMixed hints = hints := by
  rw [orMixed, if_neg]
  rw [eq_nil_or_null_iff hn]
  simpa using known

theorem known_memberHints {word : String} {i : Nat} {members : List SchemaRef}
    (href : ∀ ⦃target hints⦄, expand target = .ok hints → WellFormed form hints) (hne : members ≠ [])
    (hm : memberHints expand form name word i members = .ok hints) : ∃ hint ∈ hints, hint ≠ .null := by
  obtain ⟨place, rest, rfl⟩ := List.exists_cons_of_ne_nil hne
  simp only [memberHints, bind_eq_ok, pure_eq_ok] at hm
  obtain ⟨first, hf, others, _, rfl⟩ := hm
  obtain ⟨hint, hm, known⟩ := (wellFormed_hintsAt place href _ hf).known
  exact ⟨hint, List.mem_append_left _ hm, known⟩

-- After the last union that there is, null is all that can follow.
theorem unionHints_last {parts : List Hint × List Hint} (hu : s.unionHints expand form name keyword = .ok parts)
    (ends : keyword = .anyOf ∨ s.anyOf = []) : parts.2 ⊆ [.null] := by
  simp only [unionHints, bind_eq_ok, pure_eq_ok] at hu
  obtain ⟨implied, _, ones, _, anys, ha, rfl⟩ := hu
  have nullable : (if s.nullable == some true then [.null] else []) ⊆ [Hint.null] := by
    split <;> simp
  cases keyword with
  | anyOf => exact nullable
  | oneOf =>
    rw [ends.resolve_left (by simp)] at ha
    cases ha
    exact nullable

-- A member is never null alone, so neither is a union.
theorem known_unionHints {parts : List Hint × List Hint}
    (href : ∀ ⦃target hints⦄, expand target = .ok hints → WellFormed form hints) (h : s.members keyword ≠ [])
    (hu : s.unionHints expand form name keyword = .ok parts) : ∃ hint ∈ parts.1, hint ≠ .null := by
  simp only [unionHints, bind_eq_ok, pure_eq_ok] at hu
  obtain ⟨implied, _, ones, ho, anys, ha, rfl⟩ := hu
  cases keyword with
  | oneOf =>
    obtain ⟨hint, hm, known⟩ := known_memberHints href h ho
    exact ⟨hint, by simp [hm], known⟩
  | anyOf =>
    obtain ⟨hint, hm, known⟩ := known_memberHints href h ha
    exact ⟨hint, by simp [hm], known⟩

-- So there is no need to leave a union open.
theorem hintsAt_union (href : ∀ ⦃target hints⦄, expand target = .ok hints → WellFormed form hints)
    (ht : s.typeKeyword = none) (he : s.enumValues = []) (h : s.members keyword ≠ []) :
    hintsAt expand form name (.inline s) =
      (s.unionHints expand form name keyword).map fun parts => ofList (parts.1 ++ parts.2) := by
  rw [hintsAt_inline (annotatedReference_of_members h), hints_eq_union ht he]
  cases hu : s.unionHints expand form name keyword with
  | error => rfl
  | ok parts =>
    obtain ⟨hint, hm, known⟩ := known_unionHints href h hu
    have known : ∃ hint ∈ ofList (parts.1 ++ parts.2), hint ≠ .null := ⟨hint, by simp [hm], known⟩
    exact congrArg Except.ok (orMixed_of_known (ofList_nodup _) known)

end Schema

namespace Document

open Hints

variable {d : Document} {schemas : SchemaIndex} {form : ValueForm} {visiting : List String} {steps : Nat}
  {name : String} {s : Schema} {keyword : Schema.UnionKeyword}

-- The hints of a place that is met while the names in `visiting` are being expanded.
def hintsWithin (d : Document) (schemas : SchemaIndex) (form : ValueForm) (visiting : List String) (steps : Nat)
    (name : String) (place : SchemaRef) : Except BuildError Hints :=
  Schema.hintsAt (fun target => d.expandReference schemas form visiting target steps) form name place

theorem hintsAt_eq_hintsWithin {place : SchemaRef} : d.hintsAt schemas form name (some place) =
    d.hintsWithin schemas form [] d.maxSteps name place := rfl

-- Wherever a union is met, a member of nothing but null makes it nullable and open at once. It is no more
-- than nullable exactly if it was open before.
theorem hintsWithin_addMember_onlyNull (ht : s.typeKeyword = none) (he : s.enumValues = [])
    (h : s.members keyword ≠ []) :
    let withNull := s.addMember (.inline .onlyNull) keyword
    (∀ error, d.hintsWithin schemas form visiting steps name (.inline withNull) = .error error ↔
      d.hintsWithin schemas form visiting steps name (.inline s) = .error error) ∧
    ∀ before, d.hintsWithin schemas form visiting steps name (.inline s) = .ok before →
      ∃ after, d.hintsWithin schemas form visiting steps name (.inline withNull) = .ok after ∧
        after.Perm ((before.push .null).push .mixed) ∧
        (after.Perm (before.push .null) ↔ .mixed ∈ before) ∧
        after.filter (fun hint => hint ≠ .null ∧ hint ≠ .mixed) =
          before.filter (fun hint => hint ≠ .null ∧ hint ≠ .mixed) ∧
        (keyword = .anyOf ∨ s.anyOf = [] → after = (before.push .null).push .mixed) := by
  intro withNull
  have href ⦃target hints⦄ (h : d.expandReference schemas form visiting target steps = .ok hints) :
      WellFormed form hints := wellFormed_expandReference h
  have added : withNull.members keyword ≠ [] := by
    rw [Schema.members_addMember]
    simp
  have same : withNull.typeKeyword = s.typeKeyword ∧ withNull.enumValues = s.enumValues := by
    cases keyword <;> exact ⟨rfl, rfl⟩
  simp only [hintsWithin, Schema.hintsAt_union href ht he h,
    Schema.hintsAt_union href (same.1.trans ht) (same.2.trans he) added,
    withNull, Schema.unionHints_addMember h fun _ => Schema.hintsAt_onlyNull]
  cases hu : s.unionHints (d.expandReference schemas form visiting · steps) form name keyword with
  | error => simp [Except.map]
  | ok parts =>
    refine ⟨by simp [Except.map], ?_⟩
    rintro before ⟨⟩
    have ends := Schema.unionHints_last hu
    refine ⟨_, rfl, ofList_opened_perm, perm_push_null_iff ofList_opened_perm, filter_ofList_opened,
      fun last => ofList_opened_eq (ends last)⟩

end Document

namespace Letter

-- A letter has a text, or null in its place.
def text : Schema where
  oneOf := [.inline { typeKeyword := some (.single .string) }]

def letter : Schema where
  properties := [("text", .inline (text.addMember (.inline .onlyNull) .oneOf))]

def document : Document where
  openapi := "3.1.0"
  info := { title := "Post", version := "1" }
  components := some { schemas := [("Letter", .inline letter)] }

theorem named : ∃ n, document.named = .ok n := by
  have named : document.named.toOption.map (fun _ => ()) = some () := by decide +kernel
  obtain ⟨n, named, -⟩ := exists_ok named
  exact ⟨n, named⟩

theorem text_members : text.members .oneOf ≠ [] := by
  simp [text, Schema.members]

-- Whatever the document is, nothing is looked up in it.
theorem hintsAt_text {d : Document} {schemas : SchemaIndex} {form : ValueForm} :
    d.hintsAt schemas form "LetterText" (some (.inline text)) = .ok [.string] := by
  cases form <;> rfl

end Letter

namespace Document

open Letter

theorem letter_hintsWithin : ∃ n, document.named = .ok n ∧
    text.typeKeyword = none ∧ text.enumValues = [] ∧ text.members .oneOf ≠ [] ∧ ∀ form, ∃ after,
      document.hintsAt n.schemas form "LetterText" (some (.inline text)) = .ok [.string] ∧
      document.hintsAt n.schemas form "LetterText" (some (.inline (text.addMember (.inline .onlyNull) .oneOf))) =
        .ok after ∧ after.Perm [.string, .null, .mixed] ∧ after = [.string, .null, .mixed] := by
  obtain ⟨n, named⟩ := Letter.named
  refine ⟨n, named, rfl, rfl, text_members, fun form => ?_⟩
  obtain ⟨after, hafter, perm, _, _, order⟩ :=
    (hintsWithin_addMember_onlyNull rfl rfl text_members).2 _ (hintsAt_eq_hintsWithin.symm.trans hintsAt_text)
  exact ⟨after, hintsAt_text, hintsAt_eq_hintsWithin.trans hafter, perm, order (.inr rfl)⟩

-- So a text that may be null could be anything.
theorem not_only_nullable : ¬ ∀ (d : Document) (n : NamedDocument), d.named = .ok n →
    ∀ (form : ValueForm) (name : String) (s : Schema) (keyword : Schema.UnionKeyword),
      s.typeKeyword = none → s.enumValues = [] → s.members keyword ≠ [] → ∀ before,
        d.hintsAt n.schemas form name (some (.inline s)) = .ok before → ∃ after,
          d.hintsAt n.schemas form name (some (.inline (s.addMember (.inline .onlyNull) keyword))) = .ok after ∧
            after.Perm (before.push .null) := by
  intro nullable
  obtain ⟨n, named⟩ := Letter.named
  obtain ⟨after, opened, perm⟩ := nullable document n named .typed "LetterText" text .oneOf rfl rfl text_members
    [.string] hintsAt_text
  cases opened
  exact absurd perm (by decide)

end Document

end OpenApiClient
