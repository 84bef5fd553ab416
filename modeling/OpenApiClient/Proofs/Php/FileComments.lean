import OpenApiClient.Php.Generator
import OpenApiClient.Proofs.Naming.Casing
import OpenApiClient.Proofs.Php.DescribedTypes
import OpenApiClient.Proofs.Php.Docblocks

/-!
The docblocks of each file, and what they are to be told apart from: all other lines are code.
-/

namespace OpenApiClient.Php

theorem isCode_string (s : String) : IsCode (string s) := .literal rfl

theorem isCode_of_isWord {name : String} (h : Naming.IsWord name) : IsCode name := by
  obtain ⟨c, rest, chars⟩ := List.exists_cons_of_ne_nil (by simpa using h.ne_empty : name.toList ≠ [])
  have first : Naming.isNameChar c := h.chars c (by simp [chars])
  have other : c ≠ ' ' ∧ c ≠ '/' := by
    constructor
    all_goals
      rintro rfl
      contradiction
  exact ⟨by simp [isCode, unindented, chars, other]⟩

-- The docblocks of a file are those of its comment and of its members.
theorem ClassFile.sealed_iff (f : ClassFile) {p q : Prop} (keyword : IsCode f.keyword)
    (preamble : SealedIff f.preamble p) (members : SealedIff f.members q) :
    (∀ block ∈ docblocks f.lines, Sealed block) ↔ p ∧ q := by
  have head : Encloses ["<?php", "", "declare(strict_types=1);", "", "namespace " ++ f.declaredNamespace ++ ";", ""]
      [] :=
    .literal rfl <| .empty_line <| .literal rfl <| .empty_line <| .cons (.append (.append (.literal rfl))) <|
      .empty_line .nil
  obtain ⟨blocks, encloses, plain, _⟩ := preamble.blocks
  obtain ⟨blocks', encloses', _, indented⟩ := members.blocks
  have lines : Encloses f.lines ([] ++ blocks ++ blocks'.map indent) :=
    (head.append encloses).append (.braced (.append (.append (.append keyword))) encloses')
  rw [lines.docblocks_eq, List.nil_append, List.forall_mem_append, List.forall_mem_map, plain, indented]

namespace Configuration

theorem sealed_constants (c : Client) : ∀ part ∈ constants c, SealedIff part True := by
  have servers : Encloses ((c.servers.map (string ·.url)).map (· ++ ",")) [] := by
    refine .code ?_
    simp only [List.forall_mem_map]
    exact fun s _ => (isCode_string s.url).append
  have type : SealedIff ["/** @var list<string> */"] True :=
    .line_fixed (by decide : _ = "/** " ++ "@var list<string>" ++ " */") (.literal rfl)
  simp only [constants, List.forall_mem_cons]
  exact ⟨.code (.cons (.append (.append (.literal rfl))) .nil), .code (.cons (.append (.append (.literal rfl))) .nil),
    type.append_code (.enclose (.literal rfl) servers (.literal rfl)), nofun⟩

theorem sealed_constructor : SealedIff constructor True :=
  .append_code (.comment_fixed rfl) <| .constructorLines <| .literal rfl <| .literal rfl <| .literal rfl .nil

theorem sealed_setters : ∀ part ∈ setters, SealedIff part True := by
  simp only [setters, List.forall_mem_cons]
  exact ⟨.code (.braced (.literal rfl) (.literal rfl .nil)), .code (.braced (.literal rfl) (.literal rfl .nil)),
    .code (.braced (.literal rfl) (.literal rfl .nil)), nofun⟩

end Configuration

theorem sealed_configurationFile (root : String) (c : Client) :
    ∀ block ∈ docblocks (configurationFile root c).lines, Sealed block := by
  have keyword : IsCode "final class" := .literal rfl
  have settings : Inert ("Connection settings for the " ++ commentText c.info.title ++ " client.") :=
    (inert_between_iff rfl rfl).mpr (inert_commentText _)
  have preamble : SealedIff (configurationFile root c).preamble _ := .comment_one
  have members : SealedIff (configurationFile root c).members True := .spaced_safe <| by
    simp only [List.forall_mem_append, List.forall_mem_singleton]
    exact ⟨⟨Configuration.sealed_constants c, Configuration.sealed_constructor⟩, Configuration.sealed_setters⟩
  exact ((configurationFile root c).sealed_iff keyword preamble members).mpr ⟨settings, trivial⟩

namespace AbstractApi

theorem encloses_constructor : Encloses constructor [] :=
  .constructorLines <| .literal rfl <| .literal rfl <| .literal rfl <| .literal rfl .nil

theorem encloses_address : Encloses address [] :=
  .append (.append (.clause (.literal rfl) (.literal rfl .nil)) <|
    .empty_line <| .literal rfl <| .literal rfl .nil) <| .clause (.literal rfl) (.cons (.append (.literal rfl)) .nil)

theorem encloses_requestHeaders : Encloses requestHeaders [] :=
  .append (.append (.literal rfl <| .literal rfl .nil)
    (.clause (.literal rfl) <| .clause (.literal rfl) <| .literal rfl .nil)) <|
      .clause (.literal rfl) <| .literal rfl .nil

theorem encloses_requestCookies : Encloses requestCookies [] :=
  .append (.append (.literal rfl .nil) (.clause (.literal rfl) <| .clause (.literal rfl) <| .literal rfl .nil))
    (.clause (.literal rfl) <| .literal rfl .nil)

theorem encloses_requestBody : Encloses requestBody [] :=
  .clause (.literal rfl) <| .literal rfl <| .literal rfl <|
    .literal rfl .nil

theorem sealed_send : SealedIff send True := by
  have texts : SealedIff (comment ((["$pathParams", "$query", "$headers", "$cookies"].map
      ("@param array<string, mixed> " ++ ·)).map some)) _ := .comment_map
  have names : ∀ name ∈ ["$pathParams", "$query", "$headers", "$cookies"], Inert name := by
    simp only [List.forall_mem_cons]
    exact ⟨.literal rfl, .literal rfl, .literal rfl, .literal rfl, nofun⟩
  have fixed : ∀ text ∈ ["$pathParams", "$query", "$headers", "$cookies"].map ("@param array<string, mixed> " ++ ·),
      Inert text :=
    List.forall_mem_map.mpr fun name hn => (inert_before_iff rfl).mpr (names name hn)
  have parameters : Encloses sendParameters [] :=
    .literal rfl <| .literal rfl <| .literal rfl <| .literal rfl <| .literal rfl <| .literal rfl <|
      .literal rfl <| .literal rfl .nil
  have body : List.Forall₂ Encloses _ _ := .cons encloses_address <| .cons encloses_requestHeaders <|
    .cons encloses_requestCookies <| .cons encloses_requestBody <|
      .cons (.cons (.literal rfl : IsCode "return $this->httpClient->sendRequest($request);") .nil) .nil
  exact .append_code (.append_code (.append_code (texts.congr (iff_true_intro fixed)) <|
    .enclose (.literal rfl) parameters (.literal rfl)) <| .indent (.spaced body)) (.literal rfl .nil)

theorem encloses_decode : Encloses decode [] :=
  .braced (.literal rfl) <| .append (.append (.literal rfl .nil) (.clause (.literal rfl) (.literal rfl .nil))) <|
    .empty_line <| .literal rfl .nil

theorem encloses_returnMatch {arms : Lines} (h : Encloses arms []) : Encloses (returnMatch arms) [] :=
  .enclose (.literal rfl) h (.literal rfl)

theorem encloses_onPlain {head : String} {arms : Lines} (hh : IsCode head) (ha : Encloses arms []) :
    Encloses (onPlain head arms) [] :=
  .braced hh <| .append (.literal rfl <| .empty_line .nil) (encloses_returnMatch ha)

theorem encloses_scalar : Encloses scalar [] :=
  encloses_onPlain (.literal rfl) <| .literal rfl <| .literal rfl <| .literal rfl .nil

theorem encloses_queryValue : Encloses queryValue [] :=
  encloses_onPlain (.literal rfl) <| .literal rfl <| .literal rfl <| .literal rfl .nil

theorem encloses_plain : Encloses plain [] :=
  .braced (.literal rfl) <| encloses_returnMatch <| .literal rfl <| .literal rfl <| .literal rfl .nil

end AbstractApi

theorem sealed_abstractApiFile (root : String) : ∀ block ∈ docblocks (abstractApiFile root).lines, Sealed block := by
  have keyword : IsCode "abstract class" := .literal rfl
  have preamble : SealedIff (abstractApiFile root).preamble True := .code_append (.literal rfl <| .literal rfl <|
    .literal rfl <| .literal rfl <| .empty_line .nil) (.comment_fixed rfl)
  have members : SealedIff (abstractApiFile root).members True := .spaced_safe <| by
    simp only [List.forall_mem_cons]
    exact ⟨.code AbstractApi.encloses_constructor, AbstractApi.sealed_send, .code AbstractApi.encloses_decode,
      .code AbstractApi.encloses_scalar, .code AbstractApi.encloses_queryValue, .code AbstractApi.encloses_plain,
      nofun⟩
  exact ((abstractApiFile root).sealed_iff keyword preamble members).mpr ⟨trivial, trivial⟩

theorem sealed_apiExceptionFile (root : String) : ∀ block ∈ docblocks (apiExceptionFile root).lines, Sealed block := by
  have keyword : IsCode "final class" := .literal rfl
  have preamble : SealedIff (apiExceptionFile root).preamble True := .comment_fixed rfl
  have members : SealedIff (apiExceptionFile root).members True :=
    .append_code (.append_code (.append_code (.comment_fixed rfl)
      (.enclose (.literal rfl) (.literal rfl <| .literal rfl <| .literal rfl .nil) (.literal rfl)))
        (.indent (.cons (.append (.literal rfl)) .nil))) (.literal rfl .nil)
  exact ((apiExceptionFile root).sealed_iff keyword preamble members).mpr ⟨trivial, trivial⟩

-- The comment on the class for a tag, which says so unless the tag is described.
def tagDescription (a : Api) : String :=
  match nonempty a.description with
  | some text => commentText text
  | none => "Operations tagged \"" ++ a.tag.written ++ "\"."

theorem StatusArm.isCode_text (a : StatusArm) : IsCode a.text := by
  have test : IsCode a.test.text := by
    cases a.test with
    | exactly => exact .append (.literal rfl)
    | hundreds => exact .append (.literal rfl)
    | otherwise => exact (.literal rfl)
  exact .append (.append (.append test))

theorem encloses_groupLines (e : Endpoint) : Encloses (locationGroups.flatMap (groupLines e)) [] := by
  have names : ∀ group ∈ locationGroups, IsCode group.1 := by
    simp only [locationGroups, List.forall_mem_cons]
    exact ⟨.literal rfl, .literal rfl, .literal rfl, .literal rfl, nofun⟩
  refine .flatMap fun group hg => ?_
  unfold groupLines
  dsimp only
  split
  case isTrue => exact .nil
  case isFalse => exact .cons (.append (.append (.append (names group hg)))) .nil

theorem encloses_payloadLines (e : Endpoint) : Encloses (payloadLines e) [] := by
  unfold payloadLines
  split
  case h_1 => exact .nil
  case h_2 => exact .cons (.append (.append (.literal rfl))) <| .cons (.append (.append (.literal rfl))) .nil

theorem encloses_dispatchLines (root : String) (e : Endpoint) : Encloses (dispatchLines root e) [] := by
  have arms : Encloses ((statusArms root e.responses).map (·.text)) [] := .code <|
    List.forall_mem_map.mpr fun a _ => a.isCode_text
  unfold dispatchLines
  split
  case isTrue => exact .literal rfl .nil
  case isFalse =>
    exact .append (.literal rfl <| .literal rfl <| .literal rfl <| .empty_line .nil) <|
      .enclose (.literal rfl) arms (.literal rfl)

-- All that is said of a method is made safe.
theorem sealed_methodComment (root : String) (e : Endpoint) : SealedIff (methodComment root e) True := by
  refine (SealedIff.comment _).congr (iff_true_intro fun text ht => ?_)
  obtain ⟨line, _, same⟩ := List.mem_map.mp ht
  split at same
  case isTrue => contradiction
  case isFalse => exact Option.some.inj same ▸ inert_commentText line

theorem sealed_methodLines (root : String) (e : Endpoint) : SealedIff (methodLines root e) True := by
  have arguments : Encloses ([string e.method.name ++ ",", string e.path ++ ","] ++
      locationGroups.flatMap (groupLines e) ++ payloadLines e) [] :=
    .append (.append (.cons (isCode_string _).append <| .cons (isCode_string _).append .nil) (encloses_groupLines e))
      (encloses_payloadLines e)
  exact (sealed_methodComment root e).append_code <|
    .braced (.append (.append (.append (.append (.append (.literal rfl)))))) <|
      .append (.append (.enclose (.literal rfl) arguments (.literal rfl)) (.empty_line .nil)) <|
        encloses_dispatchLines root e

theorem inert_tagDescription_iff {a : Api} :
    Inert (tagDescription a) ↔ (nonempty a.description = none → Inert a.tag.written) := by
  unfold tagDescription
  split
  case h_1 text description =>
    simp [description, inert_commentText]
  case h_2 description =>
    have named : Inert ("Operations tagged \"" ++ a.tag.written ++ "\".") ↔ Inert a.tag.written :=
      inert_between_iff rfl rfl
    simp [named, description]

theorem sealed_apiFile_iff (root : String) (a : Api) (endpoints : List Endpoint) :
    (∀ block ∈ docblocks (apiFile root a endpoints).lines, Sealed block) ↔
      (nonempty a.description = none → Inert a.tag.written) := by
  have keyword : IsCode "final class" := .literal rfl
  have preamble : SealedIff (apiFile root a endpoints).preamble (Inert (tagDescription a)) :=
    .code_append (.cons (.append (.append (.literal rfl))) <| .empty_line .nil) .comment_one
  have members : SealedIff (apiFile root a endpoints).members True := .spaced_safe <|
    List.forall_mem_map.mpr fun e _ => sealed_methodLines root e
  rw [(apiFile root a endpoints).sealed_iff keyword preamble members, inert_tagDescription_iff, and_true]

-- What is said of a class is made safe, and the rest is fixed.
theorem sealed_classComment (description : Option String) (deprecated : Bool) :
    SealedIff (classComment description deprecated) True := by
  have mark : Inert "@deprecated" := .literal rfl
  unfold classComment
  split
  case h_1 => exact (SealedIff.comment _).congr (by simp [mark, inert_commentText])
  case h_2 => exact (SealedIff.comment _).congr (by simp [inert_commentText])
  case h_3 => exact .comment_fixed rfl
  case h_4 => exact .code .nil

theorem sealed_backedEnumFile (root : String) (e : Entity) (type : String) :
    ∀ block ∈ docblocks (backedEnumFile root e type).lines, Sealed block := by
  have keyword : IsCode "enum" := .literal rfl
  have members : Encloses (backedEnumFile root e type).members [] := by
    refine .code ?_
    simp only [backedEnumFile, List.forall_mem_map]
    exact fun _ _ => .append (.append (.append (.append (.literal rfl))))
  have preamble := sealed_classComment e.description e.deprecated
  exact ((backedEnumFile root e type).sealed_iff keyword preamble (.code members)).mpr ⟨trivial, trivial⟩

theorem DeclaredCase.isCode_key (reserved : List String) (cases : List EnumCase) :
    ∀ c ∈ ofCases reserved cases, IsCode c.key := by
  have nothing : ∀ c ∈ ([] : List DeclaredCase), IsCode c.key := by simp
  refine List.foldlRecOn cases (add reserved) (motive := fun declared => ∀ c ∈ declared, IsCode c.key) nothing ?_
  intro declared keys c _
  rw [add, List.forall_mem_append, List.forall_mem_singleton]
  exact ⟨keys, isCode_string _⟩

namespace Instances

theorem sealed_classLines (e : Entity) : SealedIff (classLines e) True := by
  have mark : Inert "@deprecated" := .literal rfl
  have explained : Inert explanation := .literal rfl
  unfold classLines
  generalize explanation = said at explained
  refine (SealedIff.comment _).congr (iff_true_intro fun text ht => ?_)
  rcases List.mem_append.mp ht with ht | ht
  case inl =>
    rcases List.mem_append.mp ht with ht | ht
    case inl =>
      split at ht
      case h_1 => simp_all [inert_commentText]
      case h_2 => exact absurd ht List.not_mem_nil
    case inr => simp_all
  case inr =>
    split at ht
    case isTrue => simp_all
    case isFalse => exact absurd ht List.not_mem_nil

theorem inert_valueType (cases : List EnumCase) : Inert (valueType cases) := by
  have fixed : Inert "string" := .literal rfl
  unfold valueType
  split
  case h_1 => exact fixed
  case h_2 types =>
    refine inert_join_iff.mpr fun type ht => ?_
    obtain ⟨c, _, rfl⟩ := List.mem_map.mp (List.mem_eraseDups.mp ht)
    cases c.value <;> exact .literal rfl

theorem sealed_table {types : String} {cases : List DeclaredCase} (h : Inert types)
    (keys : ∀ c ∈ cases, IsCode c.key) : SealedIff (table types cases) True := by
  have type : SealedIff ["/** @var array<string, " ++ types ++ "> */"] True := by
    have line : "/** @var array<string, " ++ types ++ "> */" =
        "/** " ++ ("@var array<string, " ++ types ++ ">") ++ " */" := by
      simp [← String.toList_inj]
    exact .line_fixed line ((inert_between_iff rfl rfl).mpr h)
  have entries : Encloses (cases.map fun c => c.key ++ " => " ++ c.literal ++ ",") [] := .code <|
    List.forall_mem_map.mpr fun c hc => .append (.append (.append (keys c hc)))
  exact type.append_code (.enclose (.literal rfl) entries (.literal rfl))

theorem sealed_cache : SealedIff cache True := by
  have type : SealedIff ["/** @var array<string, self> */"] True :=
    .line_fixed (by decide : _ = "/** " ++ "@var array<string, self>" ++ " */") (.literal rfl)
  exact type.append_code (.literal rfl .nil)

theorem encloses_accessor (c : DeclaredCase) : Encloses (accessor c) [] :=
  .braced (.append (.append (.literal rfl))) (.cons (.append (.append (.literal rfl))) .nil)

theorem encloses_constructor (type : String) : Encloses (constructor type) [] :=
  .braced (.append (.append (.literal rfl))) .nil

theorem encloses_fromLiteral (type : String) : Encloses (fromLiteral type) [] :=
  .braced (.append (.append (.literal rfl))) <| .literal rfl <|
    .cons (.append (.literal rfl)) .nil

theorem encloses_tryFrom (type : String) : Encloses (tryFrom type) [] :=
  .braced (.append (.append (.literal rfl))) <|
    .append (.clause (.literal rfl) (.clause (.literal rfl) (.literal rfl .nil))) <| .empty_line <| .literal rfl .nil

theorem sealed_allCases : SealedIff allCases True :=
  .append_code (.comment_fixed rfl) (.braced (.literal rfl) (.literal rfl .nil))

theorem encloses_jsonSerialize (type : String) : Encloses (jsonSerialize type) [] :=
  .braced (.append (.literal rfl)) (.literal rfl .nil)

theorem encloses_instanceLines : Encloses instanceLines [] :=
  .braced (.literal rfl) (.literal rfl .nil)

end Instances

open Instances in
theorem sealed_instancesFile (root : String) (e : Entity) :
    ∀ block ∈ docblocks (instancesFile root e).lines, Sealed block := by
  have keyword : IsCode "final class" := .literal rfl
  have table := sealed_table (inert_valueType e.cases) (DeclaredCase.isCode_key reservedInstances e.cases)
  have members : SealedIff (instancesFile root e).members True := .spaced_safe <| by
    simp only [List.forall_mem_append, List.forall_mem_cons, List.forall_mem_map]
    exact ⟨⟨⟨table, sealed_cache, .code (encloses_constructor _), List.forall_mem_nil _⟩,
      fun c _ => .code (encloses_accessor c)⟩, .code (encloses_fromLiteral _), .code (encloses_tryFrom _),
      sealed_allCases, .code (encloses_jsonSerialize _), .code encloses_instanceLines, List.forall_mem_nil _⟩
  exact ((instancesFile root e).sealed_iff keyword (sealed_classLines e) members).mpr ⟨trivial, trivial⟩

section

variable {root : String}

theorem isWord_variableName {camel : String} (h : Naming.IsWord camel) : Naming.IsWord (variableName camel) := by
  have this_value : Naming.IsWord "thisValue" := by decide
  unfold variableName
  split
  case isTrue => exact this_value
  case isFalse => exact h

theorem inert_orNull_iff {type : String} : Inert (type ++ "|null") ↔ Inert type :=
  inert_after_iff rfl

namespace ModelField

theorem inert_described_iff {p : Property} :
    Inert (ofProperty root p).described ↔ Inert (describedType root p.value.hints) := by
  unfold ofProperty
  dsimp only
  split
  case isTrue => exact inert_orNull_iff
  case isFalse => rfl

-- Beside the type, only the key and the description are from the document: the one is made a name, the other safe.
theorem inert_commentLine_iff {p : Property} (h : Naming.IsWord p.name.camel) :
    Inert (ofProperty root p).commentLine ↔ Inert (describedType root p.value.hints) := by
  have name : Inert (variableName p.name.camel) := inert_of_isNameChar (isWord_variableName h).chars
  have field : Inert ("@param " ++ (ofProperty root p).described ++ " $" ++ (ofProperty root p).name) ↔
      Inert (describedType root p.value.hints) := by
    have named : Inert (" $" ++ (ofProperty root p).name) := (inert_before_iff rfl).mpr name
    rw [String.append_assoc, inert_append_iff (.inr (by simp)), and_iff_left named]
    exact (inert_before_iff rfl).trans inert_described_iff
  unfold commentLine
  dsimp only
  split
  case h_1 text _ =>
    have explained : Inert (" " ++ commentText text) := (inert_before_iff rfl).mpr (inert_commentText text)
    rw [inert_append_iff (.inr (by simp)), field, and_iff_left explained]
  case h_2 => rwa [String.append_empty]

end ModelField

namespace ExtraFields

theorem inert_described_iff {v : ValueType} :
    Inert (ofValue root v).described ↔ Inert (describedType root v.hints) :=
  inert_between_iff rfl rfl

end ExtraFields

theorem mem_modelFields {e : Entity} {f : ModelField} :
    f ∈ modelFields root e ↔ ∃ p ∈ e.properties, .ofProperty root p = f := by
  rw [modelFields, (List.filter_append_perm _ _).mem_iff, List.mem_map]

namespace Model

variable {fields : List ModelField} {extra : Option ExtraFields}

theorem inert_extraLine_iff {described : String} :
    Inert ("@param " ++ described ++ " $additionalProperties") ↔ Inert described :=
  inert_between_iff rfl rfl

theorem sealed_constructor : SealedIff (constructor fields extra)
    ((∀ f ∈ fields, Inert f.commentLine) ∧ ∀ x ∈ extra, Inert x.described) := by
  have parameters : Encloses (fields.map (·.parameter) ++
      extra.toList.map fun _ => "public readonly array $additionalProperties = [],") [] := by
    refine .append (.code ?_) (.code ?_)
    all_goals simp only [List.forall_mem_map]
    · exact fun f _ => .append (.append (.append (.append (.append (.literal rfl)))))
    · exact fun _ _ => .literal rfl
  have lines : (∀ line ∈ fields.map (·.commentLine) ++ extra.toList.map fun x => "@param " ++ x.described ++
      " $additionalProperties", Inert line) ↔
        (∀ f ∈ fields, Inert f.commentLine) ∧ ∀ x ∈ extra, Inert x.described := by
    simp only [List.forall_mem_append, List.forall_mem_map, inert_extraLine_iff, Option.mem_toList]
    rfl
  unfold constructor
  dsimp only
  refine SealedIff.append_code (SealedIff.congr ?_ lines) (.constructorLines parameters)
  split
  case isTrue nothing =>
    rw [nothing]
    exact (SealedIff.code .nil).congr (by simp)
  case isFalse => exact .comment_map

theorem sealed_fromArray (names : ∀ f ∈ fields, IsCode f.name) : SealedIff (fromArray fields extra) True := by
  refine .append_code (.comment_fixed rfl) <| .braced (.literal rfl) <|
    .enclose (.literal rfl) (.append (.code ?_) (.code ?_)) (.literal rfl)
  all_goals simp only [List.forall_mem_map]
  · exact fun f hf => .append (.append (.append (names f hf)))
  · exact fun x _ => .append (.append (.literal rfl))

theorem sealed_toArray (keys : ∀ f ∈ fields, IsCode f.key) : SealedIff (toArray fields extra) True := by
  have required : Encloses ((fields.filter (·.required)).map fun f => f.key ++ " => " ++ f.write.text ++ ",") [] := by
    refine .code ?_
    simp only [List.forall_mem_map]
    exact fun f hf => .append (.append (.append (keys f (List.mem_filter.mp hf).1)))
  have optional : Encloses ((fields.filter (!·.required)).flatMap fun f =>
      clause ("if ($this->" ++ f.name ++ " !== null)") ["$data[" ++ f.key ++ "] = " ++ f.write.text ++ ";"]) [] :=
    .flatMap fun f _ => .clause (.append (.append (.literal rfl))) <|
      .cons (.append (.append (.append (.append (.literal rfl))))) .nil
  exact .append_code (.comment_fixed rfl) <| .braced (.literal rfl) <|
    .append (.append (.enclose (.literal rfl) required (.literal rfl)) optional) <| .empty_line <|
      .cons (.append (.append (.literal rfl))) .nil

theorem sealed_jsonSerialize : SealedIff jsonSerialize True :=
  .append_code (.comment_fixed rfl) (.braced (.literal rfl) (.literal rfl .nil))

theorem encloses_knownKeys (e : Entity) : Encloses (knownKeys e) [] :=
  .cons (.append (.append (.literal rfl))) .nil

end Model

theorem sealed_modelFile_iff {e : Entity} (named : ∀ p ∈ e.properties, Naming.IsWord p.name.camel) :
    (∀ block ∈ docblocks (modelFile root e).lines, Sealed block) ↔
      (∀ p ∈ e.properties, Inert (describedType root p.value.hints)) ∧
        ∀ v ∈ e.additional, Inert (describedType root v.hints) := by
  have keyword : IsCode "final class" := .literal rfl
  have names : ∀ f ∈ modelFields root e, IsCode f.name := by
    intro f hf
    obtain ⟨p, hp, rfl⟩ := mem_modelFields.mp hf
    exact isCode_of_isWord (isWord_variableName (named p hp))
  have keys : ∀ f ∈ modelFields root e, IsCode f.key := by
    intro f hf
    obtain ⟨p, _, rfl⟩ := mem_modelFields.mp hf
    exact isCode_string _
  have fields : (∀ f ∈ modelFields root e, Inert f.commentLine) ↔
      ∀ p ∈ e.properties, Inert (describedType root p.value.hints) := by
    constructor
    · intro inert p hp
      exact (ModelField.inert_commentLine_iff (named p hp)).mp (inert _ (mem_modelFields.mpr ⟨p, hp, rfl⟩))
    · intro inert f hf
      obtain ⟨p, hp, rfl⟩ := mem_modelFields.mp hf
      exact (ModelField.inert_commentLine_iff (named p hp)).mpr (inert p hp)
  have extra : (∀ x ∈ e.additional.map (ExtraFields.ofValue root), Inert x.described) ↔
      ∀ v ∈ e.additional, Inert (describedType root v.hints) := by
    simp [ExtraFields.inert_described_iff]
  have members : SealedIff (modelFile root e).members _ := .spaced_one
    (List.forall_mem_map.mpr fun _ _ => .code (Model.encloses_knownKeys e)) Model.sealed_constructor <| by
      simp only [List.forall_mem_cons]
      exact ⟨Model.sealed_fromArray names, Model.sealed_toArray keys, Model.sealed_jsonSerialize, nofun⟩
  rw [(modelFile root e).sealed_iff keyword (sealed_classComment _ _) members, true_and, fields, extra]

namespace DeclaredBody

theorem inert_described_iff {b : ResponseBody} :
    Inert (ofBody root b).described ↔ Inert (describedType root b.value.hints) := by
  unfold ofBody
  dsimp only
  split
  case isTrue => rfl
  case isFalse => exact inert_orNull_iff

end DeclaredBody

namespace ResponseFile

variable {body : Option DeclaredBody}

theorem inert_headersLine : Inert headersLine := .literal rfl

theorem sealed_classLines {name description : String} (named : Inert name) :
    SealedIff (classLines name description body) (∀ b ∈ body, Inert b.contentType) := by
  have described : Inert (if description = "" then name else commentText description) := by
    split
    case isTrue => exact named
    case isFalse => exact inert_commentText description
  have line (contentType : String) : Inert ("Body: " ++ contentType) ↔ Inert contentType := inert_before_iff rfl
  refine (SealedIff.comment _).congr ?_
  cases body with
  | none => simpa using described
  | some b => simp [described, line]

theorem sealed_constructor : SealedIff (constructor body) (∀ b ∈ body, Inert b.described) := by
  have line (described : String) : Inert ("@param " ++ described ++ " $body") ↔ Inert described :=
    inert_between_iff rfl rfl
  have parameters : Encloses (["public readonly int $statusCode,"] ++
      (body.toList.map fun b => "public readonly " ++ b.declared ++ " $body = null,") ++
      ["public readonly array $headers = [],"]) [] := by
    refine .append (.append (.literal rfl .nil) (.code ?_)) (.literal rfl .nil)
    exact List.forall_mem_map.mpr fun b _ => .append (.append (.literal rfl))
  have texts : (∀ text ∈ (body.toList.map fun b => "@param " ++ b.described ++ " $body") ++ [headersLine],
      Inert text) ↔ ∀ b ∈ body, Inert b.described := by
    simp only [List.forall_mem_append, List.forall_mem_map, List.forall_mem_singleton, line, inert_headersLine,
      and_true, Option.mem_toList]
    rfl
  exact (SealedIff.comment_map.congr texts).append_code (.constructorLines parameters)

theorem sealed_fromDecoded : SealedIff (fromDecoded body) True := by
  have arguments : Encloses (["statusCode: $statusCode,"] ++
      (body.toList.map fun b => "body: " ++ b.read.text ++ ",") ++ ["headers: $headers,"]) [] := by
    refine .append (.append (.literal rfl .nil) (.code ?_)) (.literal rfl .nil)
    exact List.forall_mem_map.mpr fun b _ => .append (.append (.literal rfl))
  exact .append_code (.comment_fixed rfl) <| .braced (.append (.literal rfl)) <|
    .enclose (.literal rfl) arguments (.literal rfl)

end ResponseFile

theorem sealed_responseFile_iff {c : ResponseClass} (named : Naming.IsWord c.name) :
    (∀ block ∈ docblocks (responseFile root c).lines, Sealed block) ↔
      (∀ b ∈ c.body, Inert b.contentType) ∧ ∀ b ∈ c.body, Inert (describedType root b.value.hints) := by
  have keyword : IsCode "final class" := .literal rfl
  have name : Inert (className "Response" c.name) := inert_className (by decide) named
  have status : ∀ part ∈ c.status.toList.map (fun s => ["public const STATUS = " ++ string s ++ ";"]),
      SealedIff part True :=
    List.forall_mem_map.mpr fun _ _ => .code (.cons (.append (.append (.literal rfl))) .nil)
  have members : SealedIff (responseFile root c).members _ := .spaced_one status ResponseFile.sealed_constructor <| by
    simpa using ResponseFile.sealed_fromDecoded
  have contents : (∀ b ∈ c.body.map (DeclaredBody.ofBody root), Inert b.contentType) ↔
      ∀ b ∈ c.body, Inert b.contentType := by
    simp [DeclaredBody.ofBody]
  have values : (∀ b ∈ c.body.map (DeclaredBody.ofBody root), Inert b.described) ↔
      ∀ b ∈ c.body, Inert (describedType root b.value.hints) := by
    simp [DeclaredBody.inert_described_iff]
  rw [(responseFile root c).sealed_iff keyword (ResponseFile.sealed_classLines name) members, contents, values]

end

end OpenApiClient.Php
