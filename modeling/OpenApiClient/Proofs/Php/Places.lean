import OpenApiClient.Php.Generator
import OpenApiClient.Proofs.Naming.Apart
import OpenApiClient.Proofs.Php.Comments

/-!
Where the files of a client lie. There is one for each entity, response and tag, in a directory for its kind, so that
two of them can only share a path if two names of one kind become the same name of a class.
-/

namespace OpenApiClient

open Naming

namespace Php

-- The parts of the namespace with the classes for what the document names.
def subNamespaces : List String := ["Model", "Response", "Api"]

-- Where the class for a name lies.
def classPath (sub name : String) : String := "src/" ++ sub ++ "/" ++ className sub name ++ ".php"

-- The classes that every client has.
def fixedClasses : List String := ["Configuration", "AbstractApi", "ApiException"]

def fixedPaths : List String := fixedClasses.map (fun name => "src/" ++ name ++ ".php") ++ ["composer.json"]

end Php

open Php

namespace Client

-- The names that classes are made for in a part of the namespace.
def namesIn (c : Client) (sub : String) : List String :=
  if sub = "Model" then c.entities.map (·.name)
  else if sub = "Response" then c.responses.map (·.name)
  else if sub = "Api" then c.apis.map (·.className)
  else []

-- One path for each entity, response and tag, and those of the files that every client has.
def paths (c : Client) : List String :=
  c.entities.map (classPath "Model" ·.name) ++ c.responses.map (classPath "Response" ·.name) ++
    c.apis.map (classPath "Api" ·.className) ++ fixedPaths

theorem paths_eq (c : Client) :
    c.paths = subNamespaces.flatMap (fun sub => (c.namesIn sub).map (classPath sub)) ++ fixedPaths := by
  simp [paths, subNamespaces, namesIn, Function.comp_def]

end Client

namespace Php

theorem reserved_not_suffixed : ∀ sub ∈ subNamespaces, ∀ word ∈ reservedWords,
    ¬ (foldCase sub).toList <:+ word.toList := by
  decide

-- So no word is reserved that ends like the name that a reserved word gets.
theorem append_not_reserved {sub : String} (hs : sub ∈ subNamespaces) (word : String) :
    word ++ foldCase sub ∉ reservedWords := by
  intro reserved
  apply reserved_not_suffixed sub hs _ reserved
  rw [String.toList_append]
  exact List.suffix_append ..

theorem className_apiName (tag : String) : className "Api" (apiName tag) = apiName tag := by
  have suffixed : ∃ base, apiName tag = base ++ "Api" := by
    unfold apiName
    dsimp only
    split
    case isTrue => exact ⟨"Default", rfl⟩
    case isFalse => exact ⟨_, rfl⟩
  have ⟨base, suffixed⟩ := suffixed
  rw [suffixed, className, foldCase_append, if_neg (append_not_reserved (by decide) _)]

theorem entityFile?_of_hasClass (root : String) {e : Entity} (h : e.kind.hasClass) :
    ∃ f, entityFile? root e = some f ∧ f.sub = some "Model" ∧ f.name = className "Model" e.name := by
  unfold entityFile? enumFile?
  split
  case isTrue => exact ⟨_, rfl, rfl, rfl⟩
  case isFalse =>
    split
    case h_1 | h_2 | h_3 => exact ⟨_, rfl, rfl, rfl⟩
    case h_4 | h_5 | h_6 => simp_all [SchemaKind.hasClass, SchemaKind.isEnum]

-- Where a class lies by the part of the namespace that it is in, if it is not in the root itself.
def pathIn (place : Option String × String) : String :=
  match place.1 with
  | some sub => "src/" ++ sub ++ "/" ++ place.2 ++ ".php"
  | none => "src/" ++ place.2 ++ ".php"

theorem path_eq (f : ClassFile) : f.path = pathIn (f.sub, f.name) :=
  rfl

/-! ### Directories -/

-- The beginning of a path without regard to case, which tells directories and fixed files from each other.
def directory (path : String) : List Char := (foldCase path).toList.take 8

theorem directory_append {start : String} (h : 8 ≤ start.length) (rest : String) :
    directory (start ++ rest) = directory start := by
  have long : 8 ≤ (foldCase start).toList.length := by simpa [foldCase, ← String.length_toList] using h
  rw [directory, foldCase_append, String.toList_append, List.take_append_of_le_length long]
  rfl

theorem directory_classPath {sub : String} (hs : sub ∈ subNamespaces) (name : String) :
    directory (classPath sub name) = directory ("src/" ++ sub ++ "/") := by
  have long : ∀ sub ∈ subNamespaces, 8 ≤ ("src/" ++ sub ++ "/").length := by decide
  rw [classPath, String.append_assoc, directory_append (long sub hs)]

theorem directories_pairwise :
    subNamespaces.Pairwise fun sub sub' => directory ("src/" ++ sub ++ "/") ≠ directory ("src/" ++ sub' ++ "/") := by
  decide

theorem directory_ne_fixed : ∀ sub ∈ subNamespaces, ∀ path ∈ fixedPaths,
    directory ("src/" ++ sub ++ "/") ≠ directory path := by
  decide

theorem fixedPaths_nodup : (fixedPaths.map foldCase).Nodup := by
  decide

-- Paths are apart exactly if in each part of the namespace the names of classes are. This is so for paths as they are,
-- and for paths without regard to the case of letters.
theorem paths_nodup_iff {c : Client} {fold : String → String} (append : ∀ a b, fold (a ++ b) = fold a ++ fold b)
    (finer : ∀ {a b}, fold a = fold b → foldCase a = foldCase b) : (c.paths.map fold).Nodup ↔
      ∀ sub ∈ subNamespaces, ((c.namesIn sub).map fun name => fold (className sub name)).Nodup := by
  have same_directory {a b : String} (h : fold a = fold b) : directory a = directory b := by
    rw [directory, finer h, directory]
  have names_iff (sub : String) (names : List String) : ((names.map (classPath sub)).map fold).Nodup ↔
      (names.map fun name => fold (className sub name)).Nodup := by
    have path (name : String) : fold (classPath sub name) =
        fold ("src/" ++ sub ++ "/") ++ fold (className sub name) ++ fold ".php" := by
      rw [classPath, append, append]
    have cancel {x y : String} : fold (classPath sub x) = fold (classPath sub y) ↔
        fold (className sub x) = fold (className sub y) := by
      simp [path, ← String.toList_inj]
    simp only [List.nodup_iff_pairwise_ne, List.pairwise_map, ne_eq, cancel]
  have fixed : (fixedPaths.map fold).Nodup := by
    have apart := fixedPaths_nodup
    rw [List.nodup_iff_pairwise_ne, List.pairwise_map] at apart ⊢
    exact apart.imp fun apart same => apart (finer same)
  rw [Client.paths_eq, List.map_append, List.map_flatMap, List.nodup_append, List.nodup_flatMap]
  constructor
  case mp =>
    intro ⟨⟨each, _⟩, _⟩ sub hs
    exact (names_iff sub _).mp (each sub hs)
  case mpr =>
    intro each
    refine ⟨⟨fun sub hs => (names_iff sub _).mpr (each sub hs), ?directories⟩, fixed, ?fixed⟩
    case directories =>
      refine directories_pairwise.imp_of_mem fun hs hs' apart => ?_
      simp only [List.disjoint_left, List.mem_map, Function.onFun]
      rintro _ ⟨_, ⟨name, _, rfl⟩, rfl⟩ ⟨_, ⟨name', _, rfl⟩, same⟩
      apply apart
      rw [← directory_classPath hs name, ← directory_classPath hs' name']
      exact (same_directory same).symm
    case fixed =>
      simp only [List.mem_flatMap, List.mem_map]
      rintro _ ⟨sub, hs, _, ⟨name, _, rfl⟩, rfl⟩ _ ⟨path, hp, rfl⟩ same
      apply directory_ne_fixed sub hs path hp
      rw [← directory_classPath hs name]
      exact same_directory same

end Php

namespace Document

variable {d : Document} {c : Client} {rootNamespace : String}

theorem hasClass_of_entity (hc : d.client rootNamespace = .ok c) : ∀ e ∈ c.entities, e.kind.hasClass := by
  intro e he
  have ⟨n, builds⟩ := builds_of_client hc
  have ⟨found, hf, made⟩ := mem_of_mapM builds.entities e he
  rw [(NamedDocument.describes_of_entity made).kind]
  exact (List.mem_filter.mp hf).2

theorem namesIn_nodup (hc : d.client rootNamespace = .ok c) : ∀ sub ∈ subNamespaces, (c.namesIn sub).Nodup := by
  have ⟨n, builds⟩ := builds_of_client hc
  have apis := (apis_of hc).classes
  have names := And.intro builds.entities_nodup (And.intro builds.responses_nodup apis)
  simpa [subNamespaces, Client.namesIn] using names

-- The part of the namespace and the name of every class, in order.
theorem places_of_client (hc : d.client rootNamespace = .ok c) : ∃ classes, classFiles c = .ok classes ∧
    classes.map (fun f => (f.sub, f.name)) =
      subNamespaces.flatMap (fun sub => (c.namesIn sub).map fun name => (some sub, className sub name)) ++
        fixedClasses.map fun name => (none, name) := by
  refine ⟨_, classFiles_eq fun api => in_range_of_api hc, ?_⟩
  have entities : (c.entities.filterMap (entityFile? c.rootNamespace)).map (fun f => (f.sub, f.name)) =
      c.entities.map fun e => (some "Model", className "Model" e.name) := by
    rw [List.map_filterMap, ← List.filterMap_eq_map]
    refine List.filterMap_congr fun e he => ?_
    obtain ⟨f, hf, sub, name⟩ := entityFile?_of_hasClass c.rootNamespace (hasClass_of_entity hc e he)
    simp [hf, sub, name]
  have apis : c.apis.map (fun api => (some "Api", className "Api" api.className)) =
      c.apis.map fun api => (some "Api", api.className) := by
    refine List.map_congr_left fun api ha => ?_
    rw [(apis_of hc).names api ha, className_apiName]
  have fixed : [configurationFile c.rootNamespace c, abstractApiFile c.rootNamespace,
      apiExceptionFile c.rootNamespace].map (fun f => (f.sub, f.name)) = fixedClasses.map fun name => (none, name) :=
    rfl
  rw [List.map_append, fixed]
  simp [entities, apis, subNamespaces, Client.namesIn, responseFile, apiFile, Function.comp_def]

end Document

end OpenApiClient
