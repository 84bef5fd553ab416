import Mathlib.Data.List.DropRight
import OpenApiClient.Proofs.Php.Generation

/-!
Where classes are looked for. The manifest declares one prefix of names, and below it the full name of a class leads to
its file. In the classes that every client has, this takes a root namespace that is more than backslashes.
-/

namespace OpenApiClient

open Naming

namespace Json.Value

def member? (key : String) : Value → Option Value
  | .object members => Entries.get? key members
  | _ => none

def text? : Value → Option String
  | .string text => some text
  | _ => none

def entries : Value → List (String × Value)
  | .object members => members
  | _ => []

theorem get?_insertSorted {key other : String} {value : Value} {members : List (String × Value)} :
    Entries.get? other (insertSorted key value members) =
      if key = other then some value else Entries.get? other members := by
  induction members with
  | nil => rfl
  | cons member rest ih =>
    obtain ⟨k, v⟩ := member
    unfold insertSorted
    split
    case isTrue => rfl
    case isFalse =>
      split
      case isTrue same =>
        subst same
        by_cases h : key = other <;> simp [Entries.get?, h]
      case isFalse apart =>
        rw [Entries.get?, Entries.get?, ih]
        by_cases h : k = other
        case pos => simp [h, h ▸ apart]
        case neg => simp [h]

end Json.Value

namespace Php

-- A name without the backslashes before it, which do not count when a class is looked for.
def unrooted (name : String) : List Char := name.toList.dropWhile (· == '\\')

-- The parts of a name as directories.
def slashed (name : List Char) : String := String.ofList (name.map fun c => if c = '\\' then '/' else c)

-- The file where a class is looked for, below the directory for the first declared prefix that its name has.
def autoloaded (entries : List (String × String)) (fullName : String) : Option String :=
  entries.findSome? fun (start, directory) =>
    ((unrooted start).isPrefixOf? (unrooted fullName)).map (directory ++ slashed · ++ ".php")

-- The prefixes of names that a manifest declares, with their directories.
def autoloadEntries (manifest : Json.Value) : List (String × String) :=
  ((manifest.member? "autoload").bind (·.member? "psr-4")).elim [] fun declared =>
    declared.entries.filterMap fun (start, directory) => directory.text?.map (start, ·)

-- What stands before the name of a class, and after it.
def headings : List (String × String) := [
  ("final class", ""), ("final class", " extends AbstractApi"), ("final class", " extends \\RuntimeException"),
  ("final class", " implements \\JsonSerializable"), ("abstract class", ""), ("enum", ": string"), ("enum", ": int")]

-- A text that is a file with one class in a namespace.
def Declares (content namespaceName name : String) : Prop :=
  ∃ preamble keyword heritage members, (keyword, heritage) ∈ headings ∧ content = "\n".intercalate
    (["<?php", "", "declare(strict_types=1);", "", "namespace " ++ namespaceName ++ ";", ""] ++
      preamble ++ braced (keyword ++ " " ++ name ++ heritage) members)

-- A file declares the class that the others mean by a full name, and it lies where that class is looked for.
def Autoloads (entries : List (String × String)) (file : SourceFile) (fullName : String) : Prop :=
  ∃ namespaceName name, namespaceName ≠ "" ∧ Declares file.content namespaceName name ∧
    fullName = "\\" ++ namespaceName ++ "\\" ++ name ∧ autoloaded entries fullName = some file.path

theorem autoloadEntries_manifest (root : String) (c : Client) (options : PackageOptions) :
    autoloadEntries (manifest root c options) = [(trimNamespace root ++ "\\", "src/")] := by
  have autoload : (manifest root c options).member? "autoload" =
      some (sorted [("psr-4", sorted [(trimNamespace root ++ "\\", .string "src/")])]) := by
    cases hl : c.info.license <;>
      simp [manifest, hl, sorted, Json.Value.member?, Json.Value.sortMembers, Json.Value.get?_insertSorted]
  rw [autoloadEntries, autoload]
  rfl

section

variable {root name sub : String}

theorem trimNamespace_head (root : String) : (trimNamespace root).toList.head? ≠ some '\\' := by
  intro first
  have start : (trimNamespace root).toList <+: root.toList.dropWhile (· == '\\') := by
    rw [trimNamespace, String.toList_ofList]
    exact List.rdropWhile_prefix _ _
  obtain ⟨last, start⟩ := start
  have dropped := List.head?_dropWhile_not (· == '\\') root.toList
  rw [← start, List.head?_append, first] at dropped
  simp at dropped

theorem unrooted_eq (h : name.toList.head? ≠ some '\\') : unrooted name = name.toList := by
  rw [unrooted]
  cases hn : name.toList with
  | nil => rfl
  | cons c rest => simp_all

theorem unrooted_backslash (name : String) : unrooted ("\\" ++ name) = unrooted name := by
  simp [unrooted]

theorem unrooted_append (h : root.toList.head? ≠ some '\\') (nonempty : root ≠ "") :
    unrooted (root ++ name) = root.toList ++ name.toList := by
  rw [← String.toList_append]
  apply unrooted_eq
  rw [String.toList_append, List.head?_append]
  cases hr : root.toList with
  | nil => exact absurd (String.toList_eq_nil_iff.mp hr) nonempty
  | cons c rest => simpa [hr] using h

theorem within_append : within root (sub ++ "\\" ++ name) = within root sub ++ "\\" ++ name := by
  unfold within
  split <;> simp [String.append_assoc]

theorem autoloaded_rootClass (h : name.toList.head? ≠ some '\\') :
    autoloaded [(trimNamespace root ++ "\\", "src/")] (rootClass root name) =
      some ("src/" ++ slashed name.toList ++ ".php") := by
  have rest : (unrooted (trimNamespace root ++ "\\")).isPrefixOf? (unrooted (rootClass root name)) =
      some name.toList := by
    rw [List.isPrefixOf?_eq_some_iff_append_eq, rootClass, within]
    split
    case isTrue empty =>
      rw [empty, unrooted_backslash, unrooted_eq h]
      rfl
    case isFalse nonempty =>
      rw [unrooted_backslash, String.append_assoc, unrooted_append (trimNamespace_head root) nonempty,
        unrooted_append (trimNamespace_head root) nonempty]
      simp
  simp [autoloaded, rest]

-- What is called by its name alone is in no namespace.
theorem not_autoloads {entries : List (String × String)} {file : SourceFile} (word : IsWord name) :
    ¬ Autoloads entries file ("\\" ++ name) := by
  rintro ⟨namespaceName, rest, _, _, same, _⟩
  have parts : name = namespaceName ++ "\\" ++ rest := by
    rw [String.append_assoc, String.append_assoc] at same
    simpa [← String.toList_inj] using same
  exact absurd (word.chars '\\' (by simp [parts])) (by decide)

theorem slashed_append (s t : List Char) : slashed (s ++ t) = slashed s ++ slashed t := by
  simp [slashed]

theorem slashed_word (h : IsWord name) : slashed name.toList = name := by
  have kept (c : Char) (hc : c ∈ name.toList) : (if c = '\\' then '/' else c) = c :=
    if_neg fun (backslash : c = '\\') => absurd (backslash ▸ h.chars c hc) (by decide)
  rw [slashed, List.map_congr_left kept, List.map_id', String.ofList_toList]

theorem word_head (h : IsWord name) (rest : String) : (name ++ rest).toList.head? ≠ some '\\' := by
  rw [String.toList_append, List.head?_append]
  cases hn : name.toList with
  | nil => exact absurd (String.toList_eq_nil_iff.mp hn) h.ne_empty
  | cons c others =>
    rintro ⟨⟩
    exact absurd (h.chars '\\' (by simp [hn])) (by decide)

end

-- What a class is called in full by the part of the namespace that it is in, if it is not in the root itself.
def nameIn (root : String) (place : Option String × String) : String :=
  match place.1 with
  | some sub => rootClass root (sub ++ "\\" ++ place.2)
  | none => rootClass root place.2

namespace ClassFile

structure Regular (root : String) (f : ClassFile) : Prop where
  root_eq : f.root = root
  heading : (f.keyword, f.heritage) ∈ headings

variable {f : ClassFile} {root sub : String}

def source (f : ClassFile) : SourceFile where
  path := f.path
  content := f.text

theorem Regular.declares (h : f.Regular root) : Declares f.source.content f.declaredNamespace f.name :=
  ⟨f.preamble, f.keyword, f.heritage, f.members, h.heading, rfl⟩

theorem Regular.fullName_eq (h : f.Regular root) : f.fullName = nameIn root (f.sub, f.name) := by
  rw [fullName, h.root_eq]
  rfl

theorem fullNames_eq {fs : List ClassFile} {places : List (Option String × String)} (h : ∀ f ∈ fs, f.Regular root)
    (hp : fs.map (fun f => (f.sub, f.name)) = places) : fs.map (·.fullName) = places.map (nameIn root) := by
  rw [← hp, List.map_map]
  exact List.map_congr_left fun f hf => (h f hf).fullName_eq

-- Below the root there always is a namespace.
theorem Regular.autoloads (h : f.Regular root) (hs : f.sub = some sub) (sub_word : IsWord sub) (word : IsWord f.name) :
    Autoloads [(trimNamespace root ++ "\\", "src/")] f.source f.fullName := by
  have full : f.fullName = rootClass root (sub ++ "\\" ++ f.name) := by simp only [fullName, hs, h.root_eq]
  have space : f.declaredNamespace = within root sub := by simp only [declaredNamespace, hs, h.root_eq]
  have nonempty : within root sub ≠ "" := by
    unfold within
    split
    · exact sub_word.ne_empty
    · simp
  refine ⟨_, _, space ▸ nonempty, h.declares, ?name, ?place⟩
  case name => rw [full, space, rootClass, within_append, String.append_assoc, String.append_assoc, String.append_assoc]
  case place =>
    have slashes : slashed (sub ++ "\\" ++ f.name).toList = sub ++ "/" ++ f.name := by
      rw [String.toList_append, String.toList_append, slashed_append, slashed_append, slashed_word sub_word,
        slashed_word word]
      rfl
    have path : f.source.path = "src/" ++ (sub ++ "/" ++ f.name) ++ ".php" := by
      simp only [source, ClassFile.path, hs, String.append_assoc]
    rw [full, autoloaded_rootClass (String.append_assoc .. ▸ word_head sub_word _), slashes, path]

-- In the root itself there is one if it is more than backslashes.
theorem Regular.autoloads_root_iff (h : f.Regular root) (hs : f.sub = none) (word : IsWord f.name) :
    autoloaded [(trimNamespace root ++ "\\", "src/")] f.fullName = some f.path ∧
      (Autoloads [(trimNamespace root ++ "\\", "src/")] f.source f.fullName ↔
        trimNamespace root ≠ "") := by
  have full : f.fullName = rootClass root f.name := by simp only [fullName, hs, h.root_eq]
  have space : f.declaredNamespace = trimNamespace root := by simp only [declaredNamespace, hs, h.root_eq]
  have place : autoloaded [(trimNamespace root ++ "\\", "src/")] f.fullName = some f.path := by
    have path : f.path = "src/" ++ f.name ++ ".php" := by simp only [ClassFile.path, hs]
    have head : f.name.toList.head? ≠ some '\\' := by simpa using word_head word ""
    rw [full, autoloaded_rootClass head, slashed_word word, path]
  refine ⟨place, ?_, ?_⟩
  · intro autoloads empty
    rw [full, rootClass, within, if_pos empty] at autoloads
    exact not_autoloads word autoloads
  · intro nonempty
    refine ⟨_, _, space ▸ nonempty, h.declares, ?_, place⟩
    rw [full, space, rootClass, within, if_neg nonempty, String.append_assoc, String.append_assoc, String.append_assoc]

end ClassFile

theorem subNamespaces_words : ∀ sub ∈ subNamespaces, IsWord sub := by
  decide

theorem fixedClasses_words : ∀ name ∈ fixedClasses, IsWord name := by
  decide

theorem regular_entityFile (root : String) (e : Entity) : ∀ f ∈ entityFile? root e, f.Regular root := by
  unfold entityFile? enumFile?
  split
  case isTrue =>
    rintro _ ⟨⟩
    exact ⟨rfl, by simp [modelFile, headings]⟩
  case isFalse =>
    split
    case h_1 | h_2 | h_3 =>
      rintro _ ⟨⟩
      exact ⟨rfl, by simp [backedEnumFile, instancesFile, headings]⟩
    all_goals rintro _ ⟨⟩

end Php

open Php

namespace Client

-- What the classes for entities, responses and tags are called in other files.
def fullNames (c : Client) : List String :=
  c.entities.map (modelClass c.rootNamespace ·.name) ++ c.responses.map (responseClass c.rootNamespace ·.name) ++
    c.apis.map (subClass c.rootNamespace "Api" ·.className)

end Client

namespace Document

variable {d : Document} {c : Client} {rootNamespace : String} {options : PackageOptions} {files : List SourceFile}

theorem regular_classFiles (hc : d.client rootNamespace = .ok c) {classes : List ClassFile}
    (hf : classFiles c = .ok classes) : ∀ f ∈ classes, f.Regular rootNamespace := by
  obtain rfl := rootNamespace_of hc
  rw [classFiles_eq fun api => in_range_of_api hc] at hf
  cases hf
  simp only [List.forall_mem_append, List.forall_mem_filterMap, List.forall_mem_map, List.forall_mem_cons]
  refine ⟨⟨⟨fun e _ => regular_entityFile _ e, fun r _ => ?response⟩, fun api _ => ?api⟩, ?configuration, ?base,
    ?exception, List.forall_mem_nil _⟩
  case response => exact ⟨rfl, by simp [responseFile, headings]⟩
  case api => exact ⟨rfl, by simp [apiFile, headings]⟩
  case configuration => exact ⟨rfl, by simp [configurationFile, headings]⟩
  case base => exact ⟨rfl, by simp [abstractApiFile, headings]⟩
  case exception => exact ⟨rfl, by simp [apiExceptionFile, headings]⟩

-- The names of classes are words, also where they displace a reserved word.
theorem isWord_of_namesIn (hc : d.client rootNamespace = .ok c) {sub : String} (hs : sub ∈ subNamespaces) :
    ∀ name ∈ c.namesIn sub, IsWord (className sub name) := by
  have named : ∀ name ∈ c.namesIn sub, IsWord name := by
    simp only [subNamespaces, List.mem_cons, List.not_mem_nil, or_false] at hs
    obtain rfl | rfl | rfl := hs
    · exact List.forall_mem_map.mpr fun e he => isWord_of_named (entity_named hc he)
    · exact List.forall_mem_map.mpr fun r hr => isWord_of_named (response_named hc hr)
    · refine List.forall_mem_map.mpr fun api ha => ?_
      rw [(apis_of hc).names api ha]
      exact (isClassName_apiName _).toIsWord
  intro name hn
  unfold className
  split
  · exact (named name hn).append (subNamespaces_words sub hs).chars
  · exact named name hn

theorem generate_eq_ok {classes : List ClassFile} (hf : classFiles c = .ok classes)
    (hg : generate c options = .ok files) : files = classes.map (·.source) ++ [manifestFile c options] := by
  simp only [generate, hf, bind_eq_ok] at hg
  obtain ⟨_, ⟨⟩, hg⟩ := hg
  split at hg
  case h_1 => contradiction
  case h_2 =>
    cases hg
    rfl

-- Every class is found by what the other files call it, in a namespace that its file declares. This is so for any root
-- namespace below it, and in the root itself if that is more than backslashes.
theorem autoloads_iff (hc : d.client rootNamespace = .ok c) (hg : generate c options = .ok files) :
    let entries := autoloadEntries (manifest rootNamespace c options)
    entries = [(trimNamespace rootNamespace ++ "\\", "src/")] ∧
    ∃ below inRoot, files = below ++ inRoot ++ [manifestFile c options] ∧
      List.Forall₂ (Autoloads entries) below c.fullNames ∧
      List.Forall₂ (fun file name => autoloaded entries (rootClass rootNamespace name) = some file.path ∧
        (Autoloads entries file (rootClass rootNamespace name) ↔ trimNamespace rootNamespace ≠ ""))
        inRoot fixedClasses := by
  intro entries
  have declared : entries = [(trimNamespace rootNamespace ++ "\\", "src/")] := autoloadEntries_manifest ..
  refine ⟨declared, ?_⟩
  obtain rfl := rootNamespace_of hc
  obtain ⟨classes, hf, places⟩ := places_of_client hc
  have regular := regular_classFiles hc hf
  obtain ⟨below, inRoot, rfl, places_below, places_inRoot⟩ := List.map_eq_append_iff.mp places
  rw [List.forall_mem_append] at regular
  refine ⟨below.map (·.source), inRoot.map (·.source), ?files, ?below, ?inRoot⟩
  case files => rw [generate_eq_ok hf hg, List.map_append]
  case below =>
    have names : below.map (·.fullName) = c.fullNames := by
      rw [ClassFile.fullNames_eq regular.1 places_below]
      simp [Client.fullNames, subNamespaces, Client.namesIn, nameIn, modelClass, responseClass, subClass,
        Function.comp_def]
    rw [declared, ← names, List.forall₂_map_left_iff, List.forall₂_map_right_iff, List.forall₂_same]
    intro f hf
    have place : (f.sub, f.name) ∈ below.map fun f => (f.sub, f.name) := List.mem_map_of_mem hf
    simp only [places_below, List.mem_flatMap, List.mem_map, Prod.mk.injEq] at place
    obtain ⟨sub, hs, name, hn, sub_eq, name_eq⟩ := place
    have word : IsWord f.name := name_eq ▸ isWord_of_namesIn hc hs name hn
    exact (regular.1 f hf).autoloads sub_eq.symm (subNamespaces_words sub hs) word
  case inRoot =>
    have names : inRoot.map (·.fullName) = fixedClasses.map (rootClass c.rootNamespace) := by
      rw [ClassFile.fullNames_eq regular.2 places_inRoot]
      simp [nameIn, Function.comp_def]
    have each : List.Forall₂ (fun file fullName => autoloaded entries fullName = some file.path ∧
        (Autoloads entries file fullName ↔ trimNamespace c.rootNamespace ≠ ""))
        (inRoot.map (·.source)) (inRoot.map (·.fullName)) := by
      rw [declared, List.forall₂_map_left_iff, List.forall₂_map_right_iff, List.forall₂_same]
      intro f hf
      have place : (f.sub, f.name) ∈ inRoot.map fun f => (f.sub, f.name) := List.mem_map_of_mem hf
      simp only [places_inRoot, List.mem_map, Prod.mk.injEq] at place
      obtain ⟨name, hn, sub_eq, name_eq⟩ := place
      exact (regular.2 f hf).autoloads_root_iff sub_eq.symm (name_eq ▸ fixedClasses_words name hn)
    rwa [names, List.forall₂_map_right_iff] at each

theorem shelf_autoloads : ∃ c below inRoot,
    (Shelf.document ["list", "pet"] ["class"] ["list"]).client "\\Acme\\Shop\\" = .ok c ∧
    Shelf.Names c ["List", "Pet"] ["Class"] ["ListApi"] ∧
    generate c {} = .ok (below ++ inRoot ++ [manifestFile c {}]) ∧
    List.Forall₂ (Autoloads [("Acme\\Shop\\", "src/")]) below c.fullNames ∧
    List.Forall₂ (Autoloads [("Acme\\Shop\\", "src/")]) inRoot
      ["\\Acme\\Shop\\Configuration", "\\Acme\\Shop\\AbstractApi", "\\Acme\\Shop\\ApiException"] := by
  obtain ⟨c, hc, names⟩ := Shelf.exists_client (Shelf.document ["list", "pet"] ["class"] ["list"]) "\\Acme\\Shop\\"
    ["List", "Pet"] ["Class"] ["ListApi"] (by decide +kernel)
  obtain ⟨files, hg, -⟩ := exists_files hc {} (names.paths_eq ▸ by decide)
  obtain ⟨declared, below, inRoot, rfl, each_below, each_root⟩ := autoloads_iff hc hg
  have start : trimNamespace "\\Acme\\Shop\\" ++ "\\" = "Acme\\Shop\\" := by decide
  have rooted : trimNamespace "\\Acme\\Shop\\" ≠ "" := by decide
  have root_names : fixedClasses.map (rootClass "\\Acme\\Shop\\") =
      ["\\Acme\\Shop\\Configuration", "\\Acme\\Shop\\AbstractApi", "\\Acme\\Shop\\ApiException"] := by decide
  rw [declared, start] at each_below each_root
  refine ⟨c, below, inRoot, hc, names, hg, each_below, ?_⟩
  rw [← root_names, List.forall₂_map_right_iff]
  exact each_root.imp fun _ _ found => found.2.mpr rooted

-- Without a root namespace, the classes that every client has are declared in a namespace without a name.
theorem not_autoloads_root : ∃ c files file, (Shelf.document ["pet"] [] []).client "" = .ok c ∧
    generate c {} = .ok files ∧ file ∈ files ∧ file.path = "src/Configuration.php" ∧
    Declares file.content "" "Configuration" ∧ rootClass "" "Configuration" = "\\Configuration" ∧
    ¬ Autoloads (autoloadEntries (manifest "" c {})) file (rootClass "" "Configuration") := by
  obtain ⟨c, hc, names⟩ := Shelf.exists_client (Shelf.document ["pet"] [] []) "" ["Pet"] [] [] (by decide +kernel)
  obtain ⟨files, hg, -⟩ := exists_files hc {} (names.paths_eq ▸ by decide)
  obtain ⟨classes, hf, -⟩ := places_of_client hc
  have root := rootNamespace_of hc
  have mem : configurationFile "" c ∈ classes := by
    rw [classFiles_eq fun api => in_range_of_api hc, root] at hf
    cases hf
    simp
  have declares := (regular_classFiles hc hf _ mem).declares
  have unnamed : (configurationFile "" c).declaredNamespace = "" := by
    show trimNamespace "" = ""
    decide
  have full : rootClass "" "Configuration" = "\\" ++ "Configuration" := by decide
  rw [unnamed] at declares
  refine ⟨c, files, (configurationFile "" c).source, hc, hg, ?mem, rfl, declares, full, ?apart⟩
  case mem =>
    rw [generate_eq_ok hf hg]
    exact List.mem_append_left _ (List.mem_map_of_mem mem)
  case apart =>
    rw [full]
    exact not_autoloads (by decide)

end Document

end OpenApiClient
