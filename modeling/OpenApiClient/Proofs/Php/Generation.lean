import OpenApiClient.Proofs.Php.Places

/-!
When the files of a client can be written. The one thing that can go wrong is that a reserved word is a name, and
what its class is called instead is a name as well. Names that differ by the case of letters only go unnoticed.
-/

namespace OpenApiClient

open Naming

namespace Php

-- A name is a reserved word, and what its class is called instead is a name as well.
def Clash (sub : String) (names : List String) : Prop :=
  ∃ name ∈ names, foldCase name ∈ reservedWords ∧ name ++ sub ∈ names

-- The same without regard to the case of letters.
def FoldedClash (sub : String) (names : List String) : Prop :=
  ∃ name ∈ names, foldCase name ∈ reservedWords ∧ foldCase (name ++ sub) ∈ names.map foldCase

variable {sub : String} {names : List String}

instance : Decidable (Clash sub names) :=
  inferInstanceAs (Decidable (∃ name ∈ names, foldCase name ∈ reservedWords ∧ name ++ sub ∈ names))

instance : Decidable (FoldedClash sub names) :=
  inferInstanceAs (Decidable (∃ name ∈ names, foldCase name ∈ reservedWords ∧ foldCase (name ++ sub) ∈ names.map foldCase))

theorem classNames_nodup_iff (hs : sub ∈ subNamespaces) (h : names.Nodup) :
    (names.map (className sub)).Nodup ↔ ¬ Clash sub names := by
  have renames : names.map (className sub) =
      names.map fun name => if foldCase name ∈ reservedWords then name ++ sub else name := rfl
  rw [renames, nodup_map_ite_iff h]
  · simp only [Clash, not_exists, not_and]
  · intro x y _ _ same
    simpa [← String.toList_inj] using same
  · intro name _
    rw [foldCase_append]
    exact append_not_reserved hs _

theorem foldedClassNames_nodup_iff (hs : sub ∈ subNamespaces) :
    (names.map fun name => foldCase (className sub name)).Nodup ↔
      (names.map foldCase).Nodup ∧ ¬ FoldedClash sub names := by
  let rename (folded : String) := if folded ∈ reservedWords then folded ++ foldCase sub else folded
  have renames : (names.map fun name => foldCase (className sub name)) = (names.map foldCase).map rename := by
    simp [rename, className, apply_ite foldCase, foldCase_append]
  have clash_iff : ¬ FoldedClash sub names ↔
      ∀ folded ∈ names.map foldCase, folded ∈ reservedWords → folded ++ foldCase sub ∉ names.map foldCase := by
    simp [FoldedClash, foldCase_append]
  have renamed_iff (h : (names.map foldCase).Nodup) :
      ((names.map foldCase).map rename).Nodup ↔ ¬ FoldedClash sub names := by
    rw [clash_iff]
    apply nodup_map_ite_iff h
    case inj => exact fun x y _ _ same => by simpa [← String.toList_inj] using same
    case out => exact fun word _ => append_not_reserved hs word
  rw [renames]
  exact ⟨fun h => ⟨h.of_map _, (renamed_iff (h.of_map _)).mp h⟩, fun both => (renamed_iff both.1).mpr both.2⟩

theorem repeatedPath?_eq_none_iff {paths : List String} : repeatedPath? paths = none ↔ paths.Nodup := by
  have none_before : repeatedPath? paths = none ↔ ∀ j (hj : j < paths.length), paths[j] ∉ paths.take j := by
    simp only [repeatedPath?, Option.map_eq_none_iff, List.find?_eq_none, decide_eq_true_eq, Prod.forall,
      List.mk_mem_zipIdx_iff_getElem?, List.getElem?_eq_some_iff, forall_exists_index]
    grind
  rw [none_before, List.Nodup, List.pairwise_iff_getElem]
  constructor
  case mp =>
    intro fresh i j hi hj lt same
    exact fresh j hj (List.mem_take_iff_getElem.mpr ⟨i, by omega, same⟩)
  case mpr =>
    intro apart j hj there
    have ⟨i, hi, same⟩ := List.mem_take_iff_getElem.mp there
    exact apart i j (by omega) hj (by omega) same

theorem mem_of_repeatedPath? {paths : List String} {path : String} (h : repeatedPath? paths = some path) :
    path ∈ paths := by
  have ⟨entry, found, name⟩ := Option.map_eq_some_iff.mp h
  exact name ▸ List.fst_mem_of_mem_zipIdx (List.mem_of_find?_eq_some found)

theorem no_clash_of_apis {d : Document} {c : Client} {rootNamespace : String}
    (hc : d.client rootNamespace = .ok c) : ¬ Clash "Api" (c.apis.map (·.className)) := by
  intro ⟨name, hn, reserved, _⟩
  have ⟨api, ha, named⟩ := List.mem_map.mp hn
  have kept := className_apiName api.tag.written
  rw [← (Document.apis_of hc).names api ha, named, className, if_pos reserved] at kept
  simp at kept

end Php

open Php

namespace Shelf

-- Objects and responses by their keys, and an operation for each tag.
def document (schemas responses tags : List String) : Document where
  openapi := "3.1.0"
  info := { title := "Shelf", version := "1" }
  paths := tags.map fun tag => ("/" ++ tag, { get := some { tags := [tag] } })
  components := some {
    schemas := schemas.map fun key => (key, .inline { typeKeyword := some (.single .object) })
    responses := responses.map fun key => (key, .inline { description := key }) }

-- What the classes of a client are made for.
def Names (c : Client) (entities responses apis : List String) : Prop :=
  c.entities.map (·.name) = entities ∧ c.responses.map (·.name) = responses ∧ c.apis.map (·.className) = apis

theorem exists_client (d : Document) (rootNamespace : String) (entities responses apis : List String)
    (h : (d.client rootNamespace).toOption.map (fun c =>
      (c.entities.map (·.name), c.responses.map (·.name), c.apis.map (·.className))) =
        some (entities, responses, apis)) :
    ∃ c, d.client rootNamespace = .ok c ∧ Names c entities responses apis := by
  have ⟨c, hc, names⟩ := exists_ok h
  have ⟨entities, names⟩ := Prod.mk.inj names
  exact ⟨c, hc, entities, Prod.mk.inj names⟩

theorem clients :
    (∃ c, (document ["list", "pet"] ["class"] ["list"]).client Client.defaultNamespace = .ok c ∧
      Names c ["List", "Pet"] ["Class"] ["ListApi"]) ∧
    (∃ c, (document ["list", "listModel"] [] []).client Client.defaultNamespace = .ok c ∧
      Names c ["List", "ListModel"] [] []) ∧
    ∃ c, (document ["list", "listmodel"] ["notFound", "notfound"] ["petStore", "petstore"]).client
        Client.defaultNamespace = .ok c ∧
      Names c ["List", "Listmodel"] ["NotFound", "Notfound"] ["PetStoreApi", "PetstoreApi"] :=
  ⟨exists_client _ _ _ _ _ (by decide +kernel), exists_client _ _ _ _ _ (by decide +kernel),
    exists_client _ _ _ _ _ (by decide +kernel)⟩

theorem Names.paths_eq {c : Client} {entities responses apis : List String} (h : Names c entities responses apis) :
    c.paths = entities.map (classPath "Model") ++ responses.map (classPath "Response") ++
      apis.map (classPath "Api") ++ fixedPaths := by
  simp [Client.paths, ← h.1, ← h.2.1, ← h.2.2, Function.comp_def]

end Shelf

namespace Document

variable {d : Document} {c : Client} {rootNamespace : String} {options : PackageOptions}

-- All that writing the files of a client can come to.
inductive Generates (c : Client) : Except GenerationError (List SourceFile) → Prop
  | files {files} : c.paths.Nodup → files.map (·.path) = c.paths → Generates c (.ok files)
  | twice {path} : ¬ c.paths.Nodup → path ∈ c.paths → Generates c (.error (.generatedTwice path))

theorem Generates.of_ok {files : List SourceFile} (h : Generates c (.ok files)) :
    c.paths.Nodup ∧ files.map (·.path) = c.paths := by
  cases h with
  | files nodup paths => exact ⟨nodup, paths⟩

theorem Generates.of_error {e : GenerationError} (h : Generates c (.error e)) :
    ¬ c.paths.Nodup ∧ ∃ path ∈ c.paths, e = .generatedTwice path := by
  cases h with
  | twice repeated mem => exact ⟨repeated, _, mem, rfl⟩

theorem generates (hc : d.client rootNamespace = .ok c) (options : PackageOptions) :
    Generates c (generate c options) := by
  have ⟨classes, hf, places⟩ := places_of_client hc
  let files := classes.map (fun f => { path := f.path, content := f.text : SourceFile }) ++ [manifestFile c options]
  have paths : files.map (·.path) = c.paths := by
    have class_paths : classes.map (·.path) = (classes.map fun f => (f.sub, f.name)).map pathIn := by
      simp [path_eq, Function.comp_def]
    have entries (sub : String) (names : List String) : (names.map fun name => (some sub, className sub name)).map pathIn =
        names.map (classPath sub) := by
      simp [pathIn, classPath, Function.comp_def]
    have fixed : (fixedClasses.map fun name => (none, name)).map pathIn ++ ["composer.json"] = fixedPaths := rfl
    calc files.map (·.path) = classes.map (·.path) ++ ["composer.json"] := by simp [files, manifestFile, Function.comp_def]
      _ = c.paths := by
        rw [class_paths, places, List.map_append, List.append_assoc, fixed, List.map_flatMap, Client.paths_eq]
        simp only [entries]
  have run : generate c options =
      (repeatedPath? (files.map (·.path))).elim (.ok files) (.error <| .generatedTwice ·) := by
    rw [generate, hf]
    dsimp only [bind, Except.bind]
    cases repeatedPath? (files.map (·.path)) <;> rfl
  rw [run, paths]
  cases hr : repeatedPath? c.paths with
  | none => exact .files (repeatedPath?_eq_none_iff.mp hr) paths
  | some path =>
    refine .twice (fun nodup => ?_) (mem_of_repeatedPath? hr)
    rw [repeatedPath?_eq_none_iff.mpr nodup] at hr
    contradiction

theorem exists_files (hc : d.client rootNamespace = .ok c) (options : PackageOptions) (nodup : c.paths.Nodup) :
    ∃ files, generate c options = .ok files ∧ files.map (·.path) = c.paths := by
  have run := generates hc options
  cases hg : generate c options with
  | ok files => exact ⟨files, rfl, (hg ▸ run).of_ok.2⟩
  | error e => exact absurd nodup (hg ▸ run).of_error.1

theorem paths_nodup_iff_of_client (hc : d.client rootNamespace = .ok c) : c.paths.Nodup ↔
    ¬ Clash "Model" (c.entities.map (·.name)) ∧ ¬ Clash "Response" (c.responses.map (·.name)) := by
  have paths : (c.paths.map id).Nodup ↔ ∀ sub ∈ subNamespaces, ((c.namesIn sub).map (className sub)).Nodup :=
    paths_nodup_iff (fun _ _ => rfl) (congrArg foldCase)
  have names := namesIn_nodup hc
  have apis := no_clash_of_apis hc
  have clashes : c.paths.Nodup ↔ ∀ sub ∈ subNamespaces, ¬ Clash sub (c.namesIn sub) := by
    rw [← List.map_id c.paths, paths]
    exact forall₂_congr fun sub hs => classNames_nodup_iff hs (names sub hs)
  simpa [subNamespaces, Client.namesIn, apis] using clashes

-- The files of a client can be written unless there is a clash. Then there is one for each entity, response and tag and
-- those that every client has, all of them in different places; no operation is missing, and no entity is neither an
-- object nor an enum.
theorem generate_fails_iff (hc : d.client rootNamespace = .ok c) (options : PackageOptions) :
    ((∃ e, generate c options = .error e) ↔
      Clash "Model" (c.entities.map (·.name)) ∨ Clash "Response" (c.responses.map (·.name))) ∧
    (∀ e, generate c options = .error e → ∃ path ∈ c.paths, e = .generatedTwice path) ∧
    (∀ files, generate c options = .ok files → files.map (·.path) = c.paths ∧ c.paths.Nodup) ∧
    (∀ api ∈ c.apis, ∃ f, tagFile c api = .ok f) ∧
    ∀ e ∈ c.entities, e.kind ≠ .object → ∃ f, enumFile rootNamespace e = .ok f := by
  have run := generates hc options
  refine ⟨?fails, ?twice, ?files, ?operations, ?enums⟩
  case fails =>
    rw [← not_iff_not, not_or, ← paths_nodup_iff_of_client hc]
    cases hg : generate c options with
    | ok files => exact iff_of_true (by simp) (hg ▸ run).of_ok.1
    | error e => exact iff_of_false (fun none => none ⟨_, rfl⟩) (hg ▸ run).of_error.1
  case twice => exact fun e he => (he ▸ run).of_error.2
  case files => exact fun files hf => (hf ▸ run).of_ok.symm
  case operations =>
    intro api ha
    rw [tagFile, apiEndpoints_eq_ok (in_range_of_api hc ha)]
    exact ⟨_, rfl⟩
  case enums =>
    intro e he object
    obtain ⟨f, hf, _⟩ := entityFile?_of_hasClass rootNamespace (hasClass_of_entity hc e he)
    rw [entityFile?, if_neg object] at hf
    rw [enumFile, hf]
    exact ⟨_, rfl⟩

theorem shelf_generation :
    (∃ c files, (Shelf.document ["list", "pet"] ["class"] ["list"]).client Client.defaultNamespace = .ok c ∧
      Shelf.Names c ["List", "Pet"] ["Class"] ["ListApi"] ∧ generate c {} = .ok files ∧
      files.map (·.path) = ["src/Model/ListModel.php", "src/Model/Pet.php", "src/Response/ClassResponse.php",
        "src/Api/ListApi.php", "src/Configuration.php", "src/AbstractApi.php", "src/ApiException.php",
        "composer.json"]) ∧
    ∃ c, (Shelf.document ["list", "listModel"] [] []).client Client.defaultNamespace = .ok c ∧
      Shelf.Names c ["List", "ListModel"] [] [] ∧ ∃ path ∈ c.paths, generate c {} = .error (.generatedTwice path) := by
  constructor
  case left =>
    obtain ⟨c, hc, names⟩ := Shelf.clients.1
    obtain ⟨fails_iff, -, generated, -⟩ := generate_fails_iff hc {}
    have paths : ["List", "Pet"].map (classPath "Model") ++ ["Class"].map (classPath "Response") ++
        ["ListApi"].map (classPath "Api") ++ fixedPaths = ["src/Model/ListModel.php", "src/Model/Pet.php",
          "src/Response/ClassResponse.php", "src/Api/ListApi.php", "src/Configuration.php", "src/AbstractApi.php",
          "src/ApiException.php", "composer.json"] := by decide
    cases hg : generate c {} with
    | ok files => exact ⟨c, files, hc, names, hg, (generated files hg).1.trans (names.paths_eq.trans paths)⟩
    | error e =>
      have clash := fails_iff.mp ⟨e, hg⟩
      rw [names.1, names.2.1] at clash
      exact absurd clash (by decide)
  case right =>
    obtain ⟨c, hc, names⟩ := Shelf.clients.2.1
    obtain ⟨fails_iff, twice, -⟩ := generate_fails_iff hc {}
    have clash : Clash "Model" ["List", "ListModel"] := by decide
    have ⟨e, he⟩ := fails_iff.mpr (.inl (names.1 ▸ clash))
    have ⟨path, mem, same⟩ := twice e he
    exact ⟨c, hc, names, path, mem, same ▸ he⟩

-- The names of the classes in a part of the namespace without regard to case, in order.
theorem foldedNames_of_client (hc : d.client rootNamespace = .ok c) : ∃ classes, classFiles c = .ok classes ∧
    ∀ sub ∈ subNamespaces, (classes.filter (·.sub = some sub)).map (foldCase ·.name) =
      (c.namesIn sub).map fun name => foldCase (className sub name) := by
  have ⟨classes, hf, places⟩ := places_of_client hc
  refine ⟨classes, hf, fun sub hs => ?_⟩
  let within (place : Option String × String) : Bool := place.1 = some sub
  have entries (sub' : String) (names : List String) :
      ((names.map fun name => (some sub', className sub' name)).filter within).map (foldCase ·.2) =
        if sub' = sub then names.map (foldCase <| className sub' ·) else [] := by
    split <;> simp_all [within, List.filter_map, Function.comp_def]
  calc (classes.filter (·.sub = some sub)).map (foldCase ·.name)
      = ((classes.map fun f => (f.sub, f.name)).filter within).map (foldCase ·.2) := by
        simp [List.filter_map, within, Function.comp_def]
    _ = subNamespaces.flatMap fun sub' =>
          if sub' = sub then (c.namesIn sub').map (foldCase <| className sub' ·) else [] := by
        rw [places, List.filter_append, List.map_append, List.filter_flatMap, List.map_flatMap]
        simp [entries, within, fixedClasses]
    _ = (c.namesIn sub).map (foldCase <| className sub ·) := by
        simp only [subNamespaces, List.mem_cons, List.not_mem_nil, or_false] at hs
        obtain rfl | rfl | rfl := hs <;> simp [subNamespaces]

-- No two classes of a part of the namespace are called the same whatever the case of letters, and no two files lie in
-- the same place, unless names already differ by case only or one that is reserved displaces another.
theorem foldedNames_nodup_iff (hc : d.client rootNamespace = .ok c) {files : List SourceFile}
    (hg : generate c options = .ok files) :
    (∃ classes, classFiles c = .ok classes ∧ ∀ sub ∈ subNamespaces,
      (((classes.filter (·.sub = some sub)).map (foldCase ·.name)).Nodup ↔
        ((c.namesIn sub).map foldCase).Nodup ∧ ¬ FoldedClash sub (c.namesIn sub))) ∧
    ((files.map (foldCase ·.path)).Nodup ↔
      ∀ sub ∈ subNamespaces, ((c.namesIn sub).map foldCase).Nodup ∧ ¬ FoldedClash sub (c.namesIn sub)) := by
  constructor
  case left =>
    have ⟨classes, hf, names⟩ := foldedNames_of_client hc
    refine ⟨classes, hf, fun sub hs => ?_⟩
    rw [names sub hs]
    exact foldedClassNames_nodup_iff hs
  case right =>
    have run := generates hc options
    have ⟨_, paths⟩ := (hg ▸ run).of_ok
    have folded : files.map (foldCase ·.path) = c.paths.map foldCase := by simp [← paths, Function.comp_def]
    rw [folded, paths_nodup_iff foldCase_append id]
    exact forall₂_congr fun sub hs => foldedClassNames_nodup_iff hs

theorem shelf_foldedNames : ∃ c files classes,
    (Shelf.document ["list", "pet"] ["class"] ["list"]).client Client.defaultNamespace = .ok c ∧
    generate c {} = .ok files ∧ classFiles c = .ok classes ∧
    (∀ sub ∈ subNamespaces, ((classes.filter (·.sub = some sub)).map (foldCase ·.name)).Nodup) ∧
    (files.map (foldCase ·.path)).Nodup := by
  obtain ⟨c, hc, names⟩ := Shelf.clients.1
  obtain ⟨files, hg, -⟩ := exists_files hc {} (names.paths_eq ▸ by decide)
  obtain ⟨⟨classes, hf, classes_iff⟩, files_iff⟩ := foldedNames_nodup_iff hc hg
  have apart : ∀ sub ∈ subNamespaces, ((c.namesIn sub).map foldCase).Nodup ∧ ¬ FoldedClash sub (c.namesIn sub) := by
    simp only [Client.namesIn, names.1, names.2.1, names.2.2]
    decide
  exact ⟨c, files, classes, hc, hg, hf, fun sub hs => (classes_iff sub hs).mpr (apart sub hs), files_iff.mpr apart⟩

-- Keys and tags that differ by case only, and a name that differs by case only from what a reserved word becomes.
theorem not_foldedNames : ∃ c files classes,
    (Shelf.document ["list", "listmodel"] ["notFound", "notfound"] ["petStore", "petstore"]).client
      Client.defaultNamespace = .ok c ∧
    generate c {} = .ok files ∧ classFiles c = .ok classes ∧
    (∀ sub ∈ subNamespaces, ¬ ((classes.filter (·.sub = some sub)).map (foldCase ·.name)).Nodup) ∧
    files.map (·.path) = ["src/Model/ListModel.php", "src/Model/Listmodel.php", "src/Response/NotFound.php",
      "src/Response/Notfound.php", "src/Api/PetStoreApi.php", "src/Api/PetstoreApi.php", "src/Configuration.php",
      "src/AbstractApi.php", "src/ApiException.php", "composer.json"] := by
  obtain ⟨c, hc, names⟩ := Shelf.clients.2.2
  obtain ⟨files, hg, paths⟩ := exists_files hc {} (names.paths_eq ▸ by decide)
  obtain ⟨classes, hf, folded⟩ := foldedNames_of_client hc
  refine ⟨c, files, classes, hc, hg, hf, ?classes, (paths.trans names.paths_eq).trans (by decide)⟩
  case classes =>
    have repeated : ∀ sub ∈ subNamespaces,
        ¬ (((c.namesIn sub).map foldCase).Nodup ∧ ¬ FoldedClash sub (c.namesIn sub)) := by
      simp only [Client.namesIn, names.1, names.2.1, names.2.2]
      decide
    intro sub hs
    rw [folded sub hs, foldedClassNames_nodup_iff hs]
    exact repeated sub hs

end Document

end OpenApiClient
