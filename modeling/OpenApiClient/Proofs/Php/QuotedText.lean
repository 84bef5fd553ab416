import OpenApiClient.Php.Support
import OpenApiClient.Proofs.Php.CaseNames
import OpenApiClient.Proofs.Php.Comments

/-!
Texts in single quotes, as PHP reads them. Whatever a text is, its literal is read as that text, and what stands behind
the literal is read as if there were another one. So nothing in a document gets out of a literal.
-/

namespace OpenApiClient

namespace Php

-- Where a reader stands: in code, in a literal of which it has read some text, or there right behind a backslash.
inductive Mode where
  | code
  | quoted (text : List Char)
  | escaped (text : List Char)

inductive Piece where
  | code (c : Char)
  | text (s : String)
  deriving DecidableEq, Repr

def Piece.text? : Piece → Option String
  | .code _ => none
  | .text s => some s

-- A character of code with which no text of another kind starts, and no comment.
def isBare (c : Char) : Bool := c != '\'' && c != '"' && c != '\x60' && c != '#' && c != '/' && c != '<'

-- A backslash makes an apostrophe or a backslash a part of the text. Before anything else it is one itself.
def Mode.step : Mode → Char → Option (List Piece × Mode)
  | .code, c =>
    if c = '\'' then some ([], .quoted [])
    else if isBare c then some ([.code c], .code)
    else none
  | .quoted text, c =>
    if c = '\'' then some ([.text (String.ofList text)], .code)
    else if c = '\\' then some ([], .escaped text)
    else some ([], .quoted (text ++ [c]))
  | .escaped text, c =>
    if c = '\\' ∨ c = '\'' then some ([], .quoted (text ++ [c]))
    else some ([], .quoted (text ++ ['\\', c]))

-- The pieces of some code, all of it, if its last text comes to an end.
def readFrom : Mode → List Char → Option (List Piece)
  | .code, [] => some []
  | .quoted _, [] | .escaped _, [] => none
  | mode, c :: rest => (mode.step c).bind fun next => (readFrom next.2 rest).map (next.1 ++ ·)

def read? (code : String) : Option (List Piece) := readFrom .code code.toList

section

variable {mode next : Mode} {a b text rest : List Char} {c : Char} {pieces : List Piece}

theorem readFrom_cons : readFrom mode (c :: rest) =
    (mode.step c).bind fun next => (readFrom next.2 rest).map (next.1 ++ ·) := by
  cases mode <;> rfl

theorem readFrom_of_step (h : mode.step c = some (pieces, next)) :
    readFrom mode (c :: rest) = (readFrom next rest).map (pieces ++ ·) := by
  rw [readFrom_cons, h, Option.bind_some]

theorem readFrom_of_silent_step (h : mode.step c = some ([], next)) : readFrom mode (c :: rest) = readFrom next rest := by
  simp [readFrom_of_step h]

-- What is written for a character is read as that character.
theorem readFrom_quoteChar : readFrom (.quoted text) (quoteChar c ++ rest) = readFrom (.quoted (text ++ [c])) rest := by
  unfold quoteChar
  split
  case isTrue special =>
    have escapes : Mode.step (.quoted text) '\\' = some ([], .escaped text) := rfl
    have escaped : Mode.step (.escaped text) c = some ([], .quoted (text ++ [c])) := if_pos special
    rw [List.cons_append, readFrom_of_silent_step escapes, List.singleton_append, readFrom_of_silent_step escaped]
  case isFalse plain =>
    rw [not_or] at plain
    have kept : Mode.step (.quoted text) c = some ([], .quoted (text ++ [c])) := by simp [Mode.step, plain]
    rw [List.singleton_append, readFrom_of_silent_step kept]

theorem readFrom_quoteChars (s : List Char) : readFrom (.quoted text) (s.flatMap quoteChar ++ rest) =
    readFrom (.quoted (text ++ s)) rest := by
  induction s generalizing text with
  | nil => simp
  | cons c s ih =>
    rw [List.flatMap_cons, List.append_assoc, readFrom_quoteChar, ih, List.append_assoc, List.singleton_append]

theorem readFrom_string (s : String) (rest : List Char) :
    readFrom .code ((string s).toList ++ rest) = (readFrom .code rest).map (.text s :: ·) := by
  have opened : (string s).toList ++ rest = '\'' :: (s.toList.flatMap quoteChar ++ '\'' :: rest) := by
    simp [string, quote_eq]
  have starts : Mode.step .code '\'' = some ([], .quoted []) := rfl
  have ends : Mode.step (.quoted s.toList) '\'' = some ([.text s], .code) := by simp [Mode.step]
  rw [opened, readFrom_of_silent_step starts, readFrom_quoteChars, List.nil_append, readFrom_of_step ends]
  rfl

-- Code that has been read to its end does not change what comes after it.
theorem readFrom_append (h : readFrom mode a = some pieces) :
    readFrom mode (a ++ b) = (readFrom .code b).map (pieces ++ ·) := by
  induction a generalizing mode pieces with
  | nil =>
    cases mode with
    | code =>
      cases h
      simp
    | quoted | escaped => contradiction
  | cons c a ih =>
    rw [readFrom_cons, Option.bind_eq_some_iff] at h
    obtain ⟨⟨here, next⟩, step, rest⟩ := h
    obtain ⟨others, read, rfl⟩ := Option.map_eq_some_iff.mp rest
    rw [List.cons_append, readFrom_of_step step, ih read, Option.map_map]
    simp [Function.comp_def]

theorem readFrom_bare (h : ∀ c ∈ a, isBare c) : readFrom .code a = some (a.map .code) := by
  induction a with
  | nil => rfl
  | cons c a ih =>
    have ⟨bare, others⟩ := List.forall_mem_cons.mp h
    have unquoted : c ≠ '\'' := by
      rintro rfl
      contradiction
    have kept : Mode.step .code c = some ([.code c], .code) := by simp [Mode.step, unquoted, bare]
    rw [readFrom_of_step kept, ih others]
    rfl

end

theorem read?_string (s : String) : read? (string s) = some [.text s] := by
  have read := readFrom_string s []
  rwa [List.append_nil] at read

theorem read?_string_between {before after : String} {pieces : List Piece} (s : String) (h : read? before = some pieces) :
    read? (before ++ string s ++ after) = (read? after).map (pieces ++ .text s :: ·) := by
  have h : readFrom .code before.toList = some pieces := h
  rw [read?, String.toList_append, String.toList_append, List.append_assoc, readFrom_append h, readFrom_string,
    Option.map_map]
  rfl

example : read? "$path === 'it\\'s\\\\' . '\\n'" =
    some ("$path === ".toList.map .code ++ .text "it's\\" :: " . ".toList.map .code ++ [.text "\\n"]) := by decide +kernel

-- The texts in some code, all of which is read.
structure Reads (code : String) (texts : List String) : Prop where
  texts_eq : (read? code).map (·.filterMap Piece.text?) = some texts

inductive ReadsLines : Lines → List String → Prop
  | nil : ReadsLines [] []
  | cons {line lines texts texts'} : Reads line texts → ReadsLines lines texts' →
    ReadsLines (line :: lines) (texts ++ texts')

namespace Reads

variable {code code' : String} {texts texts' : List String} {chars chars' : List Char} {α : Type}

theorem bare (h : ∀ c ∈ code.toList, isBare c) : Reads code [] where
  texts_eq := by simp [read?, readFrom_bare h, Piece.text?, List.filterMap_map, Function.comp_def]

theorem of_string (s : String) : Reads (string s) [s] where
  texts_eq := by simp [read?_string, Piece.text?]

theorem append (h : Reads code texts) (h' : Reads code' texts') : Reads (code ++ code') (texts ++ texts') where
  texts_eq := by
    obtain ⟨pieces, read, rfl⟩ := Option.map_eq_some_iff.mp h.texts_eq
    obtain ⟨pieces', read', rfl⟩ := Option.map_eq_some_iff.mp h'.texts_eq
    have read' : readFrom .code code'.toList = some pieces' := read'
    rw [read?, String.toList_append, readFrom_append read, read']
    simp

theorem fixed (h : chars.all isBare) : Reads (String.ofList chars) [] :=
  bare (by simpa using h)

theorem append_fixed (h : Reads code texts) (hc : chars.all isBare) : Reads (code ++ String.ofList chars) texts := by
  simpa using h.append (fixed hc)

theorem fixed_append (hc : chars.all isBare) (h : Reads code texts) : Reads (String.ofList chars ++ code) texts :=
  (fixed hc).append h

theorem between (hc : chars.all isBare) (h : Reads code texts) (hc' : chars'.all isBare) :
    Reads (String.ofList chars ++ code ++ String.ofList chars') texts :=
  (fixed_append hc h).append_fixed hc'

theorem intercalate_map {f g : α → String} {xs : List α} (hc : chars.all isBare) (h : ∀ x ∈ xs, Reads (f x) [g x]) :
    Reads ((String.ofList chars).intercalate (xs.map f)) (xs.map g) := by
  induction xs with
  | nil => exact bare (by simp)
  | cons x xs ih =>
    have ⟨first, others⟩ := List.forall_mem_cons.mp h
    cases xs with
    | nil => simpa using first
    | cons y xs =>
      rw [List.map_cons, List.map_cons, String.intercalate_cons_cons]
      exact (first.append_fixed hc).append (ih others)

end Reads

namespace ReadsLines

variable {line first last : String} {lines lines' : Lines} {texts texts' : List String} {α : Type}

theorem one (h : Reads line texts) : ReadsLines [line] texts := by
  simpa using cons h .nil

theorem append (h : ReadsLines lines texts) (h' : ReadsLines lines' texts') :
    ReadsLines (lines ++ lines') (texts ++ texts') := by
  induction h with
  | nil => exact h'
  | cons first _ ih => exact List.append_assoc .. ▸ cons first ih

theorem indent (h : ReadsLines lines texts) : ReadsLines (Php.indent lines) texts := by
  induction h with
  | nil => exact .nil
  | @cons line _ texts _ first _ ih =>
    have indented : Reads (indentLine line) texts := by
      unfold indentLine
      split
      case isTrue empty => exact empty ▸ first
      case isFalse => exact .fixed_append rfl first
    exact cons indented ih

theorem enclose (hf : Reads first []) (h : ReadsLines lines texts) (hl : Reads last []) :
    ReadsLines (Php.enclose first lines last) texts := by
  have body := h.indent.append (one hl)
  rw [List.append_nil] at body
  exact cons hf body

theorem flatMap {f : α → Lines} {g : α → List String} {xs : List α} (h : ∀ x ∈ xs, ReadsLines (f x) (g x)) :
    ReadsLines (xs.flatMap f) (xs.flatMap g) := by
  induction xs with
  | nil => exact .nil
  | cons x xs ih =>
    have ⟨first, others⟩ := List.forall_mem_cons.mp h
    exact first.append (ih others)

theorem map {f g : α → String} {xs : List α} (h : ∀ x ∈ xs, Reads (f x) [g x]) : ReadsLines (xs.map f) (xs.map g) := by
  have lines := flatMap (f := fun x => [f x]) fun x hx => one (h x hx)
  rwa [← List.map_eq_flatMap, ← List.map_eq_flatMap] at lines

-- Lines are read one after the other.
theorem text (h : ReadsLines lines texts) : Reads ("\n".intercalate lines) texts := by
  induction h with
  | nil => exact .bare (by simp)
  | @cons line lines _ _ first others ih =>
    cases others with
    | nil => simpa using first
    | cons =>
      rw [String.intercalate_cons_cons]
      exact (first.append_fixed rfl).append ih

end ReadsLines

section

variable {c : Char} {name : String}

theorem isBare_of_isNameChar (h : Naming.isNameChar c) : isBare c := by
  simp only [isBare, Bool.and_eq_true, bne_iff_ne]
  refine ⟨⟨⟨⟨⟨?_, ?_⟩, ?_⟩, ?_⟩, ?_⟩, ?_⟩
  all_goals
    rintro rfl
    contradiction

theorem isBare_of_isNumberChar (h : Literal.IsNumberChar c) : isBare c := by
  rcases h with digit | rfl | rfl
  · exact isBare_of_isNameChar (by simp [Naming.isNameChar, digit])
  · decide
  · decide

theorem isBare_of_mem_digits {n : Nat} (h : c ∈ Nat.toDigits 10 n) : isBare c :=
  isBare_of_isNumberChar (Literal.isNumberChar_of_mem_toDigits h)

theorem Reads.of_isWord (h : Naming.IsWord name) : Reads name [] :=
  .bare fun c hc => isBare_of_isNameChar (h.chars c hc)

theorem isBare_of_mem_scientific {style : NumberStyle} {digits : List Char} (hd : ∀ c ∈ digits, isBare c) (exponent : Int)
    (h : c ∈ style.scientific digits exponent) : isBare c := by
  revert c
  unfold NumberStyle.scientific
  simp only [List.forall_mem_append, List.forall_mem_cons]
  refine ⟨⟨?_, by decide, ?_⟩, fun c hc => isBare_of_mem_digits hc⟩
  · split
    case h_1 first second rest =>
      simp only [List.forall_mem_cons] at hd ⊢
      exact ⟨hd.1, by decide, hd.2⟩
    case h_2 => exact hd
  · split
    case isTrue => exact List.forall_mem_singleton.mpr rfl
    case isFalse =>
      split
      case isTrue => exact List.forall_mem_singleton.mpr rfl
      case isFalse => exact List.forall_mem_nil _

theorem isBare_of_mem_write {style : NumberStyle} {x : Binary64} (h : c ∈ style.write x) : isBare c := by
  have unsigned (digits : Nat) (last exponent : Int) (positional : Prop) [Decidable positional] :
      ∀ c ∈ if positional then style.positionalText (Nat.toDigits 10 digits) last
        else style.scientific (Nat.toDigits 10 digits) exponent, isBare c := by
    intro c hc
    split at hc
    case isTrue =>
      refine isBare_of_isNumberChar (Literal.isNumberChar_of_mem_positionalText ?_ last hc)
      exact fun c hc => Literal.isNumberChar_of_mem_toDigits hc
    case isFalse => exact isBare_of_mem_scientific (fun c hc => isBare_of_mem_digits hc) exponent hc
  simp only [NumberStyle.write] at h
  split at h
  case isTrue =>
    rcases List.mem_cons.mp h with rfl | h
    · decide
    · exact unsigned _ _ _ _ c h
  case isFalse => exact unsigned _ _ _ _ c h

end

-- The texts in the literal for a value.
def literalTexts : Literal → List String
  | .string s => [s]
  | .int _ | .float _ | .bool _ => []

theorem Reads.literal (l : Literal) : Reads (Php.literal l) (literalTexts l) := by
  cases l with
  | string s => exact .of_string s
  | int n =>
    refine .bare fun c hc => isBare_of_isNumberChar ?_
    exact Literal.isNumberChar_of_mem_intText (by simpa [Php.literal] using hc)
  | float x => exact .bare fun c hc => isBare_of_mem_write (by simpa [Php.literal] using hc)
  | bool b => cases b <;> exact .fixed rfl

section

variable {e : Endpoint}

-- What is passed on when a request is sent.
def callLines (e : Endpoint) : Lines :=
  [string e.method.name ++ ",", string e.path ++ ","] ++ locationGroups.flatMap (groupLines e) ++ payloadLines e

def callTexts (e : Endpoint) : List String :=
  [e.method.name, e.path] ++ (locationGroups.flatMap fun group => (e.argumentsIn group.2).map (·.wireName)) ++
    e.payload.toList.map (·.contentType)

theorem readsLines_groupLines (named : ∀ a ∈ e.arguments, Naming.IsWord a.name.camel) {group : String × ParameterLocation}
    (hg : group ∈ locationGroups) : ReadsLines (groupLines e group) ((e.argumentsIn group.2).map (·.wireName)) := by
  have opened : ∀ group ∈ locationGroups, Reads (group.1 ++ ": [") [] := by
    simp only [locationGroups, List.forall_mem_cons]
    exact ⟨.append_fixed (.fixed rfl) rfl, .append_fixed (.fixed rfl) rfl, .append_fixed (.fixed rfl) rfl,
      .append_fixed (.fixed rfl) rfl, List.forall_mem_nil _⟩
  have entries : Reads (", ".intercalate ((e.argumentsIn group.2).map fun a =>
      string a.wireName ++ " => $" ++ variableName a.name.camel)) ((e.argumentsIn group.2).map (·.wireName)) := by
    refine .intercalate_map rfl fun a ha => ?_
    have bare_name := Reads.of_isWord (isWord_variableName (named a (List.mem_of_mem_filter ha)))
    exact ((Reads.of_string _).append_fixed rfl).append bare_name
  unfold groupLines
  dsimp only
  split
  case isTrue none =>
    rw [List.map_eq_nil_iff.mp none]
    exact .nil
  case isFalse =>
    exact .one (((opened group hg).append entries).append_fixed rfl)

theorem readsLines_payloadLines (e : Endpoint) : ReadsLines (payloadLines e) (e.payload.toList.map (·.contentType)) := by
  unfold payloadLines
  split
  case h_1 none =>
    rw [none]
    exact .nil
  case h_2 b some =>
    have payload_variable : Reads payloadVariable [] := .fixed rfl
    have sent : Reads (if b.required then string b.contentType
        else "$" ++ payloadVariable ++ " === null ? null : " ++ string b.contentType) [b.contentType] := by
      split
      case isTrue => exact .of_string _
      case isFalse => exact (Reads.between rfl payload_variable rfl).append (.of_string _)
    rw [some]
    exact .cons (.between rfl payload_variable rfl) (.one (.between rfl sent rfl))

theorem readsLines_call (named : ∀ a ∈ e.arguments, Naming.IsWord a.name.camel) :
    ReadsLines (enclose "$httpResponse = $this->send(" (callLines e) ");") (callTexts e) := by
  have target : ReadsLines [string e.method.name ++ ",", string e.path ++ ","] [e.method.name, e.path] :=
    .cons (.append_fixed (.of_string _) rfl) (.one (.append_fixed (.of_string _) rfl))
  have groups := ReadsLines.flatMap fun group hg => readsLines_groupLines named hg
  exact .enclose (.fixed rfl) ((target.append groups).append (readsLines_payloadLines e)) (.fixed rfl)

end

theorem readsLines_knownKeys (e : Entity) : ReadsLines (Model.knownKeys e) (e.properties.map (·.name.written)) := by
  have entries : Reads (", ".intercalate (e.properties.map fun p => string p.name.written ++ " => true"))
      (e.properties.map (·.name.written)) :=
    .intercalate_map rfl fun p _ => .append_fixed (.of_string _) rfl
  exact .one (.between rfl entries rfl)

section

open Naming

variable {reserved : List String} {cases : List EnumCase} {f : DeclaredCase → Lines} {g : EnumCase → List String}

-- What is read in the lines for the cases, if that does not depend on what the cases are called.
theorem DeclaredCase.readsLines_ofCases (hr : Avoidable reserved) (legal : ∀ c ∈ cases, IsClassName c.label)
    (h : ∀ name c, IsClassName name → ReadsLines (f ⟨name, string c.label, Php.literal c.value⟩) (g c)) :
    ReadsLines ((ofCases reserved cases).flatMap f) (cases.flatMap g) := by
  induction cases using List.reverseRecOn with
  | nil => exact .nil
  | append_singleton cases c ih =>
    have ⟨others, last⟩ := List.forall_mem_append.mp legal
    obtain ⟨name, -, -, class_name, declared⟩ := add_eq hr (ofCases reserved cases) (last c List.mem_cons_self)
    rw [ofCases_concat, declared, List.flatMap_append, List.flatMap_append, List.flatMap_singleton, List.flatMap_singleton]
    exact (ih others).append (h name c class_name)

theorem readsLines_backedEnumFile (root type : String) {e : Entity} (legal : ∀ c ∈ e.cases, IsClassName c.label) :
    ReadsLines (backedEnumFile root e type).members (e.cases.flatMap (literalTexts ·.value)) := by
  have lines := DeclaredCase.readsLines_ofCases (avoidable List.mem_cons_self) legal
    (f := fun c => ["case " ++ c.name ++ " = " ++ c.literal ++ ";"]) fun name c class_name => by
      have named : Reads ("case " ++ name ++ " = ") [] :=
        .between rfl (.of_isWord class_name.toIsWord) rfl
      exact .one ((named.append (.literal c.value)).append_fixed rfl)
  rwa [← List.map_eq_flatMap] at lines

-- The table of a class with instances, below the comment on it, and the methods that look them up there.
theorem readsLines_instances (type : String) (legal : ∀ c ∈ cases, IsClassName c.label) :
    let declared := DeclaredCase.ofCases reservedInstances cases
    ReadsLines (Instances.table type declared).tail (cases.flatMap fun c => c.label :: literalTexts c.value) ∧
    ReadsLines (declared.flatMap Instances.accessor) (cases.map (·.label)) := by
  have hr : Avoidable reservedInstances := avoidable (by simp)
  constructor
  · have lines := DeclaredCase.readsLines_ofCases hr legal (f := fun c => [c.key ++ " => " ++ c.literal ++ ","])
      fun name c _ => by
        have keyed : Reads (string c.label ++ " => ") [c.label] := .append_fixed (.of_string _) rfl
        exact .one ((keyed.append (.literal c.value)).append_fixed rfl)
    rw [← List.map_eq_flatMap] at lines
    exact .enclose (.fixed rfl) lines (.fixed rfl)
  · have lines := DeclaredCase.readsLines_ofCases hr legal (f := Instances.accessor) fun name c class_name => by
      have head : Reads ("public static function " ++ name ++ "(): self") [] :=
        .between rfl (.of_isWord class_name.toIsWord) rfl
      have looked_up : Reads ("return self::instance(" ++ string c.label ++ ");") [c.label] :=
        .between rfl (.of_string _) rfl
      exact .cons head (.enclose (.fixed rfl) (.one looked_up) (.fixed rfl))
    simpa only [List.nil_append, ← List.map_eq_flatMap] using lines

end

end Php

namespace NamedDocument

open Naming

variable {n : NamedDocument} {o : OperationSite} {e : Endpoint} {found : NamedSchema} {entity : Entity}

theorem isWord_of_endpoint (h : n.endpoint o = .ok e) : ∀ a ∈ e.arguments, IsWord a.name.camel := by
  intro a ha
  obtain ⟨_, _, arguments⟩ := (offers_of_endpoint h).arguments
  obtain ⟨p, _, made⟩ := mem_of_mapM arguments a ha
  simp only [argument, bind_eq_ok, pure_eq_ok] at made
  obtain ⟨_, _, _, _, rfl⟩ := made
  exact WireName.isWord_camel _

theorem isClassName_of_entity (h : n.entity found = .ok entity) : ∀ c ∈ entity.cases, IsClassName c.label := by
  unfold NamedDocument.entity at h
  split at h
  case isTrue =>
    simp only [bind_eq_ok, pure_eq_ok] at h
    obtain ⟨_, _, _, _, _, _, rfl⟩ := h
    exact List.forall_mem_nil _
  case isFalse =>
    cases h
    exact EnumTable.isClassName_label _

end NamedDocument

namespace Php

-- The texts in the literals of a client are those that the document has there, one after the other.
structure TextsKept (c : Client) : Prop where
  calls : ∀ e ∈ c.endpoints, ∃ head rest, methodLines c.rootNamespace e = methodComment c.rootNamespace e ++
    braced head (enclose "$httpResponse = $this->send(" (callLines e) ");" ++ rest) ∧
    ReadsLines (enclose "$httpResponse = $this->send(" (callLines e) ");") (callTexts e)
  keys : ∀ e ∈ c.entities, ReadsLines (Model.knownKeys e) (e.properties.map (·.name.written)) ∧
    ∀ p ∈ e.properties, Reads ("$data[" ++ (ModelField.ofProperty c.rootNamespace p).key ++ "]") [p.name.written]
  cases : ∀ e ∈ c.entities, ∀ type,
    ReadsLines (backedEnumFile c.rootNamespace e type).members (e.cases.flatMap (literalTexts ·.value))
  instances : ∀ e ∈ c.entities, ∀ type, let declared := DeclaredCase.ofCases reservedInstances e.cases
    ReadsLines (Instances.table type declared).tail (e.cases.flatMap fun c => c.label :: literalTexts c.value) ∧
      ReadsLines (declared.flatMap Instances.accessor) (e.cases.map (·.label))
  statuses : ∀ r ∈ c.responses, ∀ status ∈ r.status, ∃ line rest,
    (responseFile c.rootNamespace r).members = spaced ([line] :: rest) ∧ Reads line [status]
  settings : ∃ version host note servers, Configuration.constants c = [[version], [host], note :: servers] ∧
    Reads version [c.info.version] ∧ Reads host [(c.servers.head?.map (·.url)).getD ""] ∧
    ReadsLines servers (c.servers.map (·.url))

theorem exists_call (root : String) (e : Endpoint) : ∃ head rest, methodLines root e = methodComment root e ++
    braced head (enclose "$httpResponse = $this->send(" (callLines e) ");" ++ rest) := by
  rw [methodLines, List.append_assoc (enclose _ _ _)]
  exact ⟨_, _, rfl⟩

theorem exists_status_line (root : String) {r : ResponseClass} {status : String} (h : status ∈ r.status) : ∃ line rest,
    (responseFile root r).members = spaced ([line] :: rest) ∧ Reads line [status] := by
  have line : Reads ("public const STATUS = " ++ string status ++ ";") [status] :=
    .between rfl (.of_string _) rfl
  rw [responseFile, Option.mem_def.mp h]
  exact ⟨_, _, rfl, line⟩

theorem exists_setting_lines (c : Client) : ∃ version host note servers,
    Configuration.constants c = [[version], [host], note :: servers] ∧
    Reads version [c.info.version] ∧ Reads host [(c.servers.head?.map (·.url)).getD ""] ∧
    ReadsLines servers (c.servers.map (·.url)) := by
  have first : Reads ((c.servers.map (string ·.url)).head?.getD (string "")) [(c.servers.head?.map (·.url)).getD ""] := by
    cases c.servers with
    | nil => exact .of_string _
    | cons => exact .of_string _
  have urls : ReadsLines (c.servers.map fun s => string s.url ++ ",") (c.servers.map (·.url)) :=
    .map fun s _ => .append_fixed (.of_string _) rfl
  refine ⟨_, _, _, _, rfl, .between rfl (.of_string _) rfl,
    .between rfl first rfl, ?_⟩
  rw [List.map_map]
  exact .enclose (.fixed rfl) urls (.fixed rfl)

end Php

namespace Document

open Php

variable {d : Document} {c : Client} {rootNamespace : String}

-- The literal for a text is read as this text, in whatever code it stands, and so are all literals of a client for the
-- texts of its document, also when their lines are laid out in a file.
theorem texts_kept (hc : d.client rootNamespace = .ok c) :
    (∀ s, Php.read? (string s) = some [.text s]) ∧
    (∀ before s after pieces, Php.read? before = some pieces →
      Php.read? (before ++ string s ++ after) = (Php.read? after).map (pieces ++ .text s :: ·)) ∧
    (∀ lines texts, ReadsLines lines texts → ReadsLines (indent lines) texts ∧ Reads ("\n".intercalate lines) texts) ∧
    TextsKept c := by
  obtain ⟨n, builds⟩ := builds_of_client hc
  refine ⟨read?_string, fun before s after pieces read => read?_string_between s read,
    fun lines texts read => ⟨read.indent, read.text⟩, ?_⟩
  constructor
  case calls =>
    intro e he
    obtain ⟨_, _, made⟩ := mem_of_mapM builds.endpoints e he
    obtain ⟨head, rest, method⟩ := exists_call c.rootNamespace e
    exact ⟨head, rest, method, readsLines_call (NamedDocument.isWord_of_endpoint made)⟩
  case keys =>
    intro e _
    exact ⟨readsLines_knownKeys e, fun p _ => .between rfl (.of_string _) rfl⟩
  case cases =>
    intro e he type
    obtain ⟨_, _, made⟩ := mem_of_mapM builds.entities e he
    exact readsLines_backedEnumFile _ type (NamedDocument.isClassName_of_entity made)
  case instances =>
    intro e he type
    obtain ⟨_, _, made⟩ := mem_of_mapM builds.entities e he
    exact readsLines_instances type (NamedDocument.isClassName_of_entity made)
  case statuses => exact fun r _ status hs => exists_status_line c.rootNamespace hs
  case settings => exact exists_setting_lines c

end Document

namespace Quill

def text : SchemaRef := .inline { typeKeyword := some (.single .string) }

def operation : Operation where
  parameters := [.inline { name := "\\'", location := .query, schema := some text },
    .inline { name := "to'", location := .header, schema := some text }]
  requestBody := some (.inline { content := [("application/json; by='quill'", { schema := some text })] })
  responses := [("200", .inline { description := "It's written" })]

-- Wherever there is a text, it has apostrophes or backslashes.
def document : Document where
  openapi := "3.1.0"
  info := { title := "Quill", version := "1'" }
  servers := [{ url := "https://quill.example/\\" }]
  paths := [("/it's\\", { post := some operation })]
  components := some { schemas := [
    ("Pen", .inline { properties := [("it's", text), ("nib\\", text)] }),
    ("Ink", .inline { enumValues := [.string "'", .string "\\'", .bool true] })] }

end Quill

namespace Document

open Php

theorem quill_texts_kept : ∃ c, Quill.document.client Client.defaultNamespace = .ok c ∧
    c.endpoints.map callTexts = [["POST", "/it's\\", "\\'", "to'", "application/json; by='quill'"]] ∧
    c.entities.map (fun e => e.properties.map (·.name.written)) = [["it's", "nib\\"], []] ∧
    c.entities.map (fun e => e.cases.flatMap (literalTexts ·.value)) = [[], ["'", "\\'"]] ∧
    c.info.version = "1'" ∧ c.servers.map (·.url) = ["https://quill.example/\\"] ∧ TextsKept c := by
  have built : (Quill.document.client Client.defaultNamespace).toOption.map (fun c => (c.endpoints.map callTexts,
      c.entities.map (fun e => e.properties.map (·.name.written)),
      c.entities.map (fun e => e.cases.flatMap (literalTexts ·.value)), c.info.version, c.servers.map (·.url))) =
        some ([["POST", "/it's\\", "\\'", "to'", "application/json; by='quill'"]], [["it's", "nib\\"], []],
          [[], ["'", "\\'"]], "1'", ["https://quill.example/\\"]) := by decide +kernel
  obtain ⟨c, hc, built⟩ := exists_ok built
  simp only [Prod.mk.injEq] at built
  obtain ⟨calls, keys, cases, version, urls⟩ := built
  exact ⟨c, hc, calls, keys, cases, version, urls, (texts_kept hc).2.2.2⟩

end Document

end OpenApiClient
