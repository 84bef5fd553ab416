import Mathlib.Data.List.Basic
import Mathlib.Data.List.Chain
import Mathlib.Data.List.Find
import Mathlib.Data.List.Induction
import Mathlib.Data.List.Nodup
import Mathlib.Data.List.TakeWhile
import OpenApiClient.Document.Basic
import OpenApiClient.Proofs.Entries

/-!
The URL of a server with its variables filled in. They are filled in one after the other, which comes to the same as
filling them in at once, in whatever order they are declared, unless braces in the defaults, in the names or within
other braces make placeholders that the URL does not have.
-/

namespace OpenApiClient

namespace Placeholders

abbrev Variables := List (String × ServerVariable)

def placeholder (name : String) : List Char := '\x7b' :: name.toList ++ ['\x7d']

-- The text with the default of a variable for each of its placeholders. What is filled in is not looked at again;
-- `skip` counts the characters that still belong to the placeholder filled in last.
def fillFrom (declared : Variables) (skip : Nat) : List Char → List Char
  | [] => []
  | c :: rest =>
    match skip with
    | k + 1 => fillFrom declared k rest
    | 0 =>
      match declared.find? fun v => (placeholder v.1).isPrefixOf (c :: rest) with
      | some v => v.2.defaultValue.toList ++ fillFrom declared (v.1.toList.length + 1) rest
      | none => c :: fillFrom declared 0 rest

def fill (declared : Variables) (url : List Char) : List Char := fillFrom declared 0 url

def isBrace (c : Char) : Bool := c == '\x7b' || c == '\x7d'

-- No brace is opened before the one that was opened last is closed.
def Unnested (url : List Char) : Prop := (url.filter isBrace).IsChain fun a b => ¬ (a = '\x7b' ∧ b = '\x7b')

instance {url : List Char} : Decidable (Unnested url) := inferInstanceAs (Decidable (List.IsChain _ _))

-- Such a text, from one brace to the next.
inductive Template : List Char → Prop
  | nil : Template []
  | char {c s} : c ≠ '\x7b' → Template s → Template (c :: s)
  | unclosed {s} : (∀ c ∈ s, isBrace c = false) → Template ('\x7b' :: s)
  | field {name s} : (∀ c ∈ name, isBrace c = false) → Template s → Template ('\x7b' :: name ++ '\x7d' :: s)

-- Names that close no braces, and defaults that open none.
structure Plain (declared : Variables) : Prop where
  names : ∀ v ∈ declared, '\x7d' ∉ v.1.toList
  defaults : ∀ v ∈ declared, '\x7b' ∉ v.2.defaultValue.toList

variable {declared others : Variables} {v : String × ServerVariable} {c : Char} {s text name url : List Char}

theorem exists_next_brace (s : List Char) : ∃ before after, s = before ++ after ∧ (∀ c ∈ before, isBrace c = false) ∧
    ∀ c ∈ after.head?, isBrace c := by
  refine ⟨s.takeWhile (!isBrace ·), s.dropWhile (!isBrace ·), List.takeWhile_append_dropWhile.symm, ?_, ?_⟩
  · intro c hc
    simpa using List.mem_takeWhile_imp hc
  · intro c hc
    have := List.head?_dropWhile_not (!isBrace ·) s
    simp_all

theorem template_of_unnested : (url : List Char) → Unnested url → Template url
  | [], _ => .nil
  | c :: rest, h => by
    by_cases opens : c = '\x7b'
    case neg =>
      refine .char opens (template_of_unnested rest ?_)
      rw [Unnested, List.filter_cons] at h
      split at h
      case isTrue => exact h.tail
      case isFalse => exact h
    case pos =>
      subst opens
      obtain ⟨name, after, cut, free, next⟩ := exists_next_brace rest
      have none_between : name.filter isBrace = [] := by simpa [List.filter_eq_nil_iff] using free
      rw [Unnested, cut, List.filter_cons_of_pos (by decide), List.filter_append, none_between, List.nil_append] at h
      cases after with
      | nil => exact .unclosed (by simpa [cut] using free)
      | cons brace after =>
        have next : isBrace brace := next brace rfl
        rw [List.filter_cons_of_pos next] at h
        have closes : brace = '\x7d' := by
          have not_opened := (List.isChain_cons_cons.mp h).1
          simp_all [isBrace]
        rw [cut, closes]
        exact .field free (template_of_unnested after h.tail.tail)
termination_by url => url.length
decreasing_by all_goals grind

theorem fillFrom_skip (declared : Variables) (text s : List Char) :
    fillFrom declared text.length (text ++ s) = fill declared s := by
  induction text with
  | nil => rfl
  | cons c text ih => exact ih

-- Filling in one variable is replacing its placeholder.
theorem replaceAll_placeholder (v : String × ServerVariable) (s : List Char) :
    Text.replaceAll (placeholder v.1) v.2.defaultValue.toList s = fill [v] s := by
  have step (skip : Nat) (s : List Char) :
      Text.replaceFrom (placeholder v.1) v.2.defaultValue.toList skip s = fillFrom [v] skip s := by
    induction s generalizing skip with
    | nil => rfl
    | cons c rest ih =>
      cases skip with
      | succ k => exact ih k
      | zero =>
        have length : (placeholder v.1).length - 1 = v.1.toList.length + 1 := by simp [placeholder]
        rw [Text.replaceFrom, fillFrom, List.find?_singleton, length, ih, ih]
        split <;> rfl
  exact step 0 s

-- Only an opening brace starts a placeholder.
theorem fill_cons (h : c ≠ '\x7b') (s : List Char) : fill declared (c :: s) = c :: fill declared s := by
  have not_found : declared.find? (fun v => (placeholder v.1).isPrefixOf (c :: s)) = none := by
    simp [placeholder, h.symm]
  rw [fill, fillFrom, not_found]
  rfl

theorem fill_append (h : '\x7b' ∉ text) (s : List Char) : fill declared (text ++ s) = text ++ fill declared s := by
  induction text with
  | nil => rfl
  | cons c text ih =>
    obtain ⟨first, others⟩ := not_or.mp (List.mem_cons.not.mp h)
    rw [List.cons_append, fill_cons (Ne.symm first), ih others, List.cons_append]

-- What stands for a name in braces.
def filling (declared : Variables) (name : List Char) : List Char :=
  match declared.find? (·.1.toList = name) with
  | some v => v.2.defaultValue.toList
  | none => '\x7b' :: name ++ ['\x7d']

theorem takeWhile_closing (h : '\x7d' ∉ name) (s : List Char) : (name ++ '\x7d' :: s).takeWhile (· ≠ '\x7d') = name := by
  rw [List.takeWhile_append_of_pos (by grind)]
  simp

theorem placeholder_isPrefixOf_iff {known : String} (hk : '\x7d' ∉ known.toList) (hn : '\x7d' ∉ name) :
    (placeholder known).isPrefixOf ('\x7b' :: name ++ '\x7d' :: s) ↔ known.toList = name := by
  rw [List.isPrefixOf_iff_prefix]
  constructor
  · rintro ⟨rest, same⟩
    simp only [placeholder, List.cons_append, List.append_assoc, List.cons.injEq, true_and, List.nil_append] at same
    rw [← takeWhile_closing hk rest, same, takeWhile_closing hn]
  · rintro rfl
    exact ⟨s, by simp [placeholder]⟩

theorem fill_field (names : ∀ v ∈ declared, '\x7d' ∉ v.1.toList) (free : ∀ c ∈ name, isBrace c = false) (s : List Char) :
    fill declared ('\x7b' :: name ++ '\x7d' :: s) = filling declared name ++ fill declared s := by
  have unclosed : '\x7d' ∉ name := fun there => absurd (free _ there) (by decide)
  have unopened : '\x7b' ∉ name := fun there => absurd (free _ there) (by decide)
  have found : declared.find? (fun v => (placeholder v.1).isPrefixOf ('\x7b' :: (name ++ '\x7d' :: s))) =
      declared.find? (·.1.toList = name) := by
    refine List.find?_congr fun v hv => Bool.eq_iff_iff.mpr ?_
    exact (placeholder_isPrefixOf_iff (names v hv) unclosed).trans decide_eq_true_iff.symm
  rw [List.cons_append, fill, fillFrom, found, filling]
  cases known : declared.find? (·.1.toList = name) with
  | none =>
    have passed : fill declared (name ++ '\x7d' :: s) = name ++ '\x7d' :: fill declared s := by
      rw [fill_append unopened, fill_cons (by decide)]
    exact (congrArg ('\x7b' :: ·) passed).trans (by simp)
  | some v =>
    obtain rfl : v.1.toList = name := by simpa using List.find?_some known
    have skipped := fillFrom_skip declared (v.1.toList ++ ['\x7d']) s
    simp_all

theorem fill_unclosed (free : ∀ c ∈ s, isBrace c = false) : fill declared ('\x7b' :: s) = '\x7b' :: s := by
  have unclosed : '\x7d' ∉ s := fun there => absurd (free _ there) (by decide)
  have unopened : '\x7b' ∉ s := fun there => absurd (free _ there) (by decide)
  have not_found : declared.find? (fun v => (placeholder v.1).isPrefixOf ('\x7b' :: s)) = none := by
    rw [List.find?_eq_none]
    intro v _ starts
    have closing : '\x7d' ∈ placeholder v.1 := by simp [placeholder]
    have := (List.isPrefixOf_iff_prefix.mp starts).subset closing
    simp [unclosed] at this
  have passed : fill declared (s ++ []) = s ++ [] := fill_append unopened []
  rw [List.append_nil] at passed
  rw [fill, fillFrom, not_found]
  exact congrArg ('\x7b' :: ·) passed

theorem fill_nil_left (url : List Char) : fill [] url = url := by
  induction url with
  | nil => rfl
  | cons c rest ih => exact congrArg (c :: ·) ih

-- Filling in another variable after some is filling it in with them.
theorem fill_fill (plain : Plain declared) (hv : '\x7d' ∉ v.1.toList) (h : Template url) :
    fill [v] (fill declared url) = fill (declared ++ [v]) url := by
  have one : ∀ w ∈ [v], '\x7d' ∉ w.1.toList := by simpa using hv
  have all : ∀ w ∈ declared ++ [v], '\x7d' ∉ w.1.toList := List.forall_mem_append.mpr ⟨plain.names, one⟩
  induction h with
  | nil => rfl
  | char other _ ih => simp only [fill_cons other, ih]
  | unclosed free => simp only [fill_unclosed free]
  | @field name s free _ ih =>
    rw [fill_field plain.names free, fill_field all free, ← ih]
    cases known : declared.find? (·.1.toList = name) with
    | none =>
      have unfilled : filling declared name = '\x7b' :: name ++ ['\x7d'] := by simp [filling, known]
      have last : filling (declared ++ [v]) name = filling [v] name := by simp [filling, known]
      have again := fill_field one free (fill declared s)
      rw [unfilled, last, ← again]
      simp
    | some w =>
      have filled : filling declared name = w.2.defaultValue.toList := by simp [filling, known]
      have same : filling (declared ++ [v]) name = w.2.defaultValue.toList := by simp [filling, known]
      rw [filled, same, fill_append (plain.defaults w (List.mem_of_find?_eq_some known))]

theorem foldl_fill (plain : Plain declared) (h : Template url) :
    declared.foldl (fun url v => fill [v] url) url = fill declared url := by
  induction declared using List.reverseRecOn with
  | nil => exact (fill_nil_left url).symm
  | append_singleton declared v ih =>
    have before : Plain declared := {
      names := (List.forall_mem_append.mp plain.names).1
      defaults := (List.forall_mem_append.mp plain.defaults).1 }
    rw [List.foldl_append, List.foldl_cons, List.foldl_nil, ih before]
    exact fill_fill before (plain.names v (by simp)) h

-- What stands for a name does not depend on the order of the variables.
theorem filling_perm (distinct : Entries.Distinct declared) (perm : others.Perm declared) (name : List Char) :
    filling others name = filling declared name := by
  have once : (others.map (·.1.toList)).Nodup := by
    have keys : (others.map (·.1)).Nodup := (perm.map _).nodup_iff.mpr distinct
    simpa [Function.comp_def] using keys.map fun _ _ => String.toList_inj.mp
  have found : others.find? (·.1.toList = name) = declared.find? (·.1.toList = name) := by
    cases known : declared.find? (·.1.toList = name) with
    | none => simpa [List.find?_eq_none, perm.mem_iff] using known
    | some v =>
      obtain rfl : v.1.toList = name := by simpa using List.find?_some known
      exact find?_of_nodup once (perm.mem_iff.mpr (List.mem_of_find?_eq_some known))
  rw [filling, filling, found]

theorem fill_perm (distinct : Entries.Distinct declared) (plain : Plain declared) (perm : others.Perm declared)
    (h : Template url) : fill others url = fill declared url := by
  have names : ∀ v ∈ others, '\x7d' ∉ v.1.toList := fun v hv => plain.names v (perm.mem_iff.mp hv)
  induction h with
  | nil => rfl
  | char other _ ih => simp only [fill_cons other, ih]
  | unclosed free => simp only [fill_unclosed free]
  | field free _ ih => rw [fill_field names free, fill_field plain.names free, filling_perm distinct perm, ih]

theorem Plain.perm (plain : Plain declared) (perm : others.Perm declared) : Plain others where
  names v hv := plain.names v (perm.mem_iff.mp hv)
  defaults v hv := plain.defaults v (perm.mem_iff.mp hv)

end Placeholders

namespace Server

open Placeholders

def filledAtOnce (s : Server) : String := String.ofList (fill s.placeholders s.url.toList)

theorem filledUrl_eq (s : Server) :
    s.filledUrl = String.ofList (s.placeholders.foldl (fun url v => fill [v] url) s.url.toList) := by
  rw [filledUrl]
  congr 2
  funext url v
  exact replaceAll_placeholder v url

-- The variables of a server are filled in at once and in any order, as long as no default opens a brace, no name closes
-- one, and the URL opens none within braces.
theorem filledUrl_at_once {s : Server} (distinct : Entries.Distinct s.placeholders) (plain : Plain s.placeholders)
    (unnested : Unnested s.url.toList) : s.filledUrl = s.filledAtOnce ∧
      ∀ reordered, reordered.Perm s.placeholders → { s with placeholders := reordered }.filledUrl = s.filledUrl := by
  have template := template_of_unnested _ unnested
  have filled : s.filledUrl = s.filledAtOnce := by
    rw [filledUrl_eq, foldl_fill plain template]
    rfl
  refine ⟨filled, fun reordered perm => ?_⟩
  rw [filled, filledUrl_eq, foldl_fill (plain.perm perm) template, fill_perm distinct plain perm template]
  rfl

end Server

namespace Mirror

-- A server with two variables.
def server (host : String) : Server where
  url := "https://\x7bhost\x7d/\x7bregion\x7d"
  placeholders := [("host", { defaultValue := host }), ("region", { defaultValue := "eu" })]

def reversed (host : String) : Server := { server host with placeholders := (server host).placeholders.reverse }

end Mirror

namespace Server

open Placeholders

theorem mirror_at_once : Entries.Distinct (Mirror.server "example.com").placeholders ∧
    Plain (Mirror.server "example.com").placeholders ∧ Unnested (Mirror.server "example.com").url.toList ∧
    (Mirror.server "example.com").filledUrl = "https://example.com/eu" ∧
    (Mirror.server "example.com").filledAtOnce = "https://example.com/eu" ∧
    (Mirror.reversed "example.com").filledUrl = "https://example.com/eu" := by
  have distinct : Entries.Distinct (Mirror.server "example.com").placeholders := by decide
  have plain : Plain (Mirror.server "example.com").placeholders := ⟨by decide, by decide⟩
  have unnested : Unnested (Mirror.server "example.com").url.toList := by decide +kernel
  have filled : (Mirror.server "example.com").filledAtOnce = "https://example.com/eu" := by decide +kernel
  obtain ⟨at_once, reordered⟩ := filledUrl_at_once distinct plain unnested
  exact ⟨distinct, plain, unnested, at_once.trans filled, filled,
    (reordered _ (List.reverse_perm _)).trans (at_once.trans filled)⟩

-- The default of one variable has the placeholder of another one in it.
theorem not_filledUrl_at_once :
    (Mirror.server "\x7bregion\x7d.example.com").filledUrl = "https://eu.example.com/eu" ∧
    (Mirror.server "\x7bregion\x7d.example.com").filledAtOnce = "https://\x7bregion\x7d.example.com/eu" ∧
    (Mirror.reversed "\x7bregion\x7d.example.com").filledUrl = "https://\x7bregion\x7d.example.com/eu" := by
  decide +kernel

end Server

end OpenApiClient
