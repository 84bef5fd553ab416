import OpenApiClient.Proofs.Php.CommentText

/-!
The docblocks of a file: from a line that opens one to the line that closes it. One that is made as comments are has the
end that it is meant to have exactly if all that is written in it leaves it open.
-/

namespace OpenApiClient.Php

-- What is left of a line without the blanks before it.
def unindented (line : List Char) : List Char := line.dropWhile (· == ' ')

-- The lines of the docblock that is open, and the docblocks before it.
structure Scan where
  opened : Option Lines := none
  closed : List Lines := []

namespace Scan

-- A docblock opens with a line of its own, unless that line has more on it, which is all of it then.
def next (s : Scan) (line : String) : Scan :=
  let text := unindented line.toList
  match s.opened with
  | some block =>
    if text = "*/".toList then { closed := s.closed ++ [block ++ [line]] }
    else { s with opened := some (block ++ [line]) }
  | none =>
    if text = "/**".toList then { s with opened := some [line] }
    else if "/**".toList.isPrefixOf text then { s with closed := s.closed ++ [[line]] }
    else s

def run (s : Scan) (lines : Lines) : Scan := lines.foldl next s

end Scan

def docblocks (lines : Lines) : List Lines :=
  let scan := Scan.run {} lines
  scan.closed ++ scan.opened.toList

-- The docblocks among some lines, none of which is open at their end.
structure Encloses (lines : Lines) (blocks : List Lines) : Prop where
  run_eq : Scan.run {} lines = { closed := blocks }

theorem Encloses.docblocks_eq {lines : Lines} {blocks : List Lines} (h : Encloses lines blocks) :
    docblocks lines = blocks := by
  simp [docblocks, h.run_eq]

def indentLine (line : String) : String := if line = "" then "" else "    " ++ line

theorem unindented_indentLine (line : String) : unindented (indentLine line).toList = unindented line.toList := by
  unfold indentLine
  split
  case isTrue h => rw [h]
  case isFalse => simp [unindented]

namespace Scan

variable {s : Scan} {line : String} {lines : Lines} {before : List Lines}

-- What was closed before does not matter.
theorem next_closed : next { s with closed := before ++ s.closed } line =
    { next s line with closed := before ++ (next s line).closed } := by
  obtain ⟨opened, closed⟩ := s
  cases opened with
  | none =>
    simp only [next]
    split
    · rfl
    · split <;> simp
  | some =>
    simp only [next]
    split <;> simp

theorem run_closed : run { s with closed := before ++ s.closed } lines =
    { run s lines with closed := before ++ (run s lines).closed } := by
  induction lines generalizing s with
  | nil => rfl
  | cons line lines ih =>
    rw [run, List.foldl_cons, next_closed]
    exact ih

theorem run_append (s : Scan) (lines lines' : Lines) : run s (lines ++ lines') = run (run s lines) lines' :=
  List.foldl_append

def indented (s : Scan) : Scan where
  opened := s.opened.map indent
  closed := s.closed.map indent

theorem next_indented : next s.indented (indentLine line) = (next s line).indented := by
  have one_more (block : Lines) : indent block ++ [indentLine line] = indent (block ++ [line]) := by
    simp [indent, indentLine]
  obtain ⟨opened, closed⟩ := s
  cases opened with
  | none =>
    simp only [next, indented, unindented_indentLine, Option.map_none]
    split
    · rfl
    · split
      · simp [indent, indentLine]
      · rfl
  | some block =>
    simp only [next, indented, unindented_indentLine, Option.map_some, one_more]
    split <;> simp

theorem run_indented : run s.indented (indent lines) = (run s lines).indented := by
  induction lines generalizing s with
  | nil => rfl
  | cons line lines ih =>
    have first : run s.indented (indent (line :: lines)) = run (next s.indented (indentLine line)) (indent lines) := rfl
    rw [first, next_indented]
    exact ih

end Scan

-- A line that has something on it, and is not from a docblock.
def isCode (line : List Char) : Bool := (unindented line).head?.any (· ≠ '/')

structure IsCode (line : String) : Prop where
  starts : isCode line.toList

namespace IsCode

variable {a b : String} {chars : List Char}

theorem literal (h : isCode chars) : IsCode (String.ofList chars) where
  starts := by rwa [String.toList_ofList]

theorem exists_eq (h : IsCode a) : ∃ c rest, unindented a.toList = c :: rest ∧ c ≠ '/' := by
  have starts := h.starts
  rw [isCode] at starts
  cases text : unindented a.toList with
  | nil => simp [text] at starts
  | cons c rest => exact ⟨c, rest, rfl, by simpa [text] using starts⟩

theorem append (h : IsCode a) : IsCode (a ++ b) where
  starts := by
    obtain ⟨c, rest, text, slash⟩ := h.exists_eq
    rw [String.toList_append, isCode, unindented, List.dropWhile_append, ← unindented, text]
    simpa using slash

end IsCode

namespace Encloses

variable {line first last head : String} {lines lines' body : Lines} {blocks blocks' : List Lines}

theorem nil : Encloses [] [] := ⟨rfl⟩

theorem append (h : Encloses lines blocks) (h' : Encloses lines' blocks') :
    Encloses (lines ++ lines') (blocks ++ blocks') where
  run_eq := by
    have after := @Scan.run_closed {} lines' blocks
    rw [List.append_nil, h'.run_eq] at after
    rw [Scan.run_append, h.run_eq, after]

theorem cons (h : IsCode line) (others : Encloses lines blocks) : Encloses (line :: lines) blocks := by
  have one : Encloses [line] [] := by
    obtain ⟨c, rest, text, slash⟩ := h.exists_eq
    have other : unindented line.toList ≠ "/**".toList := by simp [text, slash]
    have not_opened : ¬ "/**".toList.isPrefixOf (unindented line.toList) := by simp [text, slash.symm]
    exact ⟨(if_neg other).trans (if_neg not_opened)⟩
  exact one.append others

theorem literal {chars : List Char} (h : isCode chars) (others : Encloses lines blocks) :
    Encloses (String.ofList chars :: lines) blocks :=
  .cons (.literal h) others

theorem empty_line (others : Encloses lines blocks) : Encloses ("" :: lines) blocks :=
  have one : Encloses [""] [] := ⟨rfl⟩
  one.append others

theorem code (h : ∀ line ∈ lines, IsCode line) : Encloses lines [] := by
  induction lines with
  | nil => exact nil
  | cons line lines ih =>
    obtain ⟨first, others⟩ := List.forall_mem_cons.mp h
    exact .cons first (ih others)

theorem flatMap {α : Type} {xs : List α} {f : α → Lines} (h : ∀ x ∈ xs, Encloses (f x) []) :
    Encloses (xs.flatMap f) [] := by
  induction xs with
  | nil => exact nil
  | cons x xs ih =>
    obtain ⟨first, others⟩ := List.forall_mem_cons.mp h
    exact first.append (ih others)

theorem indent (h : Encloses lines blocks) : Encloses (Php.indent lines) (blocks.map Php.indent) where
  run_eq := by
    have indented : Scan.run (Scan.indented {}) (Php.indent lines) = _ := Scan.run_indented
    simpa [h.run_eq, Scan.indented] using indented

theorem enclose (hf : IsCode first) (h : Encloses body blocks) (hl : IsCode last) :
    Encloses (Php.enclose first body last) (blocks.map Php.indent) := by
  have last_line : Encloses [last] [] := .cons hl .nil
  simpa [Php.enclose] using Encloses.cons hf (h.indent.append last_line)

theorem braced (hf : IsCode head) (h : Encloses body blocks) :
    Encloses (Php.braced head body) (blocks.map Php.indent) :=
  .cons hf (.enclose (.literal rfl) h (.literal rfl))

theorem clause (hf : IsCode head) (h : Encloses body blocks) :
    Encloses (Php.clause head body) (blocks.map Php.indent) :=
  .enclose hf.append h (.literal rfl)

theorem constructorLines (h : Encloses body []) : Encloses (Php.constructorLines body) [] :=
  (Encloses.enclose (.literal rfl) h (.literal rfl)).append (.literal rfl .nil)

theorem spaced {parts : List Lines} {blocks : List (List Lines)} (h : List.Forall₂ Encloses parts blocks) :
    Encloses (Php.spaced parts) blocks.flatten := by
  have empty : Encloses [""] [] := .empty_line .nil
  induction h with
  | nil => exact nil
  | @cons part _ parts _ first others ih =>
    cases others with
    | nil => simpa [Php.spaced, List.intercalate] using first
    | cons =>
      rw [Php.spaced, List.intercalate_cons_cons]
      simpa [Php.spaced] using (first.append empty).append ih

end Encloses

def commentLine : Option String → String
  | some text => " * " ++ text
  | none => " *"

theorem comment_eq (texts : List (Option String)) :
    comment texts = "/**" :: texts.map commentLine ++ [" */"] := rfl

theorem unindented_commentLine (text : Option String) : unindented (commentLine text).toList ≠ "*/".toList := by
  cases text <;> simp [commentLine, unindented]

theorem Scan.run_comment (block : Lines) (texts : List (Option String)) :
    run { opened := some block } (texts.map commentLine ++ [" */"]) =
      { closed := [block ++ (texts.map commentLine ++ [" */"])] } := by
  induction texts generalizing block with
  | nil => rfl
  | cons text texts ih =>
    have stays : next { opened := some block } (commentLine text) = { opened := some (block ++ [commentLine text]) } :=
      if_neg (unindented_commentLine text)
    have others := ih (block ++ [commentLine text])
    rw [List.append_assoc] at others
    rw [List.map_cons, List.cons_append, run, List.foldl_cons, stays]
    exact others

theorem Encloses.docblock_line {line : String} {rest : List Char}
    (opens : unindented line.toList = '/' :: '*' :: '*' :: ' ' :: rest) : Encloses [line] [[line]] where
  run_eq := by
    have more : unindented line.toList ≠ "/**".toList := by simp [opens]
    have opened : "/**".toList.isPrefixOf (unindented line.toList) := by simp [opens]
    exact (if_neg more).trans (if_pos opened)

theorem Encloses.comment (texts : List (Option String)) : Encloses (Php.comment texts) [Php.comment texts] where
  run_eq := Scan.run_comment ["/**"] texts

-- What follows a comment, read from behind its opening.
def afterComment : List Char → Option (List Char)
  | [] => none
  | c :: rest => if c = '*' ∧ rest.head? = some '/' then some rest.tail else afterComment rest

-- Read as text, a docblock has its end where its last line ends, and its lines are the lines of that text.
structure Sealed (block : Lines) : Prop where
  one_line : ∀ line ∈ block, ∀ c ∈ line.toList, c ≠ '\n' ∧ c ≠ '\r'
  ends : ∃ body, unindented ("\n".intercalate block).toList = '/' :: '*' :: body ∧ afterComment body = some []

theorem afterComment_eq_nil_iff {s : List Char} :
    afterComment (s ++ ['*', '/']) = some [] ↔ Unclosed (s ++ ['*']) := by
  induction s with
  | nil => simp [afterComment, Unclosed]
  | cons c s ih =>
    have same_head : (s ++ ['*', '/']).head? = (s ++ ['*']).head? := by cases s <;> rfl
    rw [List.cons_append, List.cons_append, afterComment, same_head, Unclosed, List.isChain_cons]
    split
    case isTrue h =>
      have not_over : some (s ++ ['*', '/']).tail ≠ some [] := by cases s <;> simp
      refine iff_of_false not_over fun unclosed => unclosed.1 '/' h.2 ⟨h.1, rfl⟩
    case isFalse h =>
      have goes_on : ∀ next ∈ (s ++ ['*']).head?, ¬ (c = '*' ∧ next = '/') := by
        rintro _ hn ⟨rfl, rfl⟩
        exact h ⟨rfl, hn⟩
      rw [ih, and_iff_right goes_on]
      rfl

theorem unclosed_lines_iff {lines : List (List Char)} :
    Unclosed (['\n'].intercalate lines) ↔ ∀ line ∈ lines, Unclosed line := by
  have newline : Unclosed ['\n'] := .singleton _
  induction lines with
  | nil => simp [Unclosed, List.intercalate]
  | cons line lines ih =>
    cases lines with
    | nil => simp [List.intercalate]
    | cons next rest =>
      rw [List.intercalate_cons_cons, unclosed_append_iff (.inl (by simp)),
        unclosed_append_iff (.inr (by simp)), and_iff_left newline, List.forall_mem_cons]
      exact and_congr_right' ih

-- Blanks leave everything open.
theorem unclosed_unindented_iff {s : List Char} : Unclosed (unindented s) ↔ Unclosed s := by
  induction s with
  | nil => rfl
  | cons c s ih =>
    by_cases blank : c = ' '
    case pos =>
      have indented : unindented (c :: s) = unindented s := by simp [unindented, blank]
      rw [indented, ih, Unclosed, Unclosed, List.isChain_cons]
      simp [blank]
    case neg => simp [unindented, blank]

section

variable {lines : Lines} {last : String} {rest : List Char}

theorem intercalate_last (lines : Lines) (last more : String) :
    "\n".intercalate (lines ++ [last ++ more]) = "\n".intercalate (lines ++ [last]) ++ more := by
  cases lines with
  | nil => simp
  | cons line lines =>
    have lines_before (last : String) : "\n".intercalate (line :: lines ++ [last]) =
        "\n".intercalate (line :: lines) ++ "\n" ++ last := by
      rw [String.intercalate_append_of_ne_nil (by simp) (by simp), String.intercalate_singleton]
    simp only [lines_before, String.append_assoc]

theorem unclosed_text_iff : Unclosed ("\n".intercalate (lines ++ [last])).toList ↔
    (∀ line ∈ lines, Unclosed line.toList) ∧ Unclosed last.toList := by
  rw [String.toList_intercalate]
  refine unclosed_lines_iff.trans ?_
  simp [or_imp, forall_and]

-- The docblock that these lines open.
theorem sealed_iff (h : unindented ("\n".intercalate (lines ++ [last])).toList = '/' :: '*' :: '*' :: rest) :
    Sealed (lines ++ [last ++ "*/"]) ↔ (∀ line ∈ lines, Inert line) ∧ Inert (last ++ "*") := by
  have text (more : String) : unindented ("\n".intercalate (lines ++ [last ++ more])).toList =
      '/' :: '*' :: '*' :: (rest ++ more.toList) := by
    rw [intercalate_last, String.toList_append, unindented, List.dropWhile_append, ← unindented, h]
    rfl
  have ends : (∃ body, unindented ("\n".intercalate (lines ++ [last ++ "*/"])).toList = '/' :: '*' :: body ∧
      afterComment body = some []) ↔ (∀ line ∈ lines, Unclosed line.toList) ∧ Unclosed (last ++ "*").toList := by
    calc _ ↔ afterComment ('*' :: rest ++ ['*', '/']) = some [] := by
          simp only [text]
          simp
      _ ↔ Unclosed ('*' :: rest ++ ['*']) := afterComment_eq_nil_iff
      _ ↔ Unclosed (unindented ("\n".intercalate (lines ++ [last ++ "*"])).toList) := by
          rw [text]
          simp [Unclosed]
      _ ↔ _ := unclosed_unindented_iff.trans unclosed_text_iff
  have star : Inert "*" := .literal rfl
  have closing : ∀ c ∈ "*/".toList, c ≠ '\n' ∧ c ≠ '\r' := by simp
  constructor
  · rintro ⟨one_line, closes⟩
    obtain ⟨unclosed, last_unclosed⟩ := ends.mp closes
    simp only [List.forall_mem_append, List.forall_mem_singleton, String.toList_append] at one_line
    refine ⟨fun line hl => ⟨unclosed line hl, one_line.1 line hl⟩, last_unclosed, ?_⟩
    rw [String.toList_append, List.forall_mem_append]
    exact ⟨one_line.2.1, star.one_line⟩
  · rintro ⟨inert, last_inert⟩
    have last_line := last_inert.one_line
    simp only [List.forall_mem_append, String.toList_append] at last_line
    refine ⟨?_, ends.mpr ⟨fun line hl => (inert line hl).unclosed, last_inert.unclosed⟩⟩
    simp only [List.forall_mem_append, List.forall_mem_singleton, String.toList_append]
    exact ⟨fun line hl => (inert line hl).one_line, last_line.1, closing⟩

theorem inert_commentLine_iff {text : Option String} : Inert (commentLine text) ↔ ∀ t ∈ text, Inert t := by
  have star : Inert " *" := .literal rfl
  cases text with
  | none => simpa [commentLine] using star
  | some text =>
    have line : Inert (commentLine (some text)) ↔ Inert text := inert_before_iff rfl
    simp [line]

theorem inert_indentLine_iff {line : String} : Inert (indentLine line) ↔ Inert line := by
  unfold indentLine
  split
  case isTrue h => rw [h]
  case isFalse => exact inert_before_iff rfl

theorem unindented_text {first : String} (h : unindented first.toList = '/' :: '*' :: '*' :: rest) (lines : Lines)
    (last : String) : unindented ("\n".intercalate (first :: lines ++ [last])).toList =
      '/' :: '*' :: '*' :: (rest ++ ("\n" ++ "\n".intercalate (lines ++ [last])).toList) := by
  rw [List.cons_append, String.intercalate_cons_of_ne_nil (by simp), String.append_assoc, String.toList_append,
    unindented, List.dropWhile_append, ← unindented, h]
  rfl

theorem sealed_between_iff {first : String} (opens : unindented first.toList = '/' :: '*' :: '*' :: rest)
    (hf : Inert first) (hl : Inert (last ++ "*")) :
    Sealed (first :: lines ++ [last ++ "*/"]) ↔ ∀ line ∈ lines, Inert line := by
  rw [sealed_iff (unindented_text opens lines last), and_iff_left hl, List.forall_mem_cons, and_iff_right hf]

theorem inert_commentLines_iff {texts : List (Option String)} :
    (∀ line ∈ texts.map commentLine, Inert line) ↔ ∀ text, some text ∈ texts → Inert text := by
  simp only [List.forall_mem_map, inert_commentLine_iff, Option.mem_def]
  exact ⟨fun h text ht => h _ ht text rfl, fun h _ ht text same => h text (same ▸ ht)⟩

theorem sealed_comment_iff {texts : List (Option String)} :
    Sealed (comment texts) ↔ ∀ text, some text ∈ texts → Inert text := by
  have opens : unindented "/**".toList = ['/', '*', '*'] := by decide
  have between : Sealed ("/**" :: texts.map commentLine ++ [" " ++ "*/"]) ↔ _ :=
    sealed_between_iff opens (.literal rfl) ((inert_before_iff rfl).mpr (.literal rfl))
  exact between.trans inert_commentLines_iff

theorem sealed_indent_comment_iff {texts : List (Option String)} :
    Sealed (indent (comment texts)) ↔ ∀ text, some text ∈ texts → Inert text := by
  have opens : unindented "    /**".toList = ['/', '*', '*'] := by decide
  have indented : indent (comment texts) =
      "    /**" :: (texts.map commentLine).map indentLine ++ ["     " ++ "*/"] := by
    simp [indent, comment_eq, indentLine]
  have last : Inert ("     " ++ "*") := (inert_before_iff rfl).mpr (.literal rfl)
  rw [indented, sealed_between_iff opens (.literal rfl) last, List.forall_mem_map]
  simp only [inert_indentLine_iff]
  exact inert_commentLines_iff

-- A docblock on one line.
theorem sealed_indent_line_iff (opens : unindented last.toList = '/' :: '*' :: '*' :: rest) :
    Sealed (indent [last ++ "*/"]) ↔ Inert (last ++ "*") := by
  have indented : indent [last ++ "*/"] = [] ++ ["    " ++ last ++ "*/"] := by
    simp [indent, String.append_assoc]
  have opens : unindented ("\n".intercalate ([] ++ ["    " ++ last])).toList = '/' :: '*' :: '*' :: rest := by
    simpa [unindented] using opens
  rw [indented, sealed_iff opens, and_iff_right (by simp), String.append_assoc]
  exact inert_before_iff rfl

end

-- What it takes for the docblocks among some lines to be sealed, be these lines indented or not.
structure SealedIff (lines : Lines) (condition : Prop) : Prop where
  blocks : ∃ blocks, Encloses lines blocks ∧ ((∀ block ∈ blocks, Sealed block) ↔ condition) ∧
    ((∀ block ∈ blocks, Sealed (indent block)) ↔ condition)

namespace SealedIff

variable {lines lines' : Lines} {p q : Prop}

theorem code (h : Encloses lines []) : SealedIff lines True where
  blocks := ⟨[], h, by simp⟩

theorem congr (h : SealedIff lines p) (same : p ↔ q) : SealedIff lines q where
  blocks :=
    have ⟨blocks, encloses, plain, indented⟩ := h.blocks
    ⟨blocks, encloses, plain.trans same, indented.trans same⟩

theorem append (h : SealedIff lines p) (h' : SealedIff lines' q) : SealedIff (lines ++ lines') (p ∧ q) := by
  obtain ⟨blocks, encloses, plain, indented⟩ := h.blocks
  obtain ⟨blocks', encloses', plain', indented'⟩ := h'.blocks
  refine ⟨blocks ++ blocks', encloses.append encloses', ?_, ?_⟩
  · rw [List.forall_mem_append, plain, plain']
  · rw [List.forall_mem_append, indented, indented']

theorem append_code (h : SealedIff lines p) (h' : Encloses lines' []) : SealedIff (lines ++ lines') p :=
  (h.append (code h')).congr (by rw [and_true])

theorem code_append (h : Encloses lines []) (h' : SealedIff lines' p) : SealedIff (lines ++ lines') p :=
  ((code h).append h').congr (by rw [true_and])

theorem comment (texts : List (Option String)) :
    SealedIff (Php.comment texts) (∀ text, some text ∈ texts → Inert text) := by
  refine ⟨[Php.comment texts], .comment texts, ?_, ?_⟩
  · rw [List.forall_mem_singleton, sealed_comment_iff]
  · rw [List.forall_mem_singleton, sealed_indent_comment_iff]

theorem comment_map {texts : List String} :
    SealedIff (Php.comment (texts.map some)) (∀ text ∈ texts, Inert text) :=
  (comment _).congr (by simp)

theorem comment_one {text : String} : SealedIff (Php.comment [some text]) (Inert text) :=
  (comment _).congr (by simp)

theorem comment_fixed {chars : List Char} (h : isInert chars) :
    SealedIff (Php.comment [some (String.ofList chars)]) True :=
  comment_one.congr (iff_true_intro (.literal h))

-- A docblock on one line.
theorem line (text : String) : SealedIff ["/** " ++ text ++ " */"] (Inert text) := by
  have opens : unindented ("/** " ++ text ++ " ").toList = '/' :: '*' :: '*' :: ' ' :: (text ++ " ").toList := by
    simp [unindented]
  have whole : unindented ("/** " ++ text ++ " */").toList = '/' :: '*' :: '*' :: ' ' :: (text ++ " */").toList := by
    simp [unindented]
  have inert : Inert ("/** " ++ text ++ " " ++ "*") ↔ Inert text :=
    (inert_after_iff rfl).trans (inert_between_iff rfl rfl)
  have last : "/** " ++ text ++ " */" = "/** " ++ text ++ " " ++ "*/" := by
    simp [← String.toList_inj]
  refine ⟨[["/** " ++ text ++ " */"]], .docblock_line whole, ?_, ?_⟩
  · have plain : Sealed ([] ++ ["/** " ++ text ++ " " ++ "*/"]) ↔ _ := sealed_iff (by simpa using opens)
    rw [List.forall_mem_singleton, last]
    simpa [inert] using plain
  · rw [List.forall_mem_singleton, last, sealed_indent_line_iff opens, inert]

theorem line_fixed {line text : String} (same : line = "/** " ++ text ++ " */") (h : Inert text) :
    SealedIff [line] True :=
  same ▸ (SealedIff.line text).congr (iff_true_intro h)

theorem spaced {parts : List Lines} {conditions : List Prop} (h : List.Forall₂ SealedIff parts conditions) :
    SealedIff (Php.spaced parts) (∀ condition ∈ conditions, condition) := by
  have empty : SealedIff [""] True := .code (.empty_line .nil)
  induction h with
  | nil => exact (code .nil).congr (by simp)
  | @cons part _ parts _ first others ih =>
    cases others with
    | nil =>
      rw [List.forall_mem_singleton]
      simpa [Php.spaced, List.intercalate] using first
    | cons =>
      rw [Php.spaced, List.intercalate_cons_cons]
      exact ((first.append empty).append ih).congr (by simp only [List.forall_mem_cons, and_true])

theorem forall₂_safe {parts : List Lines} (h : ∀ part ∈ parts, SealedIff part True) :
    List.Forall₂ SealedIff parts (parts.map fun _ => True) := by
  simpa only [List.forall₂_map_right_iff, List.forall₂_same] using h

theorem spaced_safe {parts : List Lines} (h : ∀ part ∈ parts, SealedIff part True) :
    SealedIff (Php.spaced parts) True :=
  (spaced (forall₂_safe h)).congr (by simp)

-- One part decides, where the others are safe.
theorem spaced_one {before after : List Lines} (hb : ∀ part ∈ before, SealedIff part True) (h : SealedIff lines p)
    (ha : ∀ part ∈ after, SealedIff part True) : SealedIff (Php.spaced (before ++ lines :: after)) p := by
  refine (spaced (List.rel_append (forall₂_safe hb) (.cons h (forall₂_safe ha)))).congr ?_
  rw [List.forall_mem_append, List.forall_mem_cons, List.forall_mem_map, List.forall_mem_map]
  simp

end SealedIff

end OpenApiClient.Php
