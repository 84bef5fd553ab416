import OpenApiClient.Text.Alphanumeric
import OpenApiClient.Text.LetterCase
import OpenApiClient.Text.Pieces

/-!
The words that a name is made of, and the ways to write a name from its words: `PascalCase`,
`camelCase`, `snake_case`, `SCREAMING_CASE` and `kebab-case`.
-/

namespace OpenApiClient.Text

-- The letter case that a word has shown so far.
inductive WordCase where
  | unknown
  | lower
  | upper
  deriving DecidableEq

-- The case after `c`: a character without case leaves it as it was.
def WordCase.after (seen : WordCase) (c : Char) : WordCase :=
  if isLower c then .lower else if isUpper c then .upper else seen

-- Cuts a run of letters and digits into words. A word ends between lower case and upper case,
-- and before the last capital of several that is followed by lower case. `word` holds what the
-- current word has so far, last character first.
def cutWords (word : List Char) (seen : WordCase) : List Char → List (List Char)
  | [] => if word.isEmpty then [] else [word.reverse]
  | [c] => [(c :: word).reverse]
  | c :: next :: rest =>
    if seen.after c = .lower ∧ isUpper next then
      (c :: word).reverse :: cutWords [] .unknown (next :: rest)
    else if seen = .upper ∧ isUpper c ∧ isLower next then
      word.reverse :: cutWords [c] .unknown (next :: rest)
    else
      cutWords (c :: word) (seen.after c) (next :: rest)

-- The words of a name: anything but letters and digits separates them, and so does a change of
-- case.
def words (s : List Char) : List (List Char) :=
  (pieces (!isAlphanumeric ·) s).flatMap (cutWords [] .unknown)

-- A sigma that ends a word has a lower-case form of its own.
def lowercase : List Char → List Char
  | [] => []
  | ['Σ'] => ['ς']
  | c :: rest => lowerChar c ++ lowercase rest

def uppercase (s : List Char) : List Char :=
  s.flatMap upperChar

-- The first character in upper case, the rest as it is.
def upperFirst : List Char → List Char
  | [] => []
  | c :: rest => upperChar c ++ rest

-- The first character in upper case, the rest in lower case.
def titlecase : List Char → List Char
  | [] => []
  | c :: rest => upperChar c ++ lowercase rest

def pascalCase (s : List Char) : List Char :=
  (words s).flatMap titlecase

def camelCase (s : List Char) : List Char :=
  match words s with
  | [] => []
  | first :: others => lowercase first ++ others.flatMap titlecase

def snakeCase (s : List Char) : List Char :=
  List.intercalate ['_'] ((words s).map lowercase)

def screamingCase (s : List Char) : List Char :=
  List.intercalate ['_'] ((words s).map uppercase)

def kebabCase (s : List Char) : List Char :=
  List.intercalate ['-'] ((words s).map lowercase)

theorem flatten_cutWords (word : List Char) (seen : WordCase) (s : List Char) :
    (cutWords word seen s).flatten = word.reverse ++ s := by
  induction s generalizing word seen with
  | nil => unfold cutWords; cases word <;> simp
  | cons c rest ih =>
    cases rest with
    | nil => simp [cutWords]
    | cons next rest =>
      unfold cutWords
      split
      · simp [ih]
      · split <;> simp [ih]

-- Words lose only what separates them.
theorem flatten_words (s : List Char) : (words s).flatten = s.filter isAlphanumeric := by
  have cut (l : List (List Char)) : (l.flatMap (cutWords [] .unknown)).flatten = l.flatten := by
    induction l with
    | nil => rfl
    | cons piece others ih => simp [ih, flatten_cutWords]
  rw [words, cut, flatten_pieces]
  simp

end OpenApiClient.Text
