import OpenApiClient.Document.Reader
import OpenApiClient.Yaml.Node

/-!
Reading YAML text as a source. A plain scalar without a tag is null, a truth value, a number or a
text by its spelling; a scalar in quotes or in a block is a text.
-/

namespace OpenApiClient.Yaml

/-! ### The types of plain scalars -/

def isNullWord (s : List Char) : Bool :=
  ["null", "Null", "NULL", "~"].any (·.toList == s)

def bool? (s : List Char) : Option Bool :=
  if ["true", "True", "TRUE"].any (·.toList == s) then some true
  else if ["false", "False", "FALSE"].any (·.toList == s) then some false
  else none

-- A number in a base of at most 16: digits and nothing else, one at least.
def digitsIn? (base : Nat) (s : List Char) : Option Nat :=
  if s.isEmpty then none
  else s.foldlM (fun n c => do
    let d ← Json.Reader.hexValue? c
    if d < base then pure (base * n + d) else none) 0

-- A magnitude: in base 16, 8 or 2 after `0x`, `0o` or `0b`, otherwise decimal.
def magnitude? (s : List Char) : Option Nat :=
  match s with
  | '0' :: 'x' :: rest => digitsIn? 16 rest
  | '0' :: 'o' :: rest => digitsIn? 8 rest
  | '0' :: 'b' :: rest => digitsIn? 2 rest
  | s => digitsIn? 10 s

-- A number with leading zeros is a text.
def hasLeadingZero (s : List Char) : Bool :=
  match s with
  | '0' :: rest => !rest.isEmpty && rest.all Char.isDigit
  | _ => false

def splitSign (s : List Char) : Bool × List Char :=
  match s with
  | '-' :: rest => (true, rest)
  | '+' :: rest => (false, rest)
  | s => (false, s)

-- An integer with a sign or without one.
def int? (s : List Char) : Option Int := do
  let (negative, digits) := splitSign s
  if hasLeadingZero digits then none
  let n ← magnitude? digits
  pure (if negative then -(n : Int) else n)

-- A decimal fraction: digits with at most one point among them, and an exponent if there is an
-- `e`.
def decimal? (s : List Char) : Option (Nat × Int) := do
  let (whole, rest) := s.span Char.isDigit
  let (fraction, rest) := match rest with
    | '.' :: rest => rest.span Char.isDigit
    | rest => ([], rest)
  if whole.isEmpty && fraction.isEmpty then none
  let (exponent, rest) ← Json.Reader.readExponent rest
  if !rest.isEmpty then none
  let e : Int := match exponent with
    | none => 0
    | some (negative, digits) =>
      if negative then -(Text.natOfDigits digits : Int) else Text.natOfDigits digits
  pure (Text.natOfDigits (whole ++ fraction), e - fraction.length)

-- A floating-point number. The words for infinity and for no number denote nothing finite.
def float? (s : List Char) : Option Atom := do
  let (negative, digits) := splitSign s
  let isWord (words : List String) (s : List Char) := words.any (·.toList == s)
  if isWord [".inf", ".Inf", ".INF"] digits || isWord [".nan", ".NaN", ".NAN"] s then
    return .notFinite
  let (n, e) ← decimal? digits
  let x ← Binary64.ofDecimal n e
  pure (.number (.float (if negative then x.neg else x)))

-- An integer that 64 bits hold is a number; one that they do not is an error rather than a text,
-- up to the range of 128 bits.
def intAtom? (n : Int) : Option (Option Atom) :=
  if -Nat.pow 2 63 ≤ n ∧ n < Nat.pow 2 64 then some (some (.number (.int n)))
  else if -Nat.pow 2 127 ≤ n ∧ n < Nat.pow 2 128 then some none
  else none

-- The value of a plain scalar without a tag.
def plainAtom? (s : List Char) : Option Atom :=
  if s.isEmpty || isNullWord s then some .null
  else
    match bool? s with
    | some b => some (.bool b)
    | none =>
      match (int? s).bind intAtom? with
      | some atom => atom
      | none =>
        let float := if hasLeadingZero (splitSign s).2 then none else float? s
        some (float.getD (.string (String.ofList s)))

/-! ### Tags -/

-- The value of a scalar. A standard tag sets its type, a local one leaves it without a value. Any
-- other tag makes it a text, unless it starts with an exclamation mark: then it counts for nothing.
def atom? (style : ScalarStyle) (tag : Option Tag) (text : String) : Option Atom :=
  let s := text.toList
  let untagged := if style = .plain then plainAtom? s else some (.string text)
  match tag with
  | none => untagged
  | some tag =>
    if tag.isLocal then none
    else if tag.startsWithMark then untagged
    else if tag = .standard "bool" then (bool? s).map .bool
    else if tag = .standard "int" then ((int? s).bind intAtom?).join
    else if tag = .standard "float" then float? s
    else if tag = .standard "null" then (if isNullWord s then some .null else none)
    else some (.string text)

-- The readings of a scalar. What is written with a minus sign is no position, not even zero.
def scalarOf (style : ScalarStyle) (tag : Option Tag) (text : String) : Scalar :=
  let s := text.toList
  let value := atom? style tag text
  let isPlain : Bool := style == .plain
  { text := some text
    flag :=
      if isPlain || (style == .literal && tag == some (.standard "bool")) then bool? s else none
    absent :=
      if !isPlain then some false
      else match tag with
        | none => some (s.isEmpty || isNullWord s)
        | some tag =>
          if tag ≠ .standard "null" then some false
          else if isNullWord s then some true else none
    blank := isPlain && s.isEmpty
    atom := value
    position := if s.head? = some '-' then none else value.bind Atom.natural? }

/-! ### Trees as sources -/

-- The most levels of lists and maps, those behind aliases included.
def maxLevels : Nat := 128

mutual

-- The number of places in a tree, the ends of lists and maps included.
def Node.size : Node → Nat
  | .scalar .. => 1
  | .alias _ => 1
  | .list _ items => sizeItems items + 2
  | .map _ entries => sizeEntries entries + 2

def sizeItems : List Node → Nat
  | [] => 0
  | n :: rest => n.size + sizeItems rest

def sizeEntries : List (Node × Node) → Nat
  | [] => 0
  | (k, v) :: rest => k.size + v.size + sizeEntries rest

end

-- How many aliases may still be followed.
abbrev Following := StateT Nat Option

-- The node that an alias stands for, as long as aliases may be followed.
def follow (anchors : Anchors) : Node → Following Node
  | .alias number => do
    let left ← get
    if left = 0 then failure
    set (left - 1)
    liftM (anchors.node? number)
  | node => return node

-- A list or map with a local tag has no value.
def taggedSource (tag : Option Tag) (s : Source) : Source :=
  if tag.any (·.isLocal) then .tagged s else s

-- The source that a tree stands for, with the nodes in place of their aliases, as far as a reader
-- looks at it.
def toSource (anchors : Anchors) : Nat → Option Outline → Node → Following Source
  | _, none, _ => return .unreadable
  | levels, some outline, node => do
    match levels, ← follow anchors node with
    | _, .scalar style tag text => return .leaf (scalarOf style tag text)
    | levels + 1, .list tag items =>
      let items ← items.mapM (toSource anchors levels outline.item?)
      return taggedSource tag (.list false items)
    | levels + 1, .map tag entries =>
      let entries ← entries.mapM fun (k, v) => do
        let key ← toSource anchors levels (some outline.key) k
        return (key, ← toSource anchors levels (outline.value? key) v)
      return taggedSource tag (.map entries)
    | _, _ => failure

-- The source that a YAML text denotes, as far as a reader looks at it; `none` if the text is no
-- YAML document. Aliases may be followed a hundred times as often as the text has places.
def read? (outline : Outline) (text : String) : Option Source := do
  let (root, anchors) ← tree? text
  (toSource anchors maxLevels (some outline) root).run' (100 * root.size)

end OpenApiClient.Yaml

namespace OpenApiClient.Document

def ofYaml (text : String) : Except ReadError Document := ofSource .yaml (Yaml.read? outline text)

end OpenApiClient.Document
