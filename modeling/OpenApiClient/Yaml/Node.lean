import OpenApiClient.Yaml.Token

/-!
The tree that a YAML text denotes, made from its tokens. Aliases stay in the tree; each stands for
the node that its anchor marks.
-/

namespace OpenApiClient.Yaml

inductive Node where
  | scalar (style : ScalarStyle) (tag : Option Tag) (text : String)
  | list (tag : Option Tag) (items : List Node)
  | map (tag : Option Tag) (entries : List (Node × Node))
  | alias (anchor : Nat)
  deriving Inhabited

-- A node that is not written down.
def Node.empty : Node := .scalar .plain none ""

-- The anchors seen so far. A name gets the number of the names known before it, and the last node
-- with a number is the one that counts.
structure Anchors where
  numbers : List (String × Nat)
  marked : Nat
  nodes : List (Nat × Nat × Node)

namespace Anchors

def none : Anchors := ⟨[], 0, []⟩

-- Gives a name its number; the second result tells the marks apart.
def declare (a : Anchors) (name : String) : Nat × Nat × Anchors :=
  let number := (a.numbers.map (·.1)).eraseDups.length
  (number, a.marked, { a with numbers := (name, number) :: a.numbers, marked := a.marked + 1 })

def number? (a : Anchors) (name : String) : Option Nat := a.numbers.lookup name

def node? (a : Anchors) (number : Nat) : Option Node :=
  let candidates := a.nodes.filter (·.1 == number)
  (candidates.find? fun (_, mark, _) => candidates.all (·.2.1 ≤ mark)).map (·.2.2)

end Anchors

-- What is left to read, and what has been declared.
structure NodeReader where
  tokens : List Token
  tagHandles : List (String × Tag)
  anchors : Anchors

abbrev ReadNode (α : Type) := StateT NodeReader Option α

namespace ReadNode

def peek : ReadNode (Option Token) := do return (← get).tokens.head?

def advance : ReadNode Unit := modify fun r => { r with tokens := r.tokens.tail }

-- Takes the next token if it is the given one.
def accept (t : Token) : ReadNode Bool := do
  if (← peek) = some t then
    advance
    return true
  else return false

def expect (t : Token) : ReadNode Unit := do
  if !(← accept t) then failure

-- Whether one of these comes next.
def nextIs (ts : List Token) : ReadNode Bool := do
  return (← peek).any ts.contains

-- A tag in full: what its handle stands for, and its suffix.
def resolveTag (handle : String) (suffix : Tag) : ReadNode Tag := do
  if handle = "" then return suffix
  match (← get).tagHandles.lookup handle with
  | some meaning => return meaning ++ suffix
  | none => failure

-- An anchor and a tag in front of a node, in either order.
def properties : ReadNode (Option String × Option Tag) := do
  let anchor? : ReadNode (Option String) := do
    match ← peek with
    | some (.anchor name) => advance; return some name
    | _ => return none
  let tag? : ReadNode (Option Tag) := do
    match ← peek with
    | some (.tag handle suffix) => advance; return some (← resolveTag handle suffix)
    | _ => return none
  match ← anchor? with
  | some name => return (some name, ← tag?)
  | none =>
    match ← tag? with
    | some tag => return (← anchor?, some tag)
    | none => return (none, none)

-- Marks the node that `read` reads.
def marking (anchor : Option String) (read : ReadNode Node) : ReadNode Node := do
  match anchor with
  | none => read
  | some name =>
    let (number, mark, anchors) := (← get).anchors.declare name
    modify ({ · with anchors })
    let node ← read
    modify fun r =>
      { r with anchors := { r.anchors with nodes := (number, mark, node) :: r.anchors.nodes } }
    return node

mutual

-- A node. Only outside flow collections it may be a block, and only under a key may the dashes
-- of a list stand as far out as the key.
def node (inBlock underKey : Bool) : Nat → ReadNode Node
  | 0 => failure
  | fuel + 1 => do
    match ← peek with
    | some (.alias name) =>
      advance
      match (← get).anchors.number? name with
      | some number => return .alias number
      | none => failure
    | _ =>
      let (anchor, tag) ← properties
      marking anchor do
        match ← peek with
        | some .blockEntry =>
          if underKey then return .list tag (← flushList fuel)
          else if anchor.isSome || tag.isSome then return .scalar .plain tag ""
          else failure
        | some (.scalar style text) => advance; return .scalar style tag text
        | some .flowListStart => advance; return .list tag (← flowList true fuel)
        | some .flowMapStart => advance; return .map tag (← flowMap true fuel)
        | token =>
          if inBlock && token = some .blockListStart then
            advance
            return .list tag (← blockList fuel)
          else if inBlock && token = some .blockMapStart then
            advance
            return .map tag (← blockMap fuel)
          else if anchor.isSome || tag.isSome then return .scalar .plain tag ""
          else failure

-- The items of a list in a block of its own, up to the end of the block.
def blockList : Nat → ReadNode (List Node)
  | 0 => failure
  | fuel + 1 => do
    if ← accept .blockEntry then
      let item ← if ← nextIs [.blockEntry, .blockEnd] then pure .empty else node true false fuel
      return item :: (← blockList fuel)
    else
      expect .blockEnd
      return []

-- The items of a list whose dashes stand as far out as the key; anything else ends it.
def flushList : Nat → ReadNode (List Node)
  | 0 => failure
  | fuel + 1 => do
    if ← accept .blockEntry then
      let item ← if ← nextIs [.blockEntry, .key, .value, .blockEnd] then pure .empty
        else node true false fuel
      return item :: (← flushList fuel)
    else return []

-- The entries of a map in a block, up to the end of the block.
def blockMap : Nat → ReadNode (List (Node × Node))
  | 0 => failure
  | fuel + 1 => do
    if ← accept .key then
      let key ← if ← nextIs [.key, .value, .blockEnd] then pure .empty else node true true fuel
      let value ← if ← accept .value then
          if ← nextIs [.key, .value, .blockEnd] then pure .empty else node true true fuel
        else pure .empty
      return (key, value) :: (← blockMap fuel)
    else
      expect .blockEnd
      return []

-- The items of a list in brackets, up to the closing one. An item with a colon in it is a map
-- with one entry.
def flowList (first : Bool) : Nat → ReadNode (List Node)
  | 0 => failure
  | fuel + 1 => do
    if ← accept .flowListEnd then return []
    if !first then expect .flowEntry
    if ← accept .flowListEnd then return []
    let item ← if ← accept .key then flowPair fuel else node false false fuel
    return item :: (← flowList false fuel)

-- The map with one entry, after the mark of its key.
def flowPair : Nat → ReadNode Node
  | 0 => failure
  | fuel + 1 => do
    let key ← if ← nextIs [.value, .flowEntry, .flowListEnd] then
        advance
        pure .empty
      else node false false fuel
    let value ← if ← accept .value then
        if ← nextIs [.flowEntry, .flowListEnd] then pure .empty else node false false fuel
      else pure .empty
    return .map none [(key, value)]

-- The entries of a map in braces, up to the closing one.
def flowMap (first : Bool) : Nat → ReadNode (List (Node × Node))
  | 0 => failure
  | fuel + 1 => do
    if ← accept .flowMapEnd then return []
    if !first then expect .flowEntry
    if ← accept .flowMapEnd then return []
    let entry ← if ← accept .key then
        let key ← if ← nextIs [.value, .flowEntry, .flowMapEnd] then pure .empty
          else node false false fuel
        let value ← if ← accept .value then
            if ← nextIs [.flowEntry, .flowMapEnd] then pure .empty else node false false fuel
          else pure .empty
        pure (key, value)
      else do
        let key ← node false false fuel
        pure (key, .empty)
    return entry :: (← flowMap false fuel)

end

-- The directives before a document: the version once, each handle once.
def directives (versionSeen : Bool) : Nat → ReadNode Unit
  | 0 => failure
  | fuel + 1 => do
    match ← peek with
    | some .version =>
      if versionSeen then failure
      advance
      directives true fuel
    | some (.tagHandle handle meaning) =>
      let handles := (← get).tagHandles
      if (handles.lookup handle).isSome then failure
      advance
      modify ({ · with tagHandles := (handle, meaning) :: handles })
      directives versionSeen fuel
    | _ => return

-- The handles that need no declaration; a declaration of the same handle wins.
def defaultHandles : List (String × Tag) := [("!", .mark), ("!!", .standard "")]

-- A text of one document: directives and `---` may be in front, `...` behind. An empty text
-- holds an empty node.
def document (fuel : Nat) : ReadNode Node := do
  if (← peek).isNone then return .empty
  let explicit := match ← peek with
    | some .version | some (.tagHandle ..) | some .documentStart => true
    | _ => false
  if explicit then
    directives false fuel
    expect .documentStart
  modify fun r => { r with tagHandles := r.tagHandles ++ defaultHandles }
  let isEmpty := match ← peek with
    | none | some .documentEnd | some .documentStart | some .version | some (.tagHandle ..) => true
    | _ => false
  let root ← if explicit && isEmpty then pure .empty else node true false fuel
  modify fun r => { r with tokens := r.tokens.dropWhile (· == .documentEnd) }
  if (← peek).isSome then failure
  return root

end ReadNode

-- The tree of a text and its anchors; `none` if the text is no YAML document.
def tree? (text : String) : Option (Node × Anchors) := do
  let tokens ← tokens? text.toList
  let (root, r) ← ReadNode.document (2 * tokens.length + 2) ⟨tokens, [], .none⟩
  pure (root, r.anchors)

end OpenApiClient.Yaml
