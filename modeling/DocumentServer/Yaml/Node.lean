import DocumentServer.Yaml.Layout

namespace DocumentServer.Yaml

structure Mark where
  anchor : Option Nat := none
  tag : Option String := none

inductive Node where
  | scalar (mark : Mark) (text : String) (style : Style)
  | sequence (mark : Mark) (items : List Node)
  | mapping (mark : Mark) (entries : List (Node × Node))
  | reference (anchor : Nat)

namespace Node

def empty : Node := scalar {} "" .plain

mutual

def anchored (anchor : Nat) : Node → List Node
  | scalar m text style => if m.anchor = some anchor then [scalar m text style] else []
  | sequence m items =>
    (if m.anchor = some anchor then [sequence m items] else []) ++ anchoredItems anchor items
  | mapping m entries =>
    (if m.anchor = some anchor then [mapping m entries] else []) ++ anchoredEntries anchor entries
  | reference _ => []

def anchoredItems (anchor : Nat) : List Node → List Node
  | [] => []
  | n :: ns => anchored anchor n ++ anchoredItems anchor ns

def anchoredEntries (anchor : Nat) : List (Node × Node) → List Node
  | [] => []
  | (k, v) :: es => anchored anchor k ++ anchored anchor v ++ anchoredEntries anchor es

end

end Node

structure Reading where
  tokens : List Token
  /-- The numbers of the anchors so far. -/
  anchors : List (String × Nat) := []
  /-- How the tags behind each handle start. -/
  handles : List (String × String) := []

abbrev Reader : Type → Type := StateT Reading Option

namespace Reader

def peek : Reader (Option Token) := do return (← get).tokens.head?

def skip : Reader Unit := modify fun r => { r with tokens := r.tokens.tail }

def accept (t : Token) : Reader Bool := do
  if (← peek) = some t then
    skip
    return true
  else return false

def expect (t : Token) : Reader Unit := do
  if !(← accept t) then failure

def sees (ts : List Token) : Reader Bool := do return (← peek).any ts.contains

/-- The number of a new anchor. An anchor with the name of an older one takes its place, and the
next one has the same number. -/
def newAnchor (name : String) : Reader Nat := do
  let r ← get
  let n := r.anchors.length
  set { r with anchors := (name, n) :: r.anchors.filter fun a => a.1 ≠ name }
  return n

def anchor? : Reader (Option Nat) := do
  match ← peek with
  | some (.anchor name) =>
    skip
    return some (← newAnchor name)
  | _ => return none

def tag? : Reader (Option String) := do
  match ← peek with
  | some (.tag "" suffix) =>
    skip
    return some suffix
  | some (.tag handle suffix) =>
    skip
    match (← get).handles.lookup handle with
    | some start => return some (start ++ suffix)
    | none => failure
  | _ => return none

def mark : Reader Mark := do
  let before ← anchor?
  let tag ← tag?
  let after ← if before.isNone && tag.isSome then anchor? else pure none
  return ⟨before.or after, tag⟩

mutual

/-- A node. Collections written by indentation stand only outside brackets, and items without an
indentation of their own only as values of a block mapping. -/
def node : Nat → (inBlock asValue : Bool) → Reader Node
  | 0, _, _ => failure
  | n + 1, inBlock, asValue => do
    match ← peek with
    | some (.reference name) =>
      skip
      match (← get).anchors.lookup name with
      | some anchor => return .reference anchor
      | none => failure
    | _ =>
      let m ← mark
      match ← peek with
      | some .item =>
        if asValue then return .sequence m (← items n false)
        else if m.anchor.isSome || m.tag.isSome then return .scalar m "" .plain
        else failure
      | some (.scalar text style) =>
        skip
        return .scalar m text style
      | some .openSequence =>
        skip
        return .sequence m (← bracketItems n true)
      | some .openMapping =>
        skip
        return .mapping m (← bracketEntries n true)
      | some .blockSequence =>
        if inBlock then
          skip
          return .sequence m (← items n true)
        else if m.anchor.isSome || m.tag.isSome then return .scalar m "" .plain
        else failure
      | some .blockMapping =>
        if inBlock then
          skip
          return .mapping m (← entries n)
        else if m.anchor.isSome || m.tag.isSome then return .scalar m "" .plain
        else failure
      | _ =>
        if m.anchor.isSome || m.tag.isSome then return .scalar m "" .plain
        else failure

def nodeBefore : Nat → (ends : List Token) → (inBlock asValue : Bool) → Reader Node
  | 0, _, _, _ => failure
  | n + 1, ends, inBlock, asValue => do
    if ← sees ends then return .empty else node n inBlock asValue

def items : Nat → (isIndented : Bool) → Reader (List Node)
  | 0, _ => failure
  | n + 1, isIndented => do
    if ← accept .item then
      let ends := if isIndented then [.item, .blockEnd] else [.item, .key, .value, .blockEnd]
      let v ← nodeBefore n ends true false
      return v :: (← items n isIndented)
    else
      if isIndented then expect .blockEnd
      return []

def entries : Nat → Reader (List (Node × Node))
  | 0 => failure
  | n + 1 => do
    if ← accept .blockEnd then return []
    else
      expect .key
      let k ← nodeBefore n [.key, .value, .blockEnd] true true
      let v ←
        if ← accept .value then nodeBefore n [.key, .value, .blockEnd] true true
        else pure .empty
      return (k, v) :: (← entries n)

/-- The items of a sequence in brackets. A pair among them is a mapping with one entry. -/
def bracketItems : Nat → (isFirst : Bool) → Reader (List Node)
  | 0, _ => failure
  | n + 1, isFirst => do
    if ← accept .closeSequence then return []
    if !isFirst then expect .comma
    if ← accept .closeSequence then return []
    let v ←
      if ← accept .key then
        let k ←
          if ← sees [.value, .comma, .closeSequence] then
            skip
            pure .empty
          else node n false false
        let v ←
          if ← accept .value then nodeBefore n [.comma, .closeSequence] false false
          else pure .empty
        pure (.mapping {} [(k, v)])
      else node n false false
    return v :: (← bracketItems n false)

def bracketEntries : Nat → (isFirst : Bool) → Reader (List (Node × Node))
  | 0, _ => failure
  | n + 1, isFirst => do
    if ← accept .closeMapping then return []
    if !isFirst then expect .comma
    if ← accept .closeMapping then return []
    let e ←
      if ← accept .key then
        let k ← nodeBefore n [.value, .comma, .closeMapping] false false
        let v ←
          if ← accept .value then nodeBefore n [.comma, .closeMapping] false false
          else pure .empty
        pure (k, v)
      else
        let k ← node n false false
        pure (k, .empty)
    return e :: (← bracketEntries n false)

end

/-- The directives of a document: at most one version, which has to be known, and no handle twice.
Two handles are there without a directive. -/
def directives : Nat → (hasVersion : Bool) → Reader Unit
  | 0, _ => failure
  | n + 1, hasVersion => do
    match ← peek with
    | some (.version major minor) =>
      if hasVersion || major ≠ 1 || (minor ≠ 1 && minor ≠ 2) then failure
      skip
      directives n true
    | some (.handle name start) =>
      if ((← get).handles.lookup name).isSome then failure
      skip
      modify fun r => { r with handles := (name, start) :: r.handles }
      directives n hasVersion
    | _ =>
      modify fun r =>
        { r with handles := r.handles ++ [("!", "!"), ("!!", "tag:yaml.org,2002:")] }

def document : Reader Node := do
  let size := (← get).tokens.length + 1
  let root ← match ← peek with
    | none => pure .empty
    | some t =>
      directives size false
      match t with
      | .version _ _ | .handle _ _ | .documentStart =>
        expect .documentStart
        match ← peek with
        | none | some .documentStart | some .documentEnd | some (.version _ _)
        | some (.handle _ _) => pure .empty
        | _ => node (4 * size) true false
      | _ => node (4 * size) true false
  if (← get).tokens.all (· = .documentEnd) then return root else failure

end Reader

def parse (s : String) : Option Node := do
  let (root, _) ← Reader.document.run { tokens := ← tokens s }
  return root

end DocumentServer.Yaml
