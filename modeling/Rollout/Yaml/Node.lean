/-
  Nodes: the tree of a YAML document, before its scalars and its aliases are resolved.

  The documents of a text are read one after another; the first that is no document ends the list
  as one that cannot be read. An anchor has a number: how many names were in use when it was set.
  The node that was numbered last is the one that aliases of the number stand for.
-/
import Rollout.Yaml.Token

namespace Rollout.Yaml

/-- A node of a document. -/
inductive Node where
  | scalar (tag : Option String) (text : String) (plain : Bool)
  | sequence (tag : Option String) (items : List Node)
  | mapping (tag : Option String) (entries : List (Node × Node))
  /-- An alias, by the number of its anchor. -/
  | alias (number : Nat)
deriving Inhabited

/-- A document: its root, its anchors, and how many parts it has. A part is a scalar, an alias, or
the beginning or the end of a collection. -/
structure Document where
  root : Node
  /-- The part at which the node of each number begins, the latest first. -/
  places : List (Nat × Nat)
  /-- The node that begins at each part, if it has an anchor. -/
  nodes : List (Nat × Node)
  parts : Nat

namespace Document

/-- The node that aliases of a number stand for. -/
def anchored? (d : Document) (number : Nat) : Option Node :=
  (d.places.lookup number).bind fun place => d.nodes.lookup place

end Document

/-! ## Reading -/

/-- How far the tokens are read. -/
structure Reading where
  tokens : List Token
  /-- What the handles of tags stand for, the first of one handle counting. -/
  handles : List (String × String) := []
  /-- The numbers of anchors by name. -/
  names : List (String × Nat) := []
  places : List (Nat × Nat) := []
  nodes : List (Nat × Node) := []
  parts : Nat := 0

/-- A step that reads tokens, or fails. -/
abbrev Reader := StateT Reading Option

namespace Reader

/-- The next token, which is left where it is. -/
def peek : Reader Token := do
  match (← get).tokens with
  | t :: _ => return t
  | [] => failure

def advance : Reader Unit := modify fun r => { r with tokens := r.tokens.tail }

/-- Counts a part; the answer is its number. -/
def part : Reader Nat := modifyGet fun r => (r.parts, { r with parts := r.parts + 1 })

/-- The node of a missing value. -/
def emptyNode : Reader Node := do
  let _ ← part
  return .scalar none "" true

/-- Anchor and tag in front of a node, in either order. -/
def properties : Reader (Option String × Option Tag.Written) := do
  match ← peek with
  | .anchor name => do
    advance
    match ← peek with
    | .tag t => advance; return (some name, some t)
    | _ => return (some name, none)
  | .tag t => do
    advance
    match ← peek with
    | .anchor name => advance; return (some name, some t)
    | _ => return (none, some t)
  | _ => return (none, none)

/-- The whole name of a tag; its handle has to be known. -/
def tagName (t : Option Tag.Written) : Reader (Option String) := do
  match t with
  | none => return none
  | some t =>
    if t.handle.isEmpty then return some t.suffix
    match (← get).handles.lookup t.handle with
    | some expansion => return some (expansion ++ t.suffix)
    | none => failure

/-- Numbers the anchor of the node that begins at the part `place`. -/
def setAnchor (name : Option String) (place : Nat) : Reader Unit := do
  match name with
  | none => return
  | some name => modify fun r =>
    let number := r.names.length
    { r with
      names := (name, number) :: r.names.filter fun e => e.1 != name
      places := (number, place) :: r.places }

/-- Keeps the node of an anchor. -/
def keepNode (name : Option String) (place : Nat) (node : Node) : Reader Node := do
  if name.isSome then modify fun r => { r with nodes := (place, node) :: r.nodes }
  return node

/-- The token of what follows ends the value before it is there. -/
def endsEntry (indentless : Bool) : Token → Bool
  | .blockEntry | .blockEnd => true
  | .key | .value => indentless
  | _ => false

def endsMember : Token → Bool
  | .key | .value | .blockEnd => true
  | _ => false

def endsFlowItem : Token → Bool
  | .flowEntry | .flowSequenceEnd => true
  | _ => false

def endsFlowMember : Token → Bool
  | .flowEntry | .flowMappingEnd => true
  | _ => false

mutual

/-- Reads a node; `block` allows block collections, `indentless` block sequences that are not
indented. -/
def node : Nat → Bool → Bool → Reader Node
  | 0, _, _ => failure
  | n + 1, block, indentless => do
    match ← peek with
    | .alias name => do
      advance
      let _ ← part
      match (← get).names.lookup name with
      | some number => return .alias number
      | none => failure
    | _ => do
      let (anchor, written) ← properties
      let tag ← tagName written
      let place ← part
      setAnchor anchor place
      let result ← match ← peek with
        | .scalar text plain => do
          advance
          pure (.scalar tag text plain)
        | .flowSequenceStart => advance; .sequence tag <$> flowSequence n true []
        | .flowMappingStart => advance; .mapping tag <$> flowMapping n true []
        | .blockEntry =>
          if indentless then .sequence tag <$> entries n true []
          else if anchor.isSome || tag.isSome then pure (.scalar tag "" true)
          else failure
        | .blockSequenceStart =>
          if block then do
            advance
            .sequence tag <$> entries n false []
          else if anchor.isSome || tag.isSome then pure (.scalar tag "" true)
          else failure
        | .blockMappingStart =>
          if block then do
            advance
            .mapping tag <$> members n []
          else if anchor.isSome || tag.isSome then pure (.scalar tag "" true)
          else failure
        | _ =>
          if anchor.isSome || tag.isSome then pure (.scalar tag "" true)
          else failure
      keepNode anchor place result

/-- Reads the entries of a block sequence, with its end. -/
def entries : Nat → Bool → List Node → Reader (List Node)
  | 0, _, _ => failure
  | n + 1, indentless, items => do
    match ← peek with
    | .blockEntry => do
      advance
      let item ← if endsEntry indentless (← peek) then emptyNode else node n true false
      entries n indentless (items ++ [item])
    | t => do
      let _ ← part
      if indentless then return items
      match t with
      | .blockEnd => advance; return items
      | _ => failure

/-- Reads the members of a block mapping, with its end. -/
def members : Nat → List (Node × Node) → Reader (List (Node × Node))
  | 0, _ => failure
  | n + 1, done => do
    match ← peek with
    | .key => do
      advance
      let key ← if endsMember (← peek) then emptyNode else node n true true
      let value ← match ← peek with
        | .value => do
          advance
          if endsMember (← peek) then emptyNode else node n true true
        | _ => emptyNode
      members n (done ++ [(key, value)])
    | .blockEnd => do
      advance
      let _ ← part
      return done
    | _ => failure

/-- Reads the items of a flow sequence, with its end. A pair among them is a mapping of its own. -/
def flowSequence : Nat → Bool → List Node → Reader (List Node)
  | 0, _, _ => failure
  | n + 1, first, items => do
    match ← peek with
    | .flowSequenceEnd => do
      advance
      let _ ← part
      return items
    | t => do
      if !first then
        match t with
        | .flowEntry => advance
        | _ => failure
      match ← peek with
      | .flowSequenceEnd => do
        advance
        let _ ← part
        return items
      | .key => do
        advance
        let item ← pair n
        flowSequence n false (items ++ [item])
      | _ => do
        let item ← node n false false
        flowSequence n false (items ++ [item])

/-- Reads a pair in a flow sequence. A pair without a key has no value either: what follows the
announced key is passed over. -/
def pair : Nat → Reader Node
  | 0 => failure
  | n + 1 => do
    let _ ← part
    let t ← peek
    let key ← match t with
      | .value => advance; emptyNode
      | _ =>
        if endsFlowItem t then do
          advance
          emptyNode
        else node n false false
    let value ← match ← peek with
      | .value => do
        advance
        if endsFlowItem (← peek) then emptyNode else node n false false
      | _ => emptyNode
    let _ ← part
    return .mapping none [(key, value)]

/-- Reads the members of a flow mapping, with its end. -/
def flowMapping : Nat → Bool → List (Node × Node) → Reader (List (Node × Node))
  | 0, _, _ => failure
  | n + 1, first, done => do
    match ← peek with
    | .flowMappingEnd => do
      advance
      let _ ← part
      return done
    | t => do
      if !first then
        match t with
        | .flowEntry => advance
        | _ => failure
      match ← peek with
      | .flowMappingEnd => do
        advance
        let _ ← part
        return done
      | .key => do
        advance
        let next ← peek
        let key ← match next with
          | .value => emptyNode
          | _ => if endsFlowMember next then emptyNode else node n false false
        let value ← match ← peek with
          | .value => do
            advance
            if endsFlowMember (← peek) then emptyNode else node n false false
          | _ => emptyNode
        flowMapping n false (done ++ [(key, value)])
      | _ => do
        let key ← node n false false
        let value ← emptyNode
        flowMapping n false (done ++ [(key, value)])

end

/-! ## Documents -/

/-- What the handles of tags stand for in every document. -/
def defaultHandles : List (String × String) := [("!", "!"), ("!!", "tag:yaml.org,2002:")]

/-- Reads the directives in front of a document: at most one version, which has to be 1.1 or 1.2,
and each handle at most once. -/
def directives : Nat → Bool → List (String × String) → Reader (List (String × String))
  | 0, _, handles => return handles
  | n + 1, versioned, handles => do
    match ← peek with
    | .directive (.version major minor) =>
      if versioned || major != 1 || (minor != 1 && minor != 2) then failure
      advance
      directives n true handles
    | .directive (.tag handle expansion) =>
      if (handles.lookup handle).isSome then failure
      advance
      directives n versioned (handles ++ [(handle, expansion)])
    | _ => return handles

/-- Passes marks of the end of a document. -/
def passEnds : Nat → Reader Unit
  | 0 => return
  | n + 1 => do
    match ← peek with
    | .documentEnd => advance; passEnds n
    | _ => return

/-- The content of a document that was announced by a mark. -/
def content (n : Nat) : Reader Node := do
  match ← peek with
  | .directive _ | .documentStart | .documentEnd | .streamEnd => emptyNode
  | _ => node n true false

/-- The end of a document: a token follows, and a mark of the end is passed over. -/
def finish : Reader Unit := do
  match ← peek with
  | .documentEnd => advance
  | _ => return

/-- Reads the next document; none at the end of the text. Only the first document may begin without
a mark. -/
def document? (n : Nat) (first : Bool) : Reader (Option Node) := do
  modify fun r => { tokens := r.tokens }
  if !first then passEnds n
  let implicit := match ← peek with
    | .directive _ | .documentStart | .streamEnd => false
    | _ => first
  match ← peek with
  | .streamEnd => return none
  | _ =>
    if implicit then
      modify fun r => { r with handles := defaultHandles }
      let root ← node n true false
      finish
      return some root
    else
      let handles ← directives n false []
      modify fun r => { r with handles := handles ++ defaultHandles }
      match ← peek with
      | .documentStart => do
        advance
        let root ← content n
        finish
        return some root
      | _ => failure

end Reader

namespace Document

/-- The documents among tokens, the last one none if it cannot be read. -/
def ofTokens : Nat → Bool → List Token → List (Option Document)
  | 0, _, _ => []
  | n + 1, first, ts =>
    match (Reader.document? (4 * ts.length + 8) first).run { tokens := ts } with
    | none => [none]
    | some (none, _) => []
    | some (some root, r) =>
      some ⟨root, r.places, r.nodes, r.parts⟩ :: ofTokens n false r.tokens

/-- The documents of a text. -/
def ofText (text : String) : List (Option Document) :=
  let ts := tokens text
  ofTokens (ts.length + 1) true ts

end Document

end Rollout.Yaml
