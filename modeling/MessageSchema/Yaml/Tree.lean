import MessageSchema.Dictionary
import MessageSchema.Yaml.TokenReader

/-!
# Trees of a YAML text

The nodes of a document nest by brackets or by indentation; what may be left out stands for an empty
scalar. An anchor gives a node a number, under which aliases mean it. Where a text has a fault, the
tree has a broken node, and everything around it ends there: what stands in front of the fault can
still be read.

## Main definitions

* `Yaml.Tree`: a node with everything below it.
* `Yaml.Parsing`: the tokens that are left, and the anchors and handles that are known.
* `Yaml.Parsing.node`: reads a node.
* `Yaml.Document`, `Yaml.Document.ofText`: the document of a text.
-/

namespace MessageSchema.Yaml

/-- What stands in front of a node. -/
structure Properties where
  anchor : Option Nat := none
  tag : Option String := none

/-- A node with everything below it. -/
inductive Tree where
  /-- A text without any node. -/
  | nothing
  | alias (id : Nat)
  | scalar (properties : Properties) (style : Style) (text : String)
  | sequence (properties : Properties) (items : List Tree)
  | mapping (properties : Properties) (entries : List (Tree × Tree))
  | broken (problem : Fault)
deriving Inhabited

/-- The scalar that stands where a node is left out. -/
def Tree.blank : Tree :=
  .scalar {} .plain ""

/-- The tokens that are left, and the anchors and handles that are known. -/
structure Parsing where
  tokens : List Token
  /-- Whether the next token stands at the very start of the text. -/
  atStart : Bool := false
  anchors : Dictionary Nat := []
  /-- What the handles of tags stand for. -/
  handles : List (String × String) := []

namespace Parsing

/-- The next token. -/
def next (parsing : Parsing) : Token :=
  parsing.tokens.headD .streamEnd

/-- Past the next token. -/
def skip (parsing : Parsing) : Parsing :=
  { parsing with tokens := parsing.tokens.tail, atStart := false }

/-- What is being read from here on. That it begins at the very start of the text is part of it. -/
def context (what : String) (parsing : Parsing) : String :=
  if parsing.atStart then what ++ startSuffix else what

/-- The fault of the text here: that of its next token, or else a given one. -/
def faultHere (problem : Fault) (parsing : Parsing) : Fault :=
  match parsing.next with
  | .fault earlier => earlier
  | _ => problem

/-- A broken node, behind which there are no tokens. -/
def broken (problem : Fault) (parsing : Parsing) : Tree × Parsing :=
  let problem := parsing.faultHere problem
  (.broken problem, { parsing with tokens := [.fault problem] })

/-- Fails here unless the text fails already. -/
def fail (problem context : String) (parsing : Parsing) : Tree × Parsing :=
  parsing.broken (problem ++ ", " ++ context)

/-- A node, unless the next token shows that it is left out. -/
def nodeUnless (ends : Token → Bool) (read : Parsing → Tree × Parsing) (parsing : Parsing) :
    Tree × Parsing :=
  if ends parsing.next then (.blank, parsing) else read parsing

/-! ### What stands in front of a node -/

/-- Numbers an anchor by how many different names there have been. -/
def define (name : Option String) (parsing : Parsing) : Option Nat × Parsing :=
  match name with
  | none => (none, parsing)
  | some name =>
    let id := parsing.anchors.length
    (some id, { parsing with anchors := parsing.anchors.insert name id })

/-- The tag that a handle and a suffix stand for. -/
def tag? (handle suffix : String) (parsing : Parsing) : Option String :=
  if handle.isEmpty then some suffix
  else (parsing.handles.lookup handle).map (· ++ suffix)

/-- An anchor and a tag in either order. The tag is nothing if its handle is not known. -/
def readProperties (parsing : Parsing) :
    Option String × Option (String × String) × Parsing :=
  match parsing.tokens with
  | .anchor name :: .tag handle suffix :: rest
  | .tag handle suffix :: .anchor name :: rest =>
    (some name, some (handle, suffix), { parsing.skip with tokens := rest })
  | .anchor name :: rest => (some name, none, { parsing.skip with tokens := rest })
  | .tag handle suffix :: rest =>
    (none, some (handle, suffix), { parsing.skip with tokens := rest })
  | _ => (none, none, parsing)

/-! ### Tokens in front of which a node is left out -/

/-- Behind the mark of an item of a block sequence. -/
def endsBlockItem : Token → Bool
  | .blockEntry | .blockEnd => true
  | _ => false

/-- Behind the mark of a key or a value of a block mapping. -/
def endsBlockPart : Token → Bool
  | .key | .value | .blockEnd => true
  | _ => false

/-- Behind the mark of an item of a sequence that is indented like the mapping around it. -/
def endsInnerItem : Token → Bool
  | .blockEntry | .key | .value | .blockEnd => true
  | _ => false

/-- Behind the mark of a key in brackets. -/
def endsFlowKey : Token → Bool
  | .value | .flowEntry | .flowMappingEnd => true
  | _ => false

/-- Behind the mark of a value in brackets. -/
def endsFlowValue : Token → Bool
  | .flowEntry | .flowMappingEnd => true
  | _ => false

/-- Behind the mark of the value of a pair in a sequence in brackets. -/
def endsPairValue : Token → Bool
  | .flowEntry | .flowSequenceEnd => true
  | _ => false

/-- Behind the mark of a document. -/
def endsDocument : Token → Bool
  | .versionDirective _ _ | .tagDirective _ _ | .documentStart | .documentEnd | .streamEnd => true
  | _ => false

/-! ### Nodes -/

/-- The part behind the mark of a value, which may be missing. -/
def valueUnless (ends : Token → Bool) (read : Parsing → Tree × Parsing) (parsing : Parsing) :
    Tree × Parsing :=
  match parsing.next with
  | .value => parsing.skip.nodeUnless ends read
  | .fault problem => parsing.broken problem
  | _ => (.blank, parsing)

mutual

/-- Reads a node: `inBlock` where it may be given by indentation, `atKey` where a sequence may be
indented like the mapping around it. -/
def node (inBlock atKey : Bool) : Nat → Parsing → Tree × Parsing
  | 0, parsing => parsing.broken ""
  | fuel + 1, parsing =>
    match parsing.next with
    | .alias name => match parsing.anchors.get? name with
      | some id => (.alias id, parsing.skip)
      | none => parsing.broken "unknown anchor"
    | _ =>
      let context := if parsing.next matches .anchor _ then parsing.context "while parsing a node"
        else "while parsing a node"
      let (anchor, tagged, parsing) := parsing.readProperties
      match tagged.map fun (handle, suffix) => parsing.tag? handle suffix with
      | some none => parsing.fail "found undefined tag handle" context
      | tag =>
        let tag := tag.join
        let (id, parsing') := parsing.define anchor
        let properties : Properties := ⟨id, tag⟩
        match parsing.next, inBlock, atKey with
        | .blockEntry, _, true =>
          let (items, parsing) := innerItems fuel parsing'
          (.sequence properties items, parsing)
        | .scalar style text, _, _ =>
          let tag := if tag = some "!" then none else tag
          (.scalar ⟨id, tag⟩ style text, parsing'.skip)
        | .flowSequenceStart, _, _ =>
          let (items, parsing) :=
            flowItems (parsing'.context "while parsing a flow sequence") true fuel parsing'.skip
          (.sequence properties items, parsing)
        | .flowMappingStart, _, _ =>
          let (entries, parsing) :=
            flowEntries (parsing'.context "while parsing a flow mapping") true fuel parsing'.skip
          (.mapping properties entries, parsing)
        | .blockSequenceStart, true, _ =>
          let (items, parsing) :=
            blockItems (parsing'.context "while parsing a block collection") fuel parsing'.skip
          (.sequence properties items, parsing)
        | .blockMappingStart, true, _ =>
          let (entries, parsing) :=
            blockEntries (parsing'.context "while parsing a block mapping") fuel parsing'.skip
          (.mapping properties entries, parsing)
        | .fault problem, _, _ => parsing.broken problem
        | _, _, _ =>
          if anchor.isSome || tag.isSome then (.scalar properties .plain "", parsing')
          else parsing.fail "did not find expected node content"
            (if inBlock then "while parsing a block node" else "while parsing a flow node")

/-- Reads the items of a block sequence. -/
def blockItems (context : String) : Nat → Parsing → List Tree × Parsing
  | 0, parsing => ([], parsing)
  | fuel + 1, parsing =>
    match parsing.next with
    | .blockEntry =>
      let (item, parsing) := parsing.skip.nodeUnless endsBlockItem (node true false fuel)
      let (items, parsing) := blockItems context fuel parsing
      (item :: items, parsing)
    | .blockEnd => ([], parsing.skip)
    | _ =>
      let (item, parsing) := parsing.fail "did not find expected '-' indicator" context
      ([item], parsing)

/-- Reads the items of a sequence that is indented like the mapping around it. -/
def innerItems : Nat → Parsing → List Tree × Parsing
  | 0, parsing => ([], parsing)
  | fuel + 1, parsing =>
    match parsing.next with
    | .blockEntry =>
      let (item, parsing) := parsing.skip.nodeUnless endsInnerItem (node true false fuel)
      let (items, parsing) := innerItems fuel parsing
      (item :: items, parsing)
    | .fault problem => ([.broken problem], parsing)
    | _ => ([], parsing)

/-- Reads the entries of a block mapping. -/
def blockEntries (context : String) : Nat → Parsing → List (Tree × Tree) × Parsing
  | 0, parsing => ([], parsing)
  | fuel + 1, parsing =>
    match parsing.next with
    | .key =>
      let (key, parsing) := parsing.skip.nodeUnless endsBlockPart (node true true fuel)
      let (value, parsing) := parsing.valueUnless endsBlockPart (node true true fuel)
      let (entries, parsing) := blockEntries context fuel parsing
      ((key, value) :: entries, parsing)
    | .blockEnd => ([], parsing.skip)
    | _ =>
      let (key, parsing) := parsing.fail "did not find expected key" context
      ([(key, key)], parsing)

/-- Reads the items of a sequence in brackets, or of the rest of one. -/
def flowItems (context : String) (isFirst : Bool) : Nat → Parsing → List Tree × Parsing
  | 0, parsing => ([], parsing)
  | fuel + 1, parsing =>
    match parsing.next, isFirst with
    | .flowSequenceEnd, _ => ([], parsing.skip)
    | .flowEntry, false => flowItem context fuel parsing.skip
    | _, true => flowItem context fuel parsing
    | _, false =>
      let (item, parsing) := parsing.fail "did not find expected ',' or ']'" context
      ([item], parsing)

/-- Reads an item of a sequence in brackets, which may be a pair, and the items behind it. -/
def flowItem (context : String) : Nat → Parsing → List Tree × Parsing
  | 0, parsing => ([], parsing)
  | fuel + 1, parsing =>
    match parsing.next with
    | .flowSequenceEnd => ([], parsing.skip)
    | .key =>
      let parsing := parsing.skip
      let (key, parsing) := match parsing.next with
        | .value | .flowEntry | .flowSequenceEnd => (Tree.blank, parsing.skip)
        | _ => node false false fuel parsing
      let (value, parsing) := parsing.valueUnless endsPairValue (node false false fuel)
      let (items, parsing) := flowItems context false fuel parsing
      (.mapping {} [(key, value)] :: items, parsing)
    | _ =>
      let (item, parsing) := node false false fuel parsing
      let (items, parsing) := flowItems context false fuel parsing
      (item :: items, parsing)

/-- Reads the entries of a mapping in brackets, or of the rest of one. -/
def flowEntries (context : String) (isFirst : Bool) :
    Nat → Parsing → List (Tree × Tree) × Parsing
  | 0, parsing => ([], parsing)
  | fuel + 1, parsing =>
    match parsing.next, isFirst with
    | .flowMappingEnd, _ => ([], parsing.skip)
    | .flowEntry, false => flowPart context fuel parsing.skip
    | _, true => flowPart context fuel parsing
    | _, false =>
      let (key, parsing) := parsing.fail "did not find expected ',' or '\x7d'" context
      ([(key, key)], parsing)

/-- Reads an entry of a mapping in brackets, which may be a key by itself, and the entries behind
it. -/
def flowPart (context : String) : Nat → Parsing → List (Tree × Tree) × Parsing
  | 0, parsing => ([], parsing)
  | fuel + 1, parsing =>
    match parsing.next with
    | .flowMappingEnd => ([], parsing.skip)
    | .key =>
      let (key, parsing) := parsing.skip.nodeUnless endsFlowKey (node false false fuel)
      let (value, parsing) := parsing.valueUnless endsFlowValue (node false false fuel)
      let (entries, parsing) := flowEntries context false fuel parsing
      ((key, value) :: entries, parsing)
    | _ =>
      let (key, parsing) := node false false fuel parsing
      let value := match parsing.next with
        | .fault problem => .broken problem
        | _ => .blank
      let (entries, parsing) := flowEntries context false fuel parsing
      ((key, value) :: entries, parsing)

end

/-- Reads a node in front of all tokens. -/
def root (parsing : Parsing) : Tree × Parsing :=
  node true false (4 * parsing.tokens.length + 4) parsing

/-! ### Documents -/

/-- The handles that every document knows. -/
def commonHandles : List (String × String) :=
  [("!", "!"), ("!!", "tag:yaml.org,2002:")]

/-- Reads the directives in front of a document. -/
def directives (versioned : Bool) : List Token → List (String × String) →
    Except Fault (List (String × String)) × List Token
  | .versionDirective major minor :: rest, handles =>
    if versioned then (.error "found duplicate %YAML directive", rest)
    else if major ≠ 1 ∨ (minor ≠ 1 ∧ minor ≠ 2) then
      (.error "found incompatible YAML document", rest)
    else directives true rest handles
  | .tagDirective handle start :: rest, handles =>
    if handles.any (·.1 == handle) then (.error "found duplicate %TAG directive", rest)
    else directives versioned rest ((handle, start) :: handles)
  | tokens, handles => (.ok handles, tokens)

/-- Reads the node of a document. -/
def document (parsing : Parsing) : Tree × Parsing :=
  match parsing.next with
  | .streamEnd => (.nothing, parsing)
  | .versionDirective _ _ | .tagDirective _ _ | .documentStart =>
    match directives false parsing.tokens [] with
    | (.error problem, _) => parsing.broken problem
    | (.ok handles, tokens) =>
      let parsing := { parsing with tokens, handles := handles ++ commonHandles }
      match parsing.next with
      | .documentStart => parsing.skip.nodeUnless endsDocument root
      | _ => parsing.broken "did not find expected <document start>"
  | _ => root { parsing with handles := commonHandles }

end Parsing

mutual

/-- The anchored nodes of a tree in the order in which they begin. -/
def Tree.anchored : Tree → List (Nat × Tree)
  | .nothing | .alias _ | .broken _ => []
  | tree@(.scalar properties _ _) => properties.anchor.toList.map (·, tree)
  | tree@(.sequence properties items) =>
    properties.anchor.toList.map (·, tree) ++ anchoredItems items
  | tree@(.mapping properties entries) =>
    properties.anchor.toList.map (·, tree) ++ anchoredEntries entries

/-- The anchored nodes of several trees. -/
def Tree.anchoredItems : List Tree → List (Nat × Tree)
  | [] => []
  | tree :: rest => tree.anchored ++ anchoredItems rest

/-- The anchored nodes of several entries. -/
def Tree.anchoredEntries : List (Tree × Tree) → List (Nat × Tree)
  | [] => []
  | (key, value) :: rest => key.anchored ++ value.anchored ++ anchoredEntries rest

end

mutual

/-- The first fault in a tree. -/
def Tree.fault? : Tree → Option Fault
  | .nothing | .alias _ | .scalar _ _ _ => none
  | .broken problem => some problem
  | .sequence _ items => faultOfItems? items
  | .mapping _ entries => faultOfEntries? entries

/-- The first fault in several trees. -/
def Tree.faultOfItems? : List Tree → Option Fault
  | [] => none
  | tree :: rest => tree.fault?.or (faultOfItems? rest)

/-- The first fault in several entries. -/
def Tree.faultOfEntries? : List (Tree × Tree) → Option Fault
  | [] => none
  | (key, value) :: rest => (key.fault?.or value.fault?).or (faultOfEntries? rest)

end

/-- The document of a text. -/
structure Document where
  root : Tree
  /-- The fault of the text behind the document. -/
  rest : Option Fault

/-- The fault of what stands behind a document, which may be ended expressly. -/
def faultBehind (parsing : Parsing) : Option Fault :=
  match parsing.tokens with
  | .fault problem :: _ => some problem
  | tokens => match tokens.dropWhile fun token => token matches .documentEnd with
    | .streamEnd :: _ => none
    | _ => some "deserializing from YAML containing more than one document is not supported"

/-- The document of a text. -/
def Document.ofText (text : String) : Document :=
  let (root, parsing) :=
    Parsing.document { tokens := tokens text, atStart := beginsAtOnce text }
  ⟨root, faultBehind parsing⟩

/-- The first fault of a document and of what stands behind it. -/
def Document.fault? (document : Document) : Option Fault :=
  document.root.fault?.or document.rest

end MessageSchema.Yaml
