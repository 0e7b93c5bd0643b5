import LayeredConfig.Yaml.ReadFault
import LayeredConfig.Yaml.Resolve
import LayeredConfig.Yaml.Token

/-!
# YAML nodes

The tree of scalars, sequences and mappings that the tokens of one document stand for. Every node
has a tag and the position where it starts; an alias is the node of its anchor.
-/

namespace LayeredConfig.Yaml

inductive Node
  | scalar (tag text : String) (start : Position)
  | sequence (tag : String) (items : List Node) (start : Position)
  | mapping (tag : String) (entries : List (Node × Node)) (start : Position)
  /-- A mapping whose merges cannot be carried out. -/
  | broken
  deriving Repr, Inhabited

namespace Node

def tag : Node → String
  | scalar tag _ _ | sequence tag _ _ | mapping tag _ _ => tag
  | broken => ""

/-! ## Composition -/

/-- What is known at some place of a document. -/
structure Context where
  /-- What the handles of tags stand for. -/
  handles : List (String × String)
  /-- The anchors so far; a repeated one is an error even while its node is incomplete. -/
  declared : List String := []
  anchored : List (String × Node) := []

/-- The anchor and the tag in front of a node. -/
structure Properties where
  start : Option Position := none
  anchor : Option String := none
  tag : Option String := none

/-- A node with the context and the tokens behind it. -/
abbrev Composed (α : Type) := α × Context × List Located

/-- The complete tag behind a handle. -/
def Context.fullTag (context : Context) (handle : Option String) (suffix : String) :
    Except ReadFault String :=
  match handle with
  | none => .ok suffix
  | some handle =>
    match context.handles.lookup handle with
    | some start => .ok (start ++ suffix)
    | none => .error .malformed

/-- An anchor and a tag in either order. -/
def properties (context : Context) (tokens : List Located) :
    Except ReadFault (Properties × List Located) :=
  match tokens with
  | ⟨.anchor name, start, _⟩ :: ⟨.tag handle suffix, _, _⟩ :: rest
  | ⟨.tag handle suffix, start, _⟩ :: ⟨.anchor name, _, _⟩ :: rest =>
    (context.fullTag handle suffix).map fun tag => (⟨start, name, tag⟩, rest)
  | ⟨.anchor name, start, _⟩ :: rest => .ok (⟨start, name, none⟩, rest)
  | ⟨.tag handle suffix, start, _⟩ :: rest =>
    (context.fullTag handle suffix).map fun tag => (⟨start, none, tag⟩, rest)
  | tokens => .ok ({}, tokens)

theorem properties_length {context : Context} {tokens rest : List Located} {found : Properties}
    (h : properties context tokens = .ok (found, rest)) : rest.length ≤ tokens.length := by
  unfold properties at h
  split at h
  all_goals
    first
    | (simp only [Except.ok.injEq, Prod.mk.injEq] at h
       obtain ⟨_, rfl⟩ := h
       simp)
    | (unfold Except.map at h
       split at h
       · simp at h
       · simp only [Except.ok.injEq, Prod.mk.injEq] at h
         obtain ⟨_, rfl⟩ := h
         simp only [List.length_cons]
         omega)

/-- Notes an anchor; none may be used twice. -/
def Context.declare (context : Context) (anchor : Option String) : Except ReadFault Context :=
  match anchor with
  | none => .ok context
  | some name =>
    if context.declared.contains name then .error .malformed
    else .ok { context with declared := name :: context.declared }

/-- Notes the node of an anchor. -/
def Context.bind (context : Context) (anchor : Option String) (node : Node) : Context :=
  match anchor with
  | none => context
  | some name => { context with anchored := (name, node) :: context.anchored }

/-- The tag of a collection, or the usual one. -/
def collectionTag (found : Properties) (usual : String) : String :=
  match found.tag with
  | none | some "!" => coreTag usual
  | some tag => tag

/-- The tag of a scalar: a given one, or what its text looks like if it is plain. -/
def scalarTag (found : Properties) (plain : Bool) (text : String) : String :=
  match found.tag with
  | some "!" => resolve text
  | some tag => tag
  | none => if plain then resolve text else coreTag "str"

/-- A scalar that is left out. -/
def absent (position : Position) : Node := scalar (coreTag "null") "" position

/-- Whether one of the given tokens comes next. -/
def isNext (stops : List Token) (tokens : List Located) : Bool :=
  tokens.head?.any fun located => stops.contains located.token

/-- Whether a flow collection ends here, and the tokens behind its end or its separator. -/
def flowStep (first : Bool) (close : Token) (tokens : List Located) :
    Except ReadFault (Bool × List Located) :=
  if isNext [close] tokens then .ok (true, tokens.drop 1)
  else if first then .ok (false, tokens)
  else
    match tokens with
    | ⟨.flowEntry, _, _⟩ :: rest =>
      if isNext [close] rest then .ok (true, rest.drop 1) else .ok (false, rest)
    | _ => .error .malformed

theorem flowStep_length {first finished : Bool} {close : Token} {tokens rest : List Located}
    (h : flowStep first close tokens = .ok (finished, rest)) : rest.length ≤ tokens.length := by
  unfold flowStep at h
  split at h
  · simp only [Except.ok.injEq, Prod.mk.injEq] at h
    obtain ⟨_, rfl⟩ := h
    simp
  · split at h
    · simp only [Except.ok.injEq, Prod.mk.injEq] at h
      obtain ⟨_, rfl⟩ := h
      exact Nat.le_refl _
    · split at h
      · split at h
        all_goals
          simp only [Except.ok.injEq, Prod.mk.injEq] at h
          obtain ⟨_, rfl⟩ := h
          simp only [List.length_cons, List.length_drop]
          omega
      · simp at h

/-- The position of the next token. -/
def nextStart (tokens : List Located) : Position :=
  (tokens.head?.map (·.start)).getD {}

mutual

/-- A node; block collections are admitted in block context only. -/
def compose (block indentless : Bool) (context : Context) (tokens : List Located) :
    Except ReadFault (Composed Node) :=
  match tokens with
  | ⟨.alias name, _, _⟩ :: rest =>
    match context.anchored.lookup name with
    | some node => .ok (node, context, rest)
    | none => .error .malformed
  | tokens =>
    match _h : properties context tokens with
    | .error fault => .error fault
    | .ok (found, body) => content block indentless context found body
termination_by (tokens.length, 4)
decreasing_by
  have := properties_length _h
  omega

/-- A node behind its properties. -/
def content (block indentless : Bool) (context : Context) (found : Properties)
    (tokens : List Located) : Except ReadFault (Composed Node) := do
  let context ← context.declare found.anchor
  let start := found.start.getD (nextStart tokens)
  match tokens with
  | ⟨.scalar plain text, _, _⟩ :: rest =>
    let node := scalar (scalarTag found plain text) text start
    .ok (node, context.bind found.anchor node, rest)
  | ⟨.flowSequenceStart, _, _⟩ :: rest =>
    let (items, context, rest) ← flowItems true context rest
    let node := sequence (collectionTag found "seq") items start
    .ok (node, context.bind found.anchor node, rest)
  | ⟨.flowMappingStart, _, _⟩ :: rest =>
    let (entries, context, rest) ← flowEntries true context rest
    let node := mapping (collectionTag found "map") entries start
    .ok (node, context.bind found.anchor node, rest)
  | ⟨.blockEntry, stop, last⟩ :: rest =>
    if indentless then
      let (items, context, rest) ← blockItems true context (⟨.blockEntry, stop, last⟩ :: rest)
      let node := sequence (collectionTag found "seq") items start
      .ok (node, context.bind found.anchor node, rest)
    else emptyContent context found start (⟨.blockEntry, stop, last⟩ :: rest)
  | ⟨.blockSequenceStart, stop, last⟩ :: rest =>
    if block then
      let (items, context, rest) ← blockItems false context rest
      let node := sequence (collectionTag found "seq") items start
      .ok (node, context.bind found.anchor node, rest)
    else emptyContent context found start (⟨.blockSequenceStart, stop, last⟩ :: rest)
  | ⟨.blockMappingStart, stop, last⟩ :: rest =>
    if block then
      let (entries, context, rest) ← blockEntries context rest
      let node := mapping (collectionTag found "map") entries start
      .ok (node, context.bind found.anchor node, rest)
    else emptyContent context found start (⟨.blockMappingStart, stop, last⟩ :: rest)
  | tokens => emptyContent context found start tokens
termination_by (tokens.length, 3)

/-- An anchor or a tag may stand for an empty scalar; nothing at all may not. -/
def emptyContent (context : Context) (found : Properties) (start : Position)
    (tokens : List Located) : Except ReadFault (Composed Node) :=
  if found.anchor.isSome || found.tag.isSome then
    let node := scalar (scalarTag found true "") "" start
    .ok (node, context.bind found.anchor node, tokens)
  else .error .malformed

/-- A node, or an absent one at `position` when one of the given tokens comes next. -/
def composeUnless (stops : List Token) (position : Position) (block : Bool) (context : Context)
    (tokens : List Located) : Except ReadFault (Composed Node) :=
  if isNext stops tokens then .ok (absent position, context, tokens)
  else compose block block context tokens
termination_by (tokens.length, 5)

/-- The items of a block sequence, which ends by itself when it is not indented. -/
def blockItems (indentless : Bool) (context : Context) (tokens : List Located) :
    Except ReadFault (Composed (List Node)) :=
  match tokens with
  | ⟨.blockEntry, _, stop⟩ :: rest =>
    let stops : List Token :=
      if indentless then [.blockEntry, .key, .value, .blockEnd] else [.blockEntry, .blockEnd]
    let first :=
      if isNext stops rest then .ok (absent stop, context, rest)
      else compose true false context rest
    match first with
    | .error fault => .error fault
    | .ok (item, context, left) =>
      if _h : left.length ≤ rest.length then
        match blockItems indentless context left with
        | .error fault => .error fault
        | .ok (items, context, left) => .ok (item :: items, context, left)
      else .error .malformed
  | ⟨.blockEnd, start, stop⟩ :: rest =>
    .ok ([], context, if indentless then ⟨.blockEnd, start, stop⟩ :: rest else rest)
  | tokens => if indentless then .ok ([], context, tokens) else .error .malformed
termination_by (tokens.length, 2)

/-- The entries of a block mapping. -/
def blockEntries (context : Context) (tokens : List Located) :
    Except ReadFault (Composed (List (Node × Node))) :=
  match tokens with
  | ⟨.key, _, stop⟩ :: rest =>
    match composeUnless [.key, .value, .blockEnd] stop true context rest with
    | .error fault => .error fault
    | .ok (key, context, left) =>
      if _h : left.length ≤ rest.length then
        match blockValue context left with
        | .error fault => .error fault
        | .ok (value, context, left) =>
          if _h : left.length ≤ rest.length then
            match blockEntries context left with
            | .error fault => .error fault
            | .ok (entries, context, left) => .ok ((key, value) :: entries, context, left)
          else .error .malformed
      else .error .malformed
  | ⟨.blockEnd, _, _⟩ :: rest => .ok ([], context, rest)
  | _ => .error .malformed
termination_by (tokens.length, 2)

/-- The value of an entry of a block mapping. -/
def blockValue (context : Context) (tokens : List Located) : Except ReadFault (Composed Node) :=
  match tokens with
  | ⟨.value, _, stop⟩ :: rest => composeUnless [.key, .value, .blockEnd] stop true context rest
  | tokens => .ok (absent (nextStart tokens), context, tokens)
termination_by (tokens.length, 1)

/-- The items of a flow sequence; an item with a key is a mapping of one entry. -/
def flowItems (first : Bool) (context : Context) (tokens : List Located) :
    Except ReadFault (Composed (List Node)) :=
  match _h : flowStep first .flowSequenceEnd tokens with
  | .error fault => .error fault
  | .ok (true, rest) => .ok ([], context, rest)
  | .ok (false, rest) =>
    match flowItem context rest with
    | .error fault => .error fault
    | .ok (item, context, left) =>
      if _hleft : left.length < tokens.length then
        match flowItems false context left with
        | .error fault => .error fault
        | .ok (items, context, left) => .ok (item :: items, context, left)
      else .error .malformed
termination_by (tokens.length, 7)
decreasing_by
  · have := flowStep_length _h
    omega
  · omega

/-- One item of a flow sequence. -/
def flowItem (context : Context) (tokens : List Located) : Except ReadFault (Composed Node) :=
  match tokens with
  | ⟨.key, start, stop⟩ :: rest =>
    match composeUnless [.value, .flowEntry, .flowSequenceEnd] stop false context rest with
    | .error fault => .error fault
    | .ok (key, context, left) =>
      if _h : left.length ≤ rest.length then
        match flowValue [.flowEntry, .flowSequenceEnd] context left with
        | .error fault => .error fault
        | .ok (value, context, left) =>
          .ok (mapping (coreTag "map") [(key, value)] start, context, left)
      else .error .malformed
  | tokens => compose false false context tokens
termination_by (tokens.length, 6)

/-- The entries of a flow mapping; an entry without a key sign has no value. -/
def flowEntries (first : Bool) (context : Context) (tokens : List Located) :
    Except ReadFault (Composed (List (Node × Node))) :=
  match _h : flowStep first .flowMappingEnd tokens with
  | .error fault => .error fault
  | .ok (true, rest) => .ok ([], context, rest)
  | .ok (false, rest) =>
    match flowPair context rest with
    | .error fault => .error fault
    | .ok (entry, context, left) =>
      if _hleft : left.length < tokens.length then
        match flowEntries false context left with
        | .error fault => .error fault
        | .ok (entries, context, left) => .ok (entry :: entries, context, left)
      else .error .malformed
termination_by (tokens.length, 7)
decreasing_by
  · have := flowStep_length _h
    omega
  · omega

/-- One entry of a flow mapping. -/
def flowPair (context : Context) (tokens : List Located) :
    Except ReadFault (Composed (Node × Node)) :=
  match tokens with
  | ⟨.key, _, stop⟩ :: rest =>
    match composeUnless [.value, .flowEntry, .flowMappingEnd] stop false context rest with
    | .error fault => .error fault
    | .ok (key, context, left) =>
      if _h : left.length ≤ rest.length then
        match flowValue [.flowEntry, .flowMappingEnd] context left with
        | .error fault => .error fault
        | .ok (value, context, left) => .ok ((key, value), context, left)
      else .error .malformed
  | tokens =>
    match compose false false context tokens with
    | .error fault => .error fault
    | .ok (key, context, left) => .ok ((key, absent (nextStart left)), context, left)
termination_by (tokens.length, 6)

/-- The value behind a key in a flow collection. -/
def flowValue (stops : List Token) (context : Context) (tokens : List Located) :
    Except ReadFault (Composed Node) :=
  match tokens with
  | ⟨.value, _, stop⟩ :: rest => composeUnless stops stop false context rest
  | tokens => .ok (absent (nextStart tokens), context, tokens)
termination_by (tokens.length, 1)

end

/-! ## Documents -/

def standardHandles : List (String × String) := [("!", "!"), ("!!", coreTag "")]

/-- The directives of a document; its own handles come before the standard ones. -/
def directives (versioned : Bool) (handles : List (String × String)) :
    List Located → Except ReadFault (List (String × String) × List Located)
  | ⟨.version major, _, _⟩ :: rest =>
    if versioned || major != 1 then .error .malformed else directives true handles rest
  | ⟨.handle name start, _, _⟩ :: rest =>
    if (handles.lookup name).isSome then .error .malformed
    else directives versioned ((name, start) :: handles) rest
  | ⟨.otherDirective, _, _⟩ :: rest => directives versioned handles rest
  | tokens => .ok (handles ++ standardHandles, tokens)

/-- A document with its own start; it may be empty. -/
def explicitDocument (tokens : List Located) : Except ReadFault (Composed Node) := do
  let (handles, rest) ← directives false [] tokens
  match rest with
  | ⟨.documentStart, _, _⟩ :: body =>
    let stops : List Token := [.documentStart, .documentEnd, .streamEnd, .otherDirective]
    let directiveNext := body.head?.any fun located =>
      located.token matches .version _ | .handle _ _
    if isNext stops body || directiveNext then
      return (absent (nextStart body), { handles }, body)
    else compose true false { handles } body
  | _ => .error .malformed

/-- The tokens behind the marks at the end of a document. -/
def skipDocumentEnds : List Located → List Located
  | ⟨.documentEnd, _, _⟩ :: rest => skipDocumentEnds rest
  | tokens => tokens

/-- Whether a document with a start of its own comes next. -/
def startsDocument (tokens : List Located) : Bool :=
  tokens.head?.any fun located =>
    located.token matches .version _ | .handle _ _ | .otherDirective | .documentStart

/-- The only document of a text, if there is one. -/
def ofTokens (tokens : List Located) : Except ReadFault (Option Node) := do
  if isNext [.streamEnd] tokens then return none
  let (node, _, rest) ←
    if startsDocument tokens then explicitDocument tokens
    else compose true false { handles := standardHandles } tokens
  if isNext [.streamEnd] (skipDocumentEnds rest) then return some node else .error .malformed

end Node

end LayeredConfig.Yaml
