import LayeredConfig.Yaml.Properties
import LayeredConfig.Yaml.Quoted

/-!
# From text to tokens

Tokens are found one after the other, together with the indentation that opens and closes block
collections. A node that might turn out to be a key is remembered, once for each level of flow
collections, until its colon is found or it can no longer be one.
-/

namespace LayeredConfig.Yaml

/-- A place where a key without a sign may have started. -/
structure Candidate where
  /-- The number of tokens in front of it. -/
  place : Nat
  required : Bool
  position : Position
  deriving Repr, Inhabited

structure Scanner where
  rest : List Char
  position : Position := {}
  /-- The tokens so far. -/
  tokens : Array Located := #[]
  /-- The columns of the open block collections, the innermost first. -/
  indents : List Nat := []
  keyAllowed : Bool := true
  /-- The candidate at block level. -/
  candidate : Option Candidate := none
  /-- The candidates of the open flow collections, the innermost first. -/
  flow : List (Option Candidate) := []
  deriving Inhabited

namespace Scanner

abbrev Result := Except ReadFault Scanner

def inFlow (s : Scanner) : Bool := !s.flow.isEmpty

/-- The column of the innermost block collection, or minus one. -/
def indent (s : Scanner) : Int := s.indents.head?.elim (-1) Int.ofNat

/-- Moves on to a rest of the text. -/
def moveTo (rest : List Char) (s : Scanner) : Scanner :=
  { s with rest, position := s.position.behind s.rest rest }

def push (token : Token) (start stop : Position) (s : Scanner) : Scanner :=
  { s with tokens := s.tokens.push ⟨token, start, stop⟩ }

/-- Adds a token that reaches from here to a rest of the text. -/
def take (token : Token) (rest : List Char) (s : Scanner) : Scanner :=
  let next := s.moveTo rest
  next.push token s.position next.position

/-! ## Keys -/

/-- The candidate of the innermost level. -/
def current (s : Scanner) : Option Candidate :=
  match s.flow with
  | [] => s.candidate
  | candidate :: _ => candidate

def setCurrent (candidate : Option Candidate) (s : Scanner) : Scanner :=
  match s.flow with
  | [] => { s with candidate }
  | _ :: outer => { s with flow := candidate :: outer }

/-- Gives up the candidate of the innermost level; a required one must not be lost. -/
def dropCurrent (s : Scanner) : Result :=
  if s.current.any (·.required) then .error .malformed else .ok (s.setCurrent none)

def isStale (s : Scanner) (candidate : Candidate) : Bool :=
  candidate.position.line != s.position.line || 1024 < s.position.index - candidate.position.index

/-- Gives up candidates on earlier lines and those that are too long. -/
def dropStale (s : Scanner) : Result :=
  if s.candidate.any fun c => c.required && s.isStale c then .error .malformed
  else .ok { s with
    candidate := s.candidate.filter (!s.isStale ·)
    flow := s.flow.map (·.filter (!s.isStale ·)) }

/-- Remembers that a key may start here. -/
def saveCandidate (s : Scanner) : Result :=
  if s.keyAllowed then do
    let s ← s.dropCurrent
    let required := !s.inFlow && s.indent == s.position.column
    return s.setCurrent (some ⟨s.tokens.size, required, s.position⟩)
  else .ok s

/-! ## Indentation -/

/-- Closes the block collections that are indented deeper. -/
def unwind (column : Int) (s : Scanner) : Scanner :=
  if s.inFlow then s
  else
    let closed := (s.indents.takeWhile fun indent => column < Int.ofNat indent).length
    { s with
      indents := s.indents.drop closed
      tokens := s.tokens ++ Array.replicate closed ⟨.blockEnd, s.position, s.position⟩ }

/-- Opens a block collection at a column, unless one is open there. -/
def openBlock (token : Token) (s : Scanner) : Scanner :=
  if s.indent < s.position.column then
    { s with indents := s.position.column :: s.indents }.push token s.position s.position
  else s

/-! ## Single tokens -/

/-- A sign between documents. -/
def documentMark (token : Token) (s : Scanner) : Result := do
  let s ← (s.unwind (-1)).dropCurrent
  return { s with keyAllowed := false }.take token (s.rest.drop 3)

def directive (s : Scanner) : Result := do
  let s ← (s.unwind (-1)).dropCurrent
  let (token, rest) ← directiveToken (s.rest.drop 1)
  return { s with keyAllowed := false }.take token rest

def openFlow (token : Token) (s : Scanner) : Result := do
  let s ← s.saveCandidate
  return { s with flow := none :: s.flow, keyAllowed := true }.take token (s.rest.drop 1)

def closeFlow (token : Token) (s : Scanner) : Result :=
  if s.inFlow then
    .ok ({ s with flow := s.flow.drop 1, keyAllowed := false }.take token (s.rest.drop 1))
  else .error .malformed

def flowEntry (s : Scanner) : Result := do
  let s ← s.dropCurrent
  return { s with keyAllowed := true }.take .flowEntry (s.rest.drop 1)

def blockEntry (s : Scanner) : Result := do
  if !s.inFlow && !s.keyAllowed then .error .malformed
  else
    let s := if s.inFlow then s else s.openBlock .blockSequenceStart
    let s ← s.dropCurrent
    return { s with keyAllowed := true }.take .blockEntry (s.rest.drop 1)

def explicitKey (s : Scanner) : Result := do
  if !s.inFlow && !s.keyAllowed then .error .malformed
  else
    let s := if s.inFlow then s else s.openBlock .blockMappingStart
    let s ← s.dropCurrent
    return { s with keyAllowed := !s.inFlow }.take .key (s.rest.drop 1)

/-- Puts the sign of a key, and of its mapping if that is new, in front of the candidate. -/
def confirmKey (candidate : Candidate) (s : Scanner) : Scanner :=
  let start := candidate.position
  let opens := !s.inFlow && decide (s.indent < start.column)
  let mappingSign := if opens then [⟨.blockMappingStart, start, start⟩] else []
  let signs := mappingSign ++ [⟨.key, start, start⟩]
  { s.setCurrent none with
    tokens := s.tokens.extract 0 candidate.place ++ signs.toArray ++
      s.tokens.extract candidate.place s.tokens.size
    indents := if opens then start.column :: s.indents else s.indents
    keyAllowed := false }

def value (s : Scanner) : Result := do
  match s.current with
  | some candidate => return (s.confirmKey candidate).take .value (s.rest.drop 1)
  | none =>
    if !s.inFlow && !s.keyAllowed then .error .malformed
    else
      let s := if s.inFlow then s else s.openBlock .blockMappingStart
      let s ← s.dropCurrent
      return { s with keyAllowed := !s.inFlow }.take .value (s.rest.drop 1)

/-- A token that may be a key, read behind its first character. -/
def node (read : List Char → Except ReadFault (Token × List Char)) (s : Scanner) : Result := do
  let s ← s.saveCandidate
  let (token, rest) ← read (s.rest.drop 1)
  return { s with keyAllowed := false }.take token rest

def block (folded : Bool) (s : Scanner) : Result := do
  let s ← s.dropCurrent
  let (text, rest) ← blockScalar folded s.indent (s.rest.drop 1)
  return { s with keyAllowed := true }.take (.scalar false (String.ofList text)) rest

def plain (s : Scanner) : Result := do
  let s ← s.saveCandidate
  let scalar := plainScalar s.inFlow (s.indent + 1) s.rest
  return { s with keyAllowed := scalar.crossed }.take
    (.scalar true (String.ofList scalar.text)) scalar.rest

/-- Whether a plain scalar may start here. -/
def startsPlain (s : Scanner) : Bool :=
  match s.rest with
  | [] => false
  | c :: rest =>
    !(isGap c || "-?:,[]\x7b\x7d#&*!|>'\"%@\x60".toList.contains c)
      || (!startsGap rest && (c == '-' || (!s.inFlow && (c == '?' || c == ':'))))

/-- The next token, at the first character of it. -/
def token (c : Char) (rest : List Char) (s : Scanner) : Result :=
  let lineStart := s.position.column == 0
  if c == '%' && lineStart then s.directive
  else if c == '-' && lineStart && startsSeparator s.rest then s.documentMark .documentStart
  else if c == '.' && lineStart && startsSeparator s.rest then s.documentMark .documentEnd
  else if c == '[' then s.openFlow .flowSequenceStart
  else if c == '\x7b' then s.openFlow .flowMappingStart
  else if c == ']' then s.closeFlow .flowSequenceEnd
  else if c == '\x7d' then s.closeFlow .flowMappingEnd
  else if c == ',' then s.flowEntry
  else if c == '-' && startsGap rest then s.blockEntry
  else if c == '?' && (s.inFlow || startsGap rest) then s.explicitKey
  else if c == ':' && (s.inFlow || startsGap rest) then s.value
  else if c == '*' then s.node fun t => (anchorName t).map fun (name, r) => (.alias name, r)
  else if c == '&' then s.node fun t => (anchorName t).map fun (name, r) => (.anchor name, r)
  else if c == '!' then s.node tagToken
  else if c == '|' && !s.inFlow then s.block false
  else if c == '>' && !s.inFlow then s.block true
  else if c == '\'' then
    s.node fun t => (quotedScalar false t).map fun (x, r) => (.scalar false (String.ofList x), r)
  else if c == '"' then
    s.node fun t => (quotedScalar true t).map fun (x, r) => (.scalar false (String.ofList x), r)
  else if s.startsPlain then s.plain
  else .error .malformed

/-! ## All tokens -/

/-- White space and comments: what follows them, and whether a line ended. -/
def skipBlank (text : List Char) : List Char × Bool :=
  let rest := text.dropWhile (· == ' ')
  let rest := if rest.head? == some '#' then rest.dropWhile (!isBreak ·) else rest
  match takeBreak? rest with
  | none => (rest, false)
  | some (_, after) =>
    if _h : after.length < text.length then ((skipBlank after).1, true) else (after, true)
termination_by text.length

/-- Moves on to the next token. -/
def skip (s : Scanner) : Scanner :=
  let isMark := s.position.index == 0 && s.rest.head? == some '\uFEFF'
  let s := if isMark then s.moveTo (s.rest.drop 1) else s
  let (rest, crossed) := skipBlank s.rest
  { s.moveTo rest with keyAllowed := s.keyAllowed || (crossed && !s.inFlow) }

/-- The end of the text closes what is open. -/
def finish (s : Scanner) : Result := do
  let s ← (s.unwind (-1)).dropCurrent
  return s.push .streamEnd s.position s.position

def run (s : Scanner) : Result :=
  match s.skip.dropStale with
  | .error fault => .error fault
  | .ok ready =>
    let ready := ready.unwind ready.position.column
    match ready.rest with
    | [] => ready.finish
    | c :: rest =>
      match ready.token c rest with
      | .error fault => .error fault
      | .ok next => if _h : next.rest.length < s.rest.length then run next else .error .malformed
termination_by s.rest.length

end Scanner

/-- The tokens of a text. -/
def scan (text : List Char) : Except ReadFault (List Located) :=
  (Scanner.run { rest := text }).map fun s => s.tokens.toList

end LayeredConfig.Yaml
