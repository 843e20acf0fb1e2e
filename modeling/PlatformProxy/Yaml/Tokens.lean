import PlatformProxy.Yaml.Property
import PlatformProxy.Yaml.ScalarText

/-!
# The tokens of a YAML text

Which token comes next is decided by one character, or by two or three at the beginning of a line.

## Main definitions

* `Yaml.Scan.next` — scan the next token
* `Yaml.tokenize` — all tokens of a text
-/

namespace PlatformProxy

namespace Yaml

namespace Scan

/-! ### Tokens -/

def fetchStreamEnd : Scan Unit := do
  unroll (-1)
  removeKey
  allowKey false
  emit .streamEnd

def fetchDirective : Scan Unit := do
  unroll (-1)
  removeKey
  allowKey false
  readDirective

def fetchDocumentMarker (t : Token) : Scan Unit := do
  unroll (-1)
  removeKey
  allowKey false
  skip 3
  emit t
  if t = .documentEnd ∧ (← dialect) = .modern then
    skipToLineEnd
    if !(← atLineEnd) then fail "trailing content after a document"

def fetchFlowStart (t : Token) : Scan Unit := do
  saveKey
  rollOneColumn
  modify fun s => { s with flowLevel := s.flowLevel + 1, keys := Cursor.noKey :: s.keys }
  allowKey true
  skip 1
  emit t

def fetchFlowEnd (t : Token) : Scan Unit := do
  removeKey
  modify fun s =>
    if 0 < s.flowLevel then { s with flowLevel := s.flowLevel - 1, keys := s.keys.tail } else s
  allowKey false
  skip 1
  emit t
  modify fun s => { s with adjacent := if 0 < s.flowLevel then some s.mark.index else none }

def fetchFlowEntry : Scan Unit := do
  removeKey
  allowKey true
  skip 1
  emit .flowEntry

def fetchBlockEntry : Scan Unit := do
  let s ← get
  if 0 < s.flowLevel then
    if s.dialect = .modern then fail "block sequence entries are not allowed within brackets"
  else
    if !s.keyAllowed then fail "block sequence entries are not allowed here"
    roll s.mark.column none .blockSequenceStart
  removeKey
  allowKey true
  skip 1
  emit .blockEntry
  let next ← peek 0
  if isLineEnd s.dialect next then rollOneColumn

def fetchKey : Scan Unit := do
  let s ← get
  if s.flowLevel = 0 then
    if !s.keyAllowed then fail "mapping keys are not allowed here"
    roll s.mark.column none .blockMappingStart
  removeKey
  allowKey (s.flowLevel = 0)
  skip 1
  emit .key

def fetchValue : Scan Unit := do
  let s ← get
  let candidate := s.keys.headD Cursor.noKey
  if candidate.isPossible then
    insert candidate.token .key
    roll candidate.mark.column (some candidate.token) .blockMappingStart
    modify fun s =>
      { s with keys := { candidate with isPossible := false } :: s.keys.tail }
    rollOneColumn
    allowKey false
  else
    if s.flowLevel = 0 then
      if !s.keyAllowed then fail "mapping values are not allowed here"
      roll s.mark.column none .blockMappingStart
    rollOneColumn
    allowKey (s.flowLevel = 0)
  skip 1
  emit .value

/-- Something that may be a key, read by the given reader. -/
def fetchNode (read : Scan Token) : Scan Unit := do
  saveKey
  allowKey false
  emit (← read)

def fetchBlockScalar (folded : Bool) : Scan Unit := do
  removeKey
  allowKey true
  let text ← readBlockScalar folded
  emit (.scalar text (if folded then .folded else .literal))

def fetchQuoted (double : Bool) : Scan Unit := fetchNode do
  let line := (← get).mark.line
  skip 1
  let text ← readQuoted double (← bound) []
  checkAfterQuoted line
  modify fun s => { s with adjacent := some s.mark.index }
  pure (.scalar text (if double then .doubleQuoted else .singleQuoted))

def fetchPlain : Scan Unit := fetchNode do
  let text ← readPlainScalar
  pure (.scalar text .plain)

/-- Whether a colon here separates a key from its value. -/
def colonIsValue : Scan Bool := do
  let s ← get
  if isGap s.dialect s.rest[1]? then pure true
  else if s.flowLevel = 0 then pure false
  else if s.dialect = .classic then pure true
  else
    let flowNext := match s.rest[1]? with
      | some n => isFlowIndicator n
      | none => true
    pure (flowNext || s.adjacent = some s.mark.index)

/-- Characters that cannot begin a plain scalar. -/
def isIndicator (d : Dialect) (c : Char) : Bool :=
  match d with
  | .classic => "-?:,[]\x7b\x7d#&*!|>'\"%@\x60".toList.contains c
  | .modern => ['%', '@', '\x60'].contains c

/-- The token of a character that no other rule covers. -/
def fetchOther (c : Char) : Scan Unit := do
  let s ← get
  let gap ← gapAt 1
  if !isIndicator s.dialect c || (c = '-' && !gap) ||
      (s.flowLevel = 0 && (c = '?' || c = ':') && !gap) then fetchPlain
  else fail "a character that cannot start any token"

/-- The token that begins with a character. -/
def fetchFrom (c : Char) : Scan Unit := do
  let s ← get
  let gap ← gapAt 1
  if c = '[' then fetchFlowStart .flowSequenceStart
  else if c = '{' then fetchFlowStart .flowMappingStart
  else if c = ']' then fetchFlowEnd .flowSequenceEnd
  else if c = '}' then fetchFlowEnd .flowMappingEnd
  else if c = ',' then fetchFlowEntry
  else if c = '-' ∧ gap then fetchBlockEntry
  else if c = '?' ∧ (gap ∨ (0 < s.flowLevel ∧ s.dialect = .classic)) then fetchKey
  else if c = ':' then
    if ← colonIsValue then fetchValue else fetchOther c
  else if c = '*' then fetchNode do pure (.reference (← readAnchor))
  else if c = '&' then fetchNode do pure (.anchor (← readAnchor))
  else if c = '!' then fetchNode do pure (.tag (← readTag))
  else if (c = '|' ∨ c = '>') ∧ s.flowLevel = 0 then fetchBlockScalar (c = '>')
  else if c = '\'' then fetchQuoted false
  else if c = '"' then fetchQuoted true
  else fetchOther c

/-- Scan the next token; whether it was the last. -/
def next : Scan Bool := do
  skipGap (← bound)
  dropStaleKeys
  unroll (← column)
  let s ← get
  match s.rest with
  | [] =>
    fetchStreamEnd
    pure true
  | c :: _ =>
    modify fun s => { s with atLineStart := false }
    if s.mark.column = 0 ∧ c = '%' then fetchDirective
    else if ← atDocumentMarker then
      fetchDocumentMarker (if c = '-' then .documentStart else .documentEnd)
    else if s.dialect = .modern ∧ (s.mark.column : Int) < s.indent then
      fail "bad indentation"
    else fetchFrom c
    pure false

/-- Scan tokens up to the end of the text. -/
def all : (fuel : Nat) → Scan Unit
  | 0 => fail "the text does not end"
  | fuel + 1 => do
    if ← next then pure () else all fuel

end Scan

/-- The tokens of a text. -/
def tokenize (dialect : Dialect) (text : List Char) : Except Fault (List Token) :=
  if dialect = .classic ∧ text.any isControl then .error ⟨"a control character", 0⟩
  else
    match (Scan.all (2 * text.length + 2)).run (Cursor.start dialect text) with
    | .error f => .error f
    | .ok ((), s) => .ok s.tokens.reverse

end Yaml

end PlatformProxy
