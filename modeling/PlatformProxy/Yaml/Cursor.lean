import PlatformProxy.Yaml.Token
import PlatformProxy.Text.Digit

/-!
# Moving through a YAML text

The state of cutting a text into tokens keeps the columns of the blocks that are open and, for
each level of brackets, the place of the last thing that may turn out to be a key. A key is
recognised only by the colon after it; its token, and the token for the beginning of its mapping,
are then put in before it.

## Main definitions

* `Yaml.Cursor` — the state
* `Yaml.Scan` — changes of the state that may fail
* `Yaml.Scan.saveKey`, `Yaml.Scan.removeKey` — candidates for keys
* `Yaml.Scan.roll`, `Yaml.Scan.unroll` — the beginning and the end of blocks
* `Yaml.Scan.skipGap` — blanks, comments and line ends

## Implementation notes

Every loop takes characters off the text, so the length of the text bounds them all.
-/

namespace PlatformProxy

namespace Yaml

/-! ### Characters -/

/-- Characters that end a line. -/
def isBreak (d : Dialect) (c : Char) : Bool :=
  c = '\n' || c = '\r' ||
    (d = .classic && (c = '\u0085' || c = '\u2028' || c = '\u2029'))

def isBlank (c : Char) : Bool := c = ' ' || c = '\t'

/-- The end of the text, a blank or the end of a line. -/
def isGap (d : Dialect) : Option Char → Bool
  | none => true
  | some c => isBlank c || isBreak d c

/-- The end of the text or of a line. -/
def isLineEnd (d : Dialect) : Option Char → Bool
  | none => true
  | some c => isBreak d c

/-- Characters of names. -/
def isWordChar (c : Char) : Bool := c.isAlphanum || c = '_' || c = '-'

/-- Brackets and the comma. -/
def isFlowIndicator (c : Char) : Bool := [',', '[', ']', '{', '}'].contains c

/-- Characters that the reader of the first dialect refuses. -/
def isControl (c : Char) : Bool :=
  !(c = '\t' || c = '\n' || c = '\r' || (' ' ≤ c && c ≤ '~') || c = '\u0085' ||
    ('\u00a0' ≤ c && c ≤ '\ufffd') || 0x10000 ≤ c.toNat)

/-! ### The state -/

/-- A place in the text. -/
structure Mark where
  index : Nat
  line : Nat
  column : Nat

/-- Something that may turn out to be a key: the number of its token and its place. -/
structure KeyCandidate where
  isPossible : Bool
  /-- Nothing else may stand here. -/
  isRequired : Bool
  token : Nat
  mark : Mark

/-- The column of an enclosing block. A column that only limits what follows belongs to no
block. -/
structure Enclosing where
  column : Int
  isBlock : Bool

structure Cursor where
  dialect : Dialect
  /-- The length of the whole text. -/
  size : Nat
  rest : List Char
  mark : Mark
  flowLevel : Nat
  /-- The column of the innermost block, or -1. -/
  indent : Int
  /-- Whether the innermost column belongs to a block, and the columns around it. -/
  enclosing : List Enclosing
  keyAllowed : Bool
  /-- Candidates for keys, the innermost level of brackets first. -/
  keys : List KeyCandidate
  /-- The tokens, the latest first. -/
  tokens : List Token
  /-- How many tokens there are. -/
  count : Nat
  /-- Where a colon needs no gap before what follows, as after a quoted key. -/
  adjacent : Option Nat
  /-- Only blanks have been seen on the line. -/
  atLineStart : Bool

namespace Cursor

def noKey : KeyCandidate := ⟨false, false, 0, ⟨0, 0, 0⟩⟩

def start (dialect : Dialect) (text : List Char) : Cursor :=
  { dialect
    size := text.length
    rest := text
    mark := ⟨0, 0, 0⟩
    flowLevel := 0
    indent := -1
    enclosing := []
    keyAllowed := true
    keys := [noKey]
    tokens := []
    count := 0
    adjacent := none
    atLineStart := true }

def push (s : Cursor) (t : Token) : Cursor :=
  { s with tokens := t :: s.tokens, count := s.count + 1 }

end Cursor

/-- Scanning changes the state or fails. -/
abbrev Scan (α : Type) : Type := StateT Cursor (Except Fault) α

namespace Scan

def fail {α : Type} (problem : String) : Scan α := do
  throw ⟨problem, (← get).mark.line⟩

def dialect : Scan Dialect := do pure (← get).dialect

def peek (n : Nat) : Scan (Option Char) := do pure (← get).rest[n]?

/-- More than the number of characters that are left. -/
def bound : Scan Nat := do pure ((← get).size + 1)

def column : Scan Int := do pure ((← get).mark.column : Int)

/-- Take characters off the current line. -/
def skip (n : Nat) : Scan Unit := modify fun s =>
  { s with
    rest := s.rest.drop n
    mark := ⟨s.mark.index + n, s.mark.line, s.mark.column + n⟩ }

/-- Take the end of a line; what it stands for in a scalar. -/
def readBreak : Scan (List Char) := do
  let s ← get
  let next (n : Nat) : Scan Unit := set
    { s with
      rest := s.rest.drop n
      mark := ⟨s.mark.index + n, s.mark.line + 1, 0⟩
      atLineStart := true }
  match s.rest with
  | '\r' :: '\n' :: _ => do
    next 2
    pure ['\n']
  | c :: _ => do
    next 1
    pure [if c = '\u2028' ∨ c = '\u2029' then c else '\n']
  | [] => pure []

/-- Take the longest run of characters with a property, which line ends do not have. -/
def takeWhile (p : Char → Bool) : Scan (List Char) := do
  let s ← get
  let run := s.rest.takeWhile p
  skip run.length
  pure run

def atLineEnd : Scan Bool := do pure (isLineEnd (← dialect) (← peek 0))

/-- Whether a gap begins after `n` characters. -/
def gapAt (n : Nat) : Scan Bool := do pure (isGap (← dialect) (← peek n))

/-- Whether a line of three equal characters begins here that separates documents. -/
def atDocumentMarker : Scan Bool := do
  let s ← get
  let three := s.rest.take 3
  pure (s.mark.column = 0 && (three = ['-', '-', '-'] || three = ['.', '.', '.']) &&
    isGap s.dialect s.rest[3]?)

def skipComment : Scan Unit := do
  if (← peek 0) = some '#' then
    let d ← dialect
    let _ ← takeWhile fun c => !isBreak d c

/-- Blanks and a comment up to the end of the line. -/
def skipToLineEnd : Scan Unit := do
  let _ ← takeWhile isBlank
  skipComment

/-! ### Tokens and keys -/

def emit (t : Token) : Scan Unit := modify fun s => s.push t

/-- Put a token in before the token of a number. -/
def insert (number : Nat) (t : Token) : Scan Unit := modify fun s =>
  { s with tokens := s.tokens.insertIdx (s.count - number) t, count := s.count + 1 }

def allowKey (allowed : Bool) : Scan Unit := modify fun s => { s with keyAllowed := allowed }

/-- Candidates that are too far away are keys no longer. -/
def dropStaleKeys : Scan Unit := do
  let s ← get
  let isStale (k : KeyCandidate) : Bool :=
    k.isPossible && (s.dialect = .classic || s.flowLevel = 0) &&
      (k.mark.line < s.mark.line || k.mark.index + 1024 < s.mark.index)
  if s.keys.any fun k => isStale k && k.isRequired then fail "could not find expected ':'"
  else
    set
      { s with
        keys := s.keys.map fun k => if isStale k then { k with isPossible := false } else k }

/-- The candidate of this level is a key no longer. -/
def removeKey : Scan Unit := do
  let s ← get
  match s.keys with
  | [] => pure ()
  | k :: rest =>
    if k.isPossible && k.isRequired then fail "could not find expected ':'"
    else set { s with keys := { k with isPossible := false } :: rest }

/-- What follows may turn out to be a key. -/
def saveKey : Scan Unit := do
  let s ← get
  if s.keyAllowed then
    let inBlock := match s.enclosing with
      | e :: _ => e.isBlock
      | [] => false
    let isRequired := s.flowLevel = 0 && s.indent = s.mark.column &&
      (s.dialect = .classic || inBlock)
    if s.dialect = .classic then removeKey
    modify fun s =>
      { s with keys := ⟨true, isRequired, s.count, s.mark⟩ :: s.keys.tail }

/-! ### Blocks -/

/-- A block begins at a column, unless it has begun already. Its token goes before the token of a
number, if one is given. -/
def roll (column : Int) (number : Option Nat) (t : Token) : Scan Unit := do
  let s ← get
  if s.flowLevel = 0 then
    let s := match s.enclosing with
      | e :: rest =>
        if s.indent ≤ column ∧ !e.isBlock then { s with indent := e.column, enclosing := rest }
        else s
      | [] => s
    set s
    if s.indent < column then
      set { s with indent := column, enclosing := ⟨s.indent, true⟩ :: s.enclosing }
      match number with
      | some n => insert n t
      | none => emit t

/-- Close the blocks to the right of a column, of those given. -/
def unrollFrom (column : Int) (s : Cursor) : List Enclosing → Cursor
  | [] => { s with enclosing := [] }
  | e :: rest =>
    if s.indent ≤ column then { s with enclosing := e :: rest }
    else
      let s := { s with indent := e.column }
      unrollFrom column (if e.isBlock then s.push .blockEnd else s) rest

/-- Close the blocks to the right of a column. -/
def unroll (column : Int) : Scan Unit := modify fun s =>
  if s.flowLevel = 0 then unrollFrom column s s.enclosing else s

/-- What follows has to be indented by one column more. Only the second dialect insists. -/
def rollOneColumn : Scan Unit := modify fun s =>
  match s.dialect, s.flowLevel, s.enclosing with
  | .modern, 0, e :: rest =>
    if e.isBlock then
      { s with indent := s.indent + 1, enclosing := ⟨s.indent, false⟩ :: e :: rest }
    else s
  | _, _, _ => s

/-- Forget columns that belong to no block. -/
def unrollColumns : Scan Unit := modify fun s =>
  match s.enclosing with
  | e :: rest => if e.isBlock then s else { s with indent := e.column, enclosing := rest }
  | [] => s

/-! ### Gaps -/

/-- Tabs are no indentation, but for lines without contents. -/
def checkTab : Scan Unit := do
  let s ← get
  if s.dialect = .modern ∧ s.flowLevel = 0 ∧ s.atLineStart ∧ 0 ≤ s.indent ∧
      (s.mark.column : Int) < s.indent then
    skipToLineEnd
    if !(← atLineEnd) then fail "tabs cannot indent a block"

/-- Pass over blanks, comments and line ends. -/
def skipGap : (fuel : Nat) → Scan Unit
  | 0 => pure ()
  | fuel + 1 => do
    let s ← get
    match s.rest with
    | [] => pure ()
    | c :: _ =>
      if c = '\ufeff' ∧ s.mark.column = 0 ∧ s.dialect = .classic then
        skip 1
        skipGap fuel
      else if c = ' ' then
        skip 1
        skipGap fuel
      else if c = '\t' ∧ (s.dialect = .modern ∨ 0 < s.flowLevel ∨ !s.keyAllowed) then
        checkTab
        let _ ← takeWhile (· = '\t')
        skipGap fuel
      else if c = '#' then
        skipComment
        skipGap fuel
      else if isBreak s.dialect c then
        let _ ← readBreak
        if s.flowLevel = 0 then allowKey true
        skipGap fuel
      else pure ()

end Scan

end Yaml

end PlatformProxy
