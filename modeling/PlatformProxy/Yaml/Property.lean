import PlatformProxy.Text.Utf8
import PlatformProxy.Yaml.Cursor

/-!
# Directives, anchors and tags

What stands before a document or a node.

## Main definitions

* `Yaml.Scan.readDirective` — the version of the language, or what a tag handle stands for
* `Yaml.Scan.readAnchor` — the name of an anchor or an alias
* `Yaml.Scan.readTag` — a tag
-/

namespace PlatformProxy

namespace Yaml

namespace Scan

/-! ### Directives -/

/-- A number of at most nine digits. -/
def readVersionNumber : Scan Nat := do
  let digits ← takeWhile Char.isDigit
  match Text.readBounded (Nat.pow 10 9) digits with
  | .ok n => pure n
  | .error _ => fail "expected a version number"

/-- Characters of tags. -/
def isTagChar (inStem : Bool) (c : Char) : Bool :=
  isWordChar c || ";/?:@&=+$.%!~*'()".toList.contains c || (inStem && [',', '[', ']'].contains c)

/-- The characters of a tag. A run of escapes gives the bytes of a text. -/
def unescapeTag (escaped : Bytes) : List Char → Option (List Char)
  | '%' :: a :: b :: rest =>
    match Text.baseValue? 16 [a, b] with
    | none => none
    | some n => unescapeTag (UInt8.ofNat n :: escaped) rest
  | '%' :: _ => none
  | c :: rest => do
    let front ← (Utf8.decode escaped.reverse).toOption
    let rest ← unescapeTag [] rest
    pure (front ++ c :: rest)
  | [] => (Utf8.decode escaped.reverse).toOption

def readTagChars (inStem : Bool) : Scan (List Char) := do
  match unescapeTag [] (← takeWhile (isTagChar inStem)) with
  | some s => pure s
  | none => fail "bad escape in a tag"

/-- The handle of a tag: an exclamation mark, perhaps a word with another one behind it. A
directive needs the other one. -/
def readTagHandle (inDirective : Bool) : Scan (List Char) := do
  if (← peek 0) ≠ some '!' then fail "expected '!'"
  else
    skip 1
    let word ← takeWhile isWordChar
    if (← peek 0) = some '!' then
      skip 1
      pure ('!' :: word ++ ['!'])
    else if inDirective ∧ word ≠ [] then fail "expected '!'"
    else pure ('!' :: word)

/-- The end of a directive. -/
def endDirective : Scan Unit := do
  skipToLineEnd
  if !(← atLineEnd) then fail "expected the end of the line"
  let _ ← readBreak

def readDirective : Scan Unit := do
  skip 1
  let name ← takeWhile isWordChar
  if name = [] ∨ !(← gapAt 0) then fail "expected the name of a directive"
  let _ ← takeWhile isBlank
  if name = "YAML".toList then
    let major ← readVersionNumber
    if (← peek 0) ≠ some '.' then fail "expected '.'"
    skip 1
    let minor ← readVersionNumber
    emit (.versionDirective major minor)
    endDirective
  else if name = "TAG".toList then
    let handle ← readTagHandle true
    if !(← gapAt 0) then fail "expected a blank"
    let _ ← takeWhile isBlank
    let stem ← readTagChars true
    if !(← gapAt 0) then fail "expected a blank"
    emit (.tagDirective handle stem)
    endDirective
  else if (← dialect) = .classic then fail "unknown directive"
  else
    let d ← dialect
    let _ ← takeWhile fun c => !isBreak d c
    emit (.tagDirective [] [])

/-! ### Properties -/

def readAnchor : Scan (List Char) := do
  let d ← dialect
  skip 1
  match d with
  | .classic =>
    let name ← takeWhile isWordChar
    let follows := match ← peek 0 with
      | some c => ['?', ':', ',', ']', '}', '%', '@', '\x60'].contains c
      | none => false
    if name = [] ∨ !((← gapAt 0) || follows) then fail "bad name of an anchor" else pure name
  | .modern =>
    let name ← takeWhile fun c => !isBlank c && !isBreak d c && !isFlowIndicator c
    if name = [] then fail "bad name of an anchor" else pure name

def readTag : Scan TagToken := do
  let tag : TagToken ← (do
    if (← peek 1) = some '<' then
      skip 2
      let suffix ← readTagChars true
      if suffix = [] ∨ (← peek 0) ≠ some '>' then fail "bad tag"
      skip 1
      pure ⟨[], suffix⟩
    else
      let handle ← readTagHandle false
      if 1 < handle.length ∧ handle.getLast? = some '!' then
        let suffix ← readTagChars false
        if suffix = [] then fail "bad tag" else pure ⟨handle, suffix⟩
      else
        let suffix := handle.drop 1 ++ (← readTagChars false)
        pure (if suffix = [] then ⟨[], ['!']⟩ else ⟨['!'], suffix⟩))
  let s ← get
  let follows := match s.rest.head? with
    | some c => 0 < s.flowLevel && (c = ',' || (s.dialect = .modern && isFlowIndicator c))
    | none => true
  if (← gapAt 0) || follows then pure tag else fail "expected a gap after a tag"

end Scan

end Yaml

end PlatformProxy
