/-!
# The tokens of a YAML text

YAML is read in two steps: a scanner cuts the text into tokens, among them tokens for the
beginning and the end of blocks that only indentation shows, and a parser puts these together.
Two dialects are in use. Both agree on everything people ordinarily write.

## Main definitions

* `Yaml.Dialect` — the two readings of the corners of the language
* `Yaml.Style`, `Yaml.Token` — scalars and tokens
* `Yaml.Fault` — why a text cannot be read
-/

namespace PlatformProxy

namespace Yaml

/-- How the corners of the language are read: by version 1.1, or by version 1.2. -/
inductive Dialect
  | classic
  | modern
  deriving DecidableEq, Repr

/-- How a scalar is written. -/
inductive Style
  | plain
  | singleQuoted
  | doubleQuoted
  | literal
  | folded
  deriving DecidableEq, Repr

/-- A tag, before its handle is looked up. -/
structure TagToken where
  handle : List Char
  suffix : List Char
  deriving DecidableEq, Repr

inductive Token
  | streamEnd
  | versionDirective (major minor : Nat)
  | tagDirective (handle stem : List Char)
  | documentStart
  | documentEnd
  | blockSequenceStart
  | blockMappingStart
  | blockEnd
  | flowSequenceStart
  | flowSequenceEnd
  | flowMappingStart
  | flowMappingEnd
  | blockEntry
  | flowEntry
  | key
  | value
  | reference (name : List Char)
  | anchor (name : List Char)
  | tag (tag : TagToken)
  | scalar (text : List Char) (style : Style)
  deriving DecidableEq, Repr

/-- What is wrong, and on which line. -/
structure Fault where
  problem : String
  line : Nat
  deriving DecidableEq, Repr

end Yaml

end PlatformProxy
