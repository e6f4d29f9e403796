import BuildTrace.Yaml.Tag

/-!
# YAML tokens

What a document says before anybody asks how it fits together: scalars, the marks between them, and
marks for the beginning and the end of what only the indentation tells.
-/

namespace BuildTrace.Yaml

/-- How a scalar is written. -/
inductive Style where
  /-- Without quotes. -/
  | plain
  /-- Between quotes. -/
  | quoted
  /-- As a block of lines. -/
  | block
  deriving DecidableEq, BEq

/-- A token of a document. -/
inductive Token where
  /-- The directive on the version. -/
  | version
  /-- The directive on what a handle of tags stands for. -/
  | handle (name lead : List Char)
  /-- The marker in front of a document. -/
  | documentStart
  /-- The marker behind a document. -/
  | documentEnd
  /-- The end of the last document. -/
  | streamEnd
  /-- A sequence begins, as the indentation tells. -/
  | blockSequence
  /-- A mapping begins, as the indentation tells. -/
  | blockMapping
  /-- What began with the indentation ends with it. -/
  | blockEnd
  /-- The bracket that opens a sequence. -/
  | openSequence
  /-- The bracket that closes a sequence. -/
  | closeSequence
  /-- The bracket that opens a mapping. -/
  | openMapping
  /-- The bracket that closes a mapping. -/
  | closeMapping
  /-- The dash in front of an item. -/
  | item
  /-- The comma behind an item. -/
  | comma
  /-- A key follows. -/
  | key
  /-- The value of the key follows. -/
  | value
  /-- The name for the value that follows. -/
  | anchor (name : List Char)
  /-- The value with the name. -/
  | reference (name : List Char)
  /-- The tag of the value that follows. -/
  | tag (handle suffix : List Char)
  /-- A scalar. -/
  | scalar (text : List Char) (style : Style)
  deriving DecidableEq

end BuildTrace.Yaml
