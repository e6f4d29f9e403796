import BuildTrace.Json.Record
import BuildTrace.Yaml.Basic

/-!
# Mappings in YAML documents

No key of a mapping may be written twice. The key `<<` stands for the members of other mappings,
which come behind the own ones and only with the keys that are not there yet; what is written later
comes first.
-/

namespace BuildTrace.Yaml

/-! ## Keys -/

mutual

/-- The value without how its scalars are written: what makes two keys the same. -/
def essence : Yaml → Yaml
  | scalar text _ tag => scalar text .plain tag
  | sequence items => sequence (essences items)
  | mapping members => mapping (memberEssences members)

/-- The items without how their scalars are written. -/
def essences : List Yaml → List Yaml
  | [] => []
  | item :: rest => essence item :: essences rest

/-- The members without how their scalars are written. -/
def memberEssences : List (Yaml × Yaml) → List (Yaml × Yaml)
  | [] => []
  | ⟨key, value⟩ :: rest => (essence key, essence value) :: memberEssences rest

end

/-- Members of a mapping, each with what makes its key the same as another. -/
abbrev Members := List (Yaml × Yaml × Yaml)

/-- The key stands for members of other mappings. -/
def isMergeKey : Yaml → Bool
  | scalar text style tag => text = ['<', '<'] && style == .plain && tag == .absent
  | _ => false

/-- The members that are not there yet, the first of the same key only. -/
def addMembers (own : Members) : Members → Members
  | [] => own
  | member :: rest =>
    if own.any (·.1 == member.1) then addMembers own rest else addMembers (own ++ [member]) rest

/-- No key is there twice. -/
def areDistinct : Members → Bool
  | [] => true
  | member :: rest => !rest.any (·.1 == member.1) && areDistinct rest

/-! ## Merging -/

mutual

/-- The members that the value of a merge key stands for. -/
def merged? : Yaml → Option Members
  -- Nothing is taken for an empty mapping.
  | scalar text style tag => if looksNull (scalar text style tag) then some [] else none
  | sequence items => mergedItems? items
  | mapping members => (split? members).map fun (own, others) => own ++ others

/-- The members that a list of mappings stands for, those of the last mapping first. -/
def mergedItems? : List Yaml → Option Members
  | [] => some []
  | item :: rest => do
    let members ← merged? item
    let more ← mergedItems? rest
    return more ++ members

/-- The members with keys of their own, and the members that merge keys stand for, those of the
last one first. -/
def split? : List (Yaml × Yaml) → Option (Members × Members)
  | [] => some ([], [])
  | ⟨key, value⟩ :: rest =>
    if isMergeKey key then do
      -- What is merged later comes first, and so takes precedence.
      let members ← merged? value
      let (own, others) ← split? rest
      return (own, others ++ members)
    else (split? rest).map fun (own, others) => ((essence key, key, value) :: own, others)

end

/-- The members of a mapping; nothing is taken for an empty one. -/
def entries? (value : Yaml) : Option (List (Yaml × Yaml)) :=
  match value with
  | mapping members =>
    (split? members).bind fun (own, others) =>
      if areDistinct own then some ((addMembers own others).map (·.2)) else none
  | _ => if value.isNull then some [] else none

/-- The members of a mapping whose keys are texts. -/
def members? (value : Yaml) : Option (List (String × Yaml)) :=
  value.entries?.bind (·.mapM fun (key, value) => key.text?.map (·, value))

/-- The items of a sequence; nothing is taken for an empty one, and so are no bytes. -/
def items? : Yaml → Option (List Yaml)
  | sequence items => some items
  | scalar text style tag =>
    let hasNoBytes := tag == .binary && Text.Base64.decode? text == some []
    if isNull (scalar text style tag) || hasNoBytes then some [] else none
  | _ => none

/-! ## Values that nobody asks for -/

/-- The scalar has a tag that it may have where nobody asks for it. -/
def isSoundScalar (value : Yaml) : Bool := value.isNull || value.string?.isSome

/-- The key is a mapping of a single value that has no key. It is taken for the member itself, so
nobody looks at what follows it. -/
def isMemberKey : Yaml → Bool
  | mapping [(scalar text _ _, _)] => text.isEmpty || isNullWord text
  | _ => false

/-- The value may stand where nobody asks for it: its tags and mappings are sound. -/
def isSound : (depth : Nat) → Yaml → Bool
  | 0, _ => false
  | _, scalar text style tag => isSoundScalar (scalar text style tag)
  | depth + 1, sequence items => items.all (isSound depth)
  | depth + 1, mapping members =>
    -- Only what is left of the members after merging is looked at.
    ((mapping members).entries?).any
      (·.all fun (key, value) => isSound depth key && (isMemberKey key || isSound depth value))

/-- The number of collections that may stand inside one another. -/
def depthLimit : Nat := 2000

/-- The format of YAML documents. -/
def format : Document.Format Yaml where
  members? := members?
  items? := items?
  positional? := fun _ => none
  text? := text?
  bool? := bool?
  nat? := natBelow? Text.wordLimit
  isNull := isMissing
  mayBeSkipped := isSound (depthLimit + 1)

end BuildTrace.Yaml
