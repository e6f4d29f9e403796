import BuildTrace.Text.Base64
import BuildTrace.Yaml.Token

/-!
# YAML values

The values of a YAML document. A scalar is a text; what else it may be taken for depends on who
asks, on its tag, and on how it is written. Mappings are kept as they are written; what members one
has in the end is told by `Yaml.entries?`.
-/

namespace BuildTrace

/-- A YAML value. -/
inductive Yaml where
  /-- A scalar, how it is written, and its tag. -/
  | scalar (text : List Char) (style : Yaml.Style) (tag : Yaml.Tag)
  /-- A list of values. -/
  | sequence (items : List Yaml)
  /-- Keys with their values, as they are written. -/
  | mapping (members : List (Yaml × Yaml))
  deriving Inhabited, BEq

namespace Yaml

/-- The value where nothing is written. -/
def nothing : Yaml := scalar ['~'] .plain .absent

/-! ## Scalars that stand for nothing -/

/-- The words that stand for nothing. -/
def isNullWord (text : List Char) : Bool :=
  text = ['~'] || text.map Char.toLower = "null".toList

/-- The value is written as one that stands for nothing. -/
def looksNull : Yaml → Bool
  | scalar text style _ => style == .plain && (text.isEmpty || isNullWord text)
  | _ => false

/-- The value stands for nothing where a text, a list or a mapping is asked for. -/
def isNull : Yaml → Bool
  | scalar text style tag => tag == .null || (scalar text style tag).looksNull
  | _ => false

/-- The value stands for nothing where there need not be any. Then so does an empty block of
lines. -/
def isMissing : Yaml → Bool
  | scalar text style tag =>
    tag == .null || (text.isEmpty && style != .quoted) || (style == .plain && isNullWord text)
  | _ => false

/-! ## Texts, truth values and numbers -/

/-- The text of a scalar, whether or not it stands for nothing. -/
def string? : Yaml → Option String
  | scalar text _ tag =>
    match tag with
    | .binary => (Text.Base64.decode? text).map String.ofList
    | .null | .nonText _ => none
    | _ => some (String.ofList text)
  | _ => none

/-- The text of a scalar that stands for something, or that is a text by its tag. -/
def text? : Yaml → Option String
  | scalar text style tag =>
    let value := scalar text style tag
    if tag != .text && value.isNull then none else value.string?
  | _ => none

/-- The truth value a scalar may be taken for. -/
def bool? : Yaml → Option Bool
  | scalar text _ _ =>
    let small := String.ofList ((Text.trim text).map Char.toLower)
    if ["true", "yes", "y", "on"].contains small then some true
    else if ["false", "no", "n", "off"].contains small then some false
    else none
  | _ => none

/-- The number with the digits; underscores between them do not count. -/
def natOfDigits? (base : Nat) (digits : List Char) : Option Nat :=
  let digits := digits.filter (· != '_')
  if digits.isEmpty then none
  else
    digits.foldlM
      (fun n c =>
        (Text.hexDigit? c).bind fun d => if d < base then some (n * base + d) else none)
      0

/-- The number below `bound` a scalar may be taken for: in base ten, or in base sixteen, eight or
two behind `0x`, `0o` or `0b`. -/
def natBelow? (bound : Nat) : Yaml → Option Nat
  | scalar text _ _ =>
    let text := Text.trim text
    let unsigned := (Text.strip? ['+'] text).getD text
    let number :=
      match unsigned with
      | '0' :: c :: digits =>
        if c = 'x' ∨ c = 'X' then natOfDigits? 16 digits
        else if c = 'o' ∨ c = 'O' then natOfDigits? 8 digits
        else if c = 'b' ∨ c = 'B' then natOfDigits? 2 digits
        else natOfDigits? 10 unsigned
      | _ => natOfDigits? 10 unsigned
    number.filter (· < bound)
  | _ => none

end Yaml

end BuildTrace
