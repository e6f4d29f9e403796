import BuildTrace.Json.Basic
import BuildTrace.Text.Basic

/-!
# Records in documents

A record with known fields is written as an object or, where the format allows it, as a list of
its fields in order. Unknown keys of an object do not matter as long as their values may be
skipped, but no field may be given twice. In a list, fields may be missing at the end if there are
defaults for them.

The documents may be of any format that offers the operations of `Format`.
-/

namespace BuildTrace

/-- What a document says about a field. -/
inductive Document.Slot (ν : Type) where
  /-- The field has a value. -/
  | given (value : ν)
  /-- The object has no such key. -/
  | absent
  /-- The list is too short. -/
  | beyond

/-- A format of documents with values `ν`. -/
structure Document.Format (ν : Type) where
  /-- The members, if the value is an object. -/
  members? : ν → Option (List (String × ν))
  /-- The items, if the value is a list. -/
  items? : ν → Option (List ν)
  /-- The fields in order, if the value is a list that may stand for a record. -/
  positional? : ν → Option (List ν)
  /-- The text, if the value can be taken for one. -/
  text? : ν → Option String
  /-- The truth value, if the value can be taken for one. -/
  bool? : ν → Option Bool
  /-- The natural number of 64 bits, if the value can be taken for one. -/
  nat? : ν → Option Nat
  /-- The value stands for nothing. -/
  isNull : ν → Bool
  /-- The value may stand where nobody asks for one. -/
  mayBeSkipped : ν → Bool

namespace Document

namespace Slot

variable {ν α : Type}

/-- A field that must be given. -/
def required (read : ν → Option α) : Slot ν → Option α
  | given value => read value
  | _ => none

/-- A field that may be left out of an object, or stand for nothing. -/
def optional (f : Format ν) (read : ν → Option α) : Slot ν → Option (Option α)
  | given value => if f.isNull value then some none else (read value).map some
  | absent => some none
  | beyond => none

/-- A field that has a default. -/
def withDefault (default : α) (read : ν → Option α) : Slot ν → Option α
  | given value => read value
  | _ => some default

end Slot

namespace Format

variable {ν : Type}

/-- The slot of a key among the members of an object. -/
def slotOf? (members : List (String × ν)) (key : String) : Option (Slot ν) :=
  match members.filter (·.1 == key) with
  | [] => some .absent
  | [(_, value)] => some (.given value)
  | _ => none

/-- The slots of the fields, the items of a list taken in order. -/
def slotsOfItems? : (keys : List String) → (items : List ν) → Option (List (Slot ν))
  | [], [] => some []
  | [], _ :: _ => none
  | _ :: keys, [] => (slotsOfItems? keys []).map (.beyond :: ·)
  | _ :: keys, item :: items => (slotsOfItems? keys items).map (.given item :: ·)

/-- The slots of a record with the given keys. -/
def slots? (f : Format ν) (keys : List String) (value : ν) : Option (List (Slot ν)) :=
  match f.members? value with
  | some members =>
    let others := members.filter fun (key, _) => !keys.contains key
    if others.all fun (_, value) => f.mayBeSkipped value then keys.mapM (slotOf? members) else none
  | none => (f.positional? value).bind (slotsOfItems? keys)

/-- The items of a list, each of them read. -/
def list? (f : Format ν) {α : Type} (read : ν → Option α) (value : ν) : Option (List α) :=
  (f.items? value).bind (·.mapM read)

end Format

end Document

namespace Json

/-- The members, if the value is an object. -/
def members? : Json → Option (List (String × Json))
  | object members => some members
  | _ => none

/-- Whether the value is `null`. -/
def isNull : Json → Bool
  | null => true
  | _ => false

/-- The format of JSON documents. -/
def format : Document.Format Json where
  members? := members?
  items? := items?
  positional? := items?
  text? := text?
  bool? := bool?
  nat? := natBelow? Text.wordLimit
  isNull := isNull
  mayBeSkipped := fun _ => true

end Json

end BuildTrace
