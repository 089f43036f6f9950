/-
# Rustee.Foundation.Json -- JSON values, and structs read from them

A number is what `serde_json` makes of its text: an unsigned or a negative integer of 64 bits,
or the bits of a float.  The fields of an object stand in the order of the text.

A struct is read from an object by the names of its fields, or from an array by their order.
A field may be missing, and it is up to its type what that means.
-/
import Rustee.Foundation.RustStd

namespace Rustee.Foundation

set_option autoImplicit false

inductive JsonNumber where
  | posInt (n : UInt64)
  | negInt (n : Int64)
  | float (bits : UInt64)
  deriving DecidableEq, Repr

inductive Json where
  | null
  | bool (value : Bool)
  | number (value : JsonNumber)
  | string (value : String)
  | array (items : List Json)
  | object (fields : List (String × Json))
  deriving Repr

namespace Json

/-! ## Structs -/

/-- The field of that name; a name that stands twice is an error. -/
def uniqueField (fields : List (String × Json)) (name : String) : Option (Option Json) :=
  match fields.filter fun field => field.1 = name with
  | [] => some none
  | [(_, value)] => some (some value)
  | _ => none

/-- The fields of a struct, in the order of its declaration. -/
def structFields (names : List String) : Json → Option (List (Option Json))
  | .object fields => names.mapM (uniqueField fields)
  | .array items => if items.length = names.length then some (items.map some) else none
  | _ => none

variable {α : Type}

/-- A field that must be there. -/
def required (read : Json → Option α) (field : Option Json) : Option α := field.bind read

/-- A field of an `Option` type. -/
def optional (read : Json → Option α) : Option Json → Option (Option α)
  | none | some .null => some none
  | some value => (read value).map some

/-- `Value::get` with a name; a parsed object holds each name once. -/
def get (value : Json) (name : String) : Option Json :=
  match value with
  | .object fields => (fields.find? fun field => field.1 = name).map Prod.snd
  | _ => none

/-! ## Values of one kind -/

def asString : Json → Option String
  | .string value => some value
  | _ => none

def asArray : Json → Option (List Json)
  | .array items => some items
  | _ => none

def isObject : Json → Bool
  | .object _ => true
  | _ => false

def asU64 : Json → Option UInt64
  | .number (.posInt n) => some n
  | _ => none

def asU16 (value : Json) : Option UInt16 :=
  value.asU64.bind fun n => if n ≤ 65535 then some n.toUInt16 else none

def ofU64 (n : UInt64) : Json := .number (.posInt n)

def ofU16 (n : UInt16) : Json := .ofU64 n.toUInt64

/-- `Option<String>`, written. -/
def ofOption : Option String → Json
  | none => .null
  | some text => .string text

@[simp] theorem required_some (read : Json → Option α) (value : Json) :
    required read (some value) = read value := rfl

@[simp] theorem optional_none (read : Json → Option α) : optional read none = some none := rfl

@[simp] theorem asString_string (text : String) : (string text).asString = some text := rfl

@[simp] theorem asU64_ofU64 (n : UInt64) : (ofU64 n).asU64 = some n := rfl

@[simp] theorem optional_ofOption (text : Option String) :
    optional asString (some (ofOption text)) = some text := by
  cases text <;> rfl

end Json

end Rustee.Foundation
