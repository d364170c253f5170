import Mathlib

/-! JSON values as nlohmann::json holds them.
An integer keeps the signedness it was read with, and an object keeps its fields in the
order of their keys. The conversions of a number with a fraction are parameters: C++ leaves
those undefined that do not fit. -/

inductive Json where
  | null
  | boolean (b : Bool)
  | integer (v : BitVec 64)
  | unsigned (v : BitVec 64)
  | float (bits : BitVec 64)
  | string (s : String)
  | array (items : List Json)
  | object (fields : List (String × Json))

namespace Json

/-- `static_cast` of a double to the integer types that are read. -/
structure Casts where
  toUint64 : BitVec 64 → BitVec 64
  toInt : BitVec 64 → BitVec 32

def isObject : Json → Bool
  | object _ => true
  | _ => false

def isArray : Json → Bool
  | array _ => true
  | _ => false

def empty : Json → Bool
  | null => true
  | array items => items.isEmpty
  | object fields => fields.isEmpty
  | _ => false

/-- `size` of an object. -/
def size : Json → Nat
  | object fields => fields.length
  | _ => 0

def find (fields : List (String × Json)) (key : String) : Option Json :=
  (fields.find? fun f => f.1 = key).map Prod.snd

/-- `at`, or `none` where it throws. -/
def at? (j : Json) (key : String) : Option Json :=
  match j with
  | object fields => find fields key
  | _ => none

def contains (j : Json) (key : String) : Bool := (j.at? key).isSome

/-- `operator[]` of an object; a key that is not there gets a null. -/
def item (j : Json) (key : String) : Json := (j.at? key).getD null

/-- Comparison with a string. -/
def isString (j : Json) (s : String) : Bool :=
  match j with
  | string t => t = s
  | _ => false

/-- `get<uint64_t>`, or `none` where it throws. -/
def getUint64 (casts : Casts) : Json → Option (BitVec 64)
  | integer v | unsigned v => some v
  | float bits => some (casts.toUint64 bits)
  | _ => none

/-- `get<int>`, which takes a boolean too. -/
def getInt (casts : Casts) : Json → Option (BitVec 32)
  | integer v | unsigned v => some (v.setWidth 32)
  | float bits => some (casts.toInt bits)
  | boolean b => some (BitVec.ofNat 32 b.toNat)
  | _ => none

/-- `value(key, fallback)` of type `int`: no object and no number throw. -/
def valueInt (casts : Casts) (j : Json) (key : String) (fallback : BitVec 32) :
    Option (BitVec 32) :=
  match j with
  | object fields =>
    match find fields key with
    | some v => v.getInt casts
    | none => some fallback
  | _ => none

end Json
