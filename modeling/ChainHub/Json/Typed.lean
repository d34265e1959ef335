import ChainHub.Json

/-!
# Typed values

What readers of typed values are built from. They are strict: an object has every field that is
asked for, no field twice and no other field.
-/

namespace ChainHub.Json

/-- The number written by decimal digits without a leading zero, if it is below `bound`. -/
def natBelow? (bound : Nat) : Json → Option Nat
  | .number written => do
    guard (written.toList.all Char.isDigit)
    let n := (written.toList.map fun c => c.toNat - 48).foldl (fun n d => 10 * n + d) 0
    guard (n < bound)
    return n
  | _ => none

/-- A 64-bit number. -/
def u64? (json : Json) : Option UInt64 := (json.natBelow? UInt64.size).map UInt64.ofNat

/-- A 32-bit number. -/
def u32? (json : Json) : Option UInt32 := (json.natBelow? UInt32.size).map UInt32.ofNat

/-- A text. -/
def text? : Json → Option String
  | .text value => some value
  | _ => none

/-- A list of values that are all read by `item?`. -/
def list? {α : Type} (item? : Json → Option α) : Json → Option (List α)
  | .array items => items.mapM item?
  | _ => none

/-- A value that may be `null`. -/
def nullable? {α : Type} (value? : Json → Option α) : Json → Option (Option α)
  | .null => some none
  | json => (value? json).map some

/-- The fields of an object in which no name occurs twice. -/
def distinctFields? : Json → Option (List (String × Json))
  | .object fields => if (fields.map (·.1)).Nodup then some fields else none
  | _ => none

/-- The fields of an object that has no field twice and none but the named ones. -/
def fields? (names : List String) (json : Json) : Option (List (String × Json)) := do
  let fields ← json.distinctFields?
  if fields.all fun field => names.contains field.1 then some fields else none

/-- A field that must be present. -/
def field? {α : Type} (fields : List (String × Json)) (name : String)
    (value? : Json → Option α) : Option α :=
  (fields.lookup name).bind value?

/-- A field that may be absent or `null`. -/
def optional? {α : Type} (fields : List (String × Json)) (name : String)
    (value? : Json → Option α) : Option (Option α) :=
  match fields.lookup name with
  | none => some none
  | some json => json.nullable? value?

/-- An object with a single field: its name and value. -/
def single? : Json → Option (String × Json)
  | .object [field] => some field
  | _ => none

end ChainHub.Json
