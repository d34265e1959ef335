import ChainHub.Hex

/-!
# JSON values

The value type of request and answer texts, and its printer. Numbers keep the text they were
written with, so that a reader of a typed value sees whether it was written as a plain integer.

* `Json`: a value. Objects keep the order of their fields and repeated names.
* `Json.render`: its text, without blanks.
-/

namespace ChainHub

/-- A JSON value. -/
inductive Json
  | null
  | bool (value : Bool)
  /-- A number, by the text it was written with. -/
  | number (written : String)
  | text (value : String)
  | array (items : List Json)
  | object (fields : List (String × Json))
deriving Inhabited

namespace Json

/-- An integer. -/
def ofNat (n : Nat) : Json := .number (toString n)

/-- A 64-bit integer. -/
def ofU64 (n : UInt64) : Json := ofNat n.toNat

/-- A value that may be absent. -/
def ofOption {α : Type} (encode : α → Json) : Option α → Json
  | none => .null
  | some a => encode a

/-- A list, item by item. -/
def ofList {α : Type} (encode : α → Json) (items : List α) : Json := .array (items.map encode)

/-- A character inside a text. -/
def escape (c : Char) : List Char :=
  if c = '"' then ['\\', '"']
  else if c = '\\' then ['\\', '\\']
  else if c = '\n' then ['\\', 'n']
  else if c = '\r' then ['\\', 'r']
  else if c = '\t' then ['\\', 't']
  else if c.toNat < 0x20 then
    ['\\', 'u', '0', '0', Hex.digit (c.toNat / 16), Hex.digit (c.toNat % 16)]
  else [c]

/-- A text between double quotes. -/
def quote (value : String) : String :=
  "\"" ++ String.ofList (value.toList.flatMap escape) ++ "\""

mutual

/-- The text of a value. -/
def render : Json → String
  | .null => "null"
  | .bool true => "true"
  | .bool false => "false"
  | .number written => written
  | .text value => quote value
  | .array items => "[" ++ ",".intercalate (renderItems items) ++ "]"
  | .object fields => "\x7b" ++ ",".intercalate (renderFields fields) ++ "\x7d"

/-- The texts of array items. -/
def renderItems : List Json → List String
  | [] => []
  | item :: items => item.render :: renderItems items

/-- The texts of object fields. -/
def renderFields : List (String × Json) → List String
  | [] => []
  | (name, value) :: fields => (quote name ++ ":" ++ value.render) :: renderFields fields

end

end Json

end ChainHub
