import ChainHub.Json
import ChainHub.Json.Literal
import ChainHub.Json.Number

/-!
# Reading JSON text

`Json.read?` reads one value that fills the whole text. Each step takes something from the front of
what is left and says that the rest is shorter (`Taken`), so reading comes to an end. Text nested
deeper than the given limit is refused.

Two rules are wider than the usual notation.

* In a list one item need not follow a comma. This is mostly the first one. In a list that begins
  with a comma it may be a later one: `[,1 2]` is `[1,2]`.
* Fields can be skipped. The value of a skipped field may have any words in it, up to the next
  comma or closing bracket; only its texts, lists and objects have to be well formed.
-/

namespace ChainHub.Json

/-- Something taken from the front of a text, and the rest, which is shorter. -/
structure Taken (α : Type) (input : List Char) where
  value : α
  rest : List Char
  shorter : rest.length < input.length

namespace Taken

/-- The same from a longer text. -/
def widen {α : Type} {input longer : List Char} (h : input.length ≤ longer.length)
    (t : Taken α input) : Taken α longer :=
  ⟨t.value, t.rest, Nat.lt_of_lt_of_le t.shorter h⟩

/-- The same with another value. -/
def map {α β : Type} {input : List Char} (f : α → β) (t : Taken α input) : Taken β input :=
  ⟨f t.value, t.rest, t.shorter⟩

end Taken

/-! ## Blanks, texts and words -/

/-- Whether a character may stand between the parts of a value. -/
def isBlank (c : Char) : Bool := c = ' ' || c = '\n' || c = '\r' || c = '\t'

/-- Drops the blanks at the front. -/
def dropBlanks (input : List Char) : List Char := input.dropWhile isBlank

theorem length_dropBlanks_le (input : List Char) : (dropBlanks input).length ≤ input.length :=
  (List.dropWhile_suffix isBlank).length_le

theorem length_lt_of_dropBlanks {input rest : List Char} {c : Char}
    (h : dropBlanks input = c :: rest) : rest.length < input.length := by
  have := length_dropBlanks_le input
  rw [h, List.length_cons] at this
  omega

/-- Takes a text literal. -/
def takeText? : (input : List Char) → Option (Taken String input)
  | '"' :: input =>
    match h : Literal.split? [] input with
    | none => none
    | some (written, rest) =>
      (Literal.decode? written).map fun value =>
        ⟨value, rest, Nat.lt_succ_of_lt (Literal.length_lt_of_split? h)⟩
  | _ => none

/-- Takes a constant or a number. -/
def takeWord? : (input : List Char) → Option (Taken Json input)
  | 'n' :: 'u' :: 'l' :: 'l' :: rest =>
    some ⟨.null, rest, by simp only [List.length_cons]; omega⟩
  | 't' :: 'r' :: 'u' :: 'e' :: rest =>
    some ⟨.bool true, rest, by simp only [List.length_cons]; omega⟩
  | 'f' :: 'a' :: 'l' :: 's' :: 'e' :: rest =>
    some ⟨.bool false, rest, by simp only [List.length_cons]; omega⟩
  | input =>
    match h : Number.split? input with
    | none => none
    | some (written, rest) =>
      some ⟨.number (String.ofList written), rest, Number.length_lt_of_split? h⟩

/-- Whether a character ends skipped words. -/
def endsSkipped (c : Char) : Bool := c = ',' || c = ']' || c = '\x7d'

/-- Takes the words of a skipped value. They count as `null`. -/
def takeSkipped? : (input : List Char) → Option (Taken Json input)
  | [] => none
  | c :: input =>
    if endsSkipped c then none
    else
      some ⟨.null, input.dropWhile fun c => !endsSkipped c,
        Nat.lt_succ_of_le (List.dropWhile_suffix _).length_le⟩

/-- Takes a field's name and the colon behind it. -/
def takeName? (input : List Char) : Option (Taken String input) :=
  match takeText? (dropBlanks input) with
  | none => none
  | some ⟨name, rest, hr⟩ =>
    match h : dropBlanks rest with
    | ':' :: rest' =>
      some ⟨name, rest', by
        have := length_lt_of_dropBlanks h
        have := length_dropBlanks_le input
        omega⟩
    | _ => none

/-! ## Lists and objects -/

/-- What follows in a list or an object: its end, or another member. -/
inductive Next (input : List Char)
  | close (rest : List Char) (shorter : rest.length < input.length)
  | member (rest : List Char) (isFree : Bool) (le : rest.length ≤ input.length)

/-- Looks for the next item. `isFree` tells whether an item may still come without a comma. -/
def nextItem? (isFree : Bool) (input : List Char) : Option (Next input) :=
  match h : dropBlanks input with
  | [] => none
  | ']' :: rest => some (.close rest (length_lt_of_dropBlanks h))
  | ',' :: rest => some (.member rest isFree (Nat.le_of_lt (length_lt_of_dropBlanks h)))
  | _ => if isFree then some (.member input false (Nat.le_refl _)) else none

/-- Looks for the next field. Only the first one comes without a comma. -/
def nextField? (isFirst : Bool) (input : List Char) : Option (Next input) :=
  match h : dropBlanks input with
  | [] => none
  | '\x7d' :: rest => some (.close rest (length_lt_of_dropBlanks h))
  | ',' :: rest =>
    if isFirst then none
    else some (.member rest false (Nat.le_of_lt (length_lt_of_dropBlanks h)))
  | _ => if isFirst then some (.member input false (Nat.le_refl _)) else none

/-- Which fields are skipped, by the names on the way to them, innermost first. -/
abbrev Skips := List String → Bool

/-- Where a value stands: the names on the way to it, whether it is being skipped, and how many
lists and objects may still be opened. -/
structure Place where
  path : List String
  isSkipped : Bool
  room : Nat

/-- The place of a field of an object. -/
def Place.field (skips : Skips) (place : Place) (name : String) : Place :=
  { place with
    path := name :: place.path
    isSkipped := place.isSkipped || skips (name :: place.path) }

mutual

/-- Takes a value. -/
def takeValue? (skips : Skips) (place : Place) (input : List Char) : Option (Taken Json input) :=
  match h : dropBlanks input with
  | '[' :: rest =>
    have := length_lt_of_dropBlanks h
    match place.room with
    | 0 => none
    | room + 1 =>
      (takeItems? skips { place with room } true [] rest).map fun t =>
        (t.map Json.array).widen (Nat.le_of_lt this)
  | '\x7b' :: rest =>
    have := length_lt_of_dropBlanks h
    match place.room with
    | 0 => none
    | room + 1 =>
      (takeFields? skips { place with room } true [] rest).map fun t =>
        (t.map Json.object).widen (Nat.le_of_lt this)
  | '"' :: _ =>
    (takeText? (dropBlanks input)).map fun t =>
      (t.map Json.text).widen (length_dropBlanks_le input)
  | _ =>
    let taken :=
      if place.isSkipped then takeSkipped? (dropBlanks input) else takeWord? (dropBlanks input)
    taken.map fun t => t.widen (length_dropBlanks_le input)
termination_by 2 * input.length

/-- Takes the items of a list and its closing bracket. `items` are those before, last first. -/
def takeItems? (skips : Skips) (place : Place) (isFree : Bool) (items : List Json)
    (input : List Char) : Option (Taken (List Json) input) :=
  match nextItem? isFree input with
  | none => none
  | some (.close rest h) => some ⟨items.reverse, rest, h⟩
  | some (.member rest isFree h) =>
    match takeValue? skips place rest with
    | none => none
    | some ⟨item, rest', h'⟩ =>
      have : rest'.length < input.length := Nat.lt_of_lt_of_le h' h
      (takeItems? skips place isFree (item :: items) rest').map fun t =>
        t.widen (Nat.le_of_lt this)
termination_by 2 * input.length + 1

/-- Takes the fields of an object and its closing bracket. `fields` are those before, last
first. -/
def takeFields? (skips : Skips) (place : Place) (isFirst : Bool) (fields : List (String × Json))
    (input : List Char) : Option (Taken (List (String × Json)) input) :=
  match nextField? isFirst input with
  | none => none
  | some (.close rest h) => some ⟨fields.reverse, rest, h⟩
  | some (.member rest isFirst h) =>
    match takeName? rest with
    | none => none
    | some ⟨name, rest₁, h₁⟩ =>
      have : rest₁.length < input.length := Nat.lt_of_lt_of_le h₁ h
      match takeValue? skips (place.field skips name) rest₁ with
      | none => none
      | some ⟨value, rest₂, h₂⟩ =>
        have : rest₂.length < input.length := Nat.lt_trans h₂ this
        (takeFields? skips place isFirst ((name, value) :: fields) rest₂).map fun t =>
          t.widen (Nat.le_of_lt this)
termination_by 2 * input.length + 1

end

/-- The value that a text stands for, with at most `limit` lists and objects around any value. -/
def read? (limit : Nat) (text : String) (skips : Skips := fun _ => false) : Option Json := do
  let taken ← takeValue? skips ⟨[], false, limit⟩ text.toList
  if (dropBlanks taken.rest).isEmpty then some taken.value else none

end ChainHub.Json
