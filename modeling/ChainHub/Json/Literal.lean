import ChainHub.Hex

/-!
# Text literals

What may stand between the quotes of a JSON text literal.

A literal without a backslash stands for its characters as they are, control characters included.
Once there is a backslash in it, a control character has to be escaped as well.

An escaped code beyond the basic plane is written in two halves. Other escapes may stand between
the halves, an unescaped character may not.

* `split?`: finds the closing quote.
* `decode?`: the text that a literal stands for.
* `length_lt_of_split?`: the text behind the closing quote is shorter.
-/

namespace ChainHub.Json.Literal

/-- Splits what follows the opening quote at the first quote that no backslash escapes. The
characters before it come as they are written; `letters` are those already passed, last first. -/
def split? : (letters : List Char) → List Char → Option (List Char × List Char)
  | _, [] => none
  | letters, '"' :: rest => some (letters.reverse, rest)
  | letters, '\\' :: c :: rest => split? (c :: '\\' :: letters) rest
  | letters, c :: rest => split? (c :: letters) rest

theorem length_lt_of_split? {letters input written rest : List Char}
    (h : split? letters input = some (written, rest)) : rest.length < input.length := by
  fun_induction split? letters input with
  | case1 => simp at h
  | case2 letters tail =>
    obtain ⟨-, rfl⟩ := Prod.mk.inj (Option.some.inj h)
    exact Nat.lt_succ_self _
  | case3 letters c tail ih =>
    have := ih h
    simp only [List.length_cons]
    omega
  | case4 letters c tail _ _ ih =>
    have := ih h
    simp only [List.length_cons]
    omega

/-- What a backslash and one more letter stand for. -/
def escaped? : Char → Option Char
  | '"' => some '"'
  | '\\' => some '\\'
  | '/' => some '/'
  | 'b' => some '\x08'
  | 'f' => some '\x0c'
  | 'n' => some '\n'
  | 'r' => some '\r'
  | 't' => some '\t'
  | _ => none

/-- The number of four hexadecimal digits. -/
def code? (a b c d : Char) : Option Nat := do
  let a ← Hex.digitValue? a
  let b ← Hex.digitValue? b
  let c ← Hex.digitValue? c
  let d ← Hex.digitValue? d
  return ((a * 16 + b) * 16 + c) * 16 + d

/-- Whether a code is the first half of a pair. -/
def isFirstHalf (code : Nat) : Bool := 0xD800 ≤ code && code < 0xDC00

/-- Whether a code is the second half of a pair. -/
def isSecondHalf (code : Nat) : Bool := 0xDC00 ≤ code && code < 0xE000

/-- The character that two halves make. -/
def joinHalves (first second : Nat) : Char :=
  Char.ofNat (0x10000 + (first - 0xD800) * 0x400 + (second - 0xDC00))

/-- Replaces the escapes of a literal. `letters` are the characters so far, last first; `half` is a
first half whose second one is still to come. -/
def unescape? : (letters : List Char) → (half : Option Nat) → List Char → Option (List Char)
  | letters, half, [] => if half.isNone then some letters.reverse else none
  | letters, half, '\\' :: 'u' :: a :: b :: c :: d :: rest =>
    match code? a b c d with
    | none => none
    | some code =>
      if isFirstHalf code then
        if half.isNone then unescape? letters (some code) rest else none
      else if isSecondHalf code then
        match half with
        | none => none
        | some first => unescape? (joinHalves first code :: letters) none rest
      else unescape? (Char.ofNat code :: letters) half rest
  | letters, half, '\\' :: c :: rest =>
    match escaped? c with
    | none => none
    | some c => unescape? (c :: letters) half rest
  | letters, half, c :: rest =>
    if half.isSome || c = '\\' || c.toNat < 0x20 then none else unescape? (c :: letters) half rest

/-- The text of a literal, from the characters between its quotes. -/
def decode? (written : List Char) : Option String :=
  if written.contains '\\' then (unescape? [] none written).map String.ofList
  else some (String.ofList written)

end ChainHub.Json.Literal
