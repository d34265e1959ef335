/-!
# Written numbers

A JSON number has an optional minus sign, a whole part, and optionally a fraction and an exponent.
A whole part of several digits does not begin with zero: in `01` the number is over after the zero.

* `split?`: takes a number from the front of a text, as it is written.
* `length_lt_of_split?`: what is left is shorter.
-/

namespace ChainHub.Json.Number

/-- Takes all the digits at the front, at least one. -/
def digits? (input : List Char) : Option (List Char × List Char) :=
  match input.takeWhile Char.isDigit with
  | [] => none
  | digits => some (digits, input.dropWhile Char.isDigit)

/-- Takes a whole part: a zero, or digits that do not begin with one. -/
def whole? : List Char → Option (List Char × List Char)
  | '0' :: rest => some (['0'], rest)
  | input => digits? input

/-- Takes a fraction, if there is one. -/
def fraction? : List Char → Option (List Char × List Char)
  | '.' :: rest => (digits? rest).map fun (digits, rest) => ('.' :: digits, rest)
  | input => some ([], input)

/-- Takes a sign among `signs`, if there is one. -/
def splitSign (signs : List Char) : List Char → List Char × List Char
  | c :: rest => if signs.contains c then ([c], rest) else ([], c :: rest)
  | [] => ([], [])

/-- Takes an exponent, if there is one. -/
def exponent? : List Char → Option (List Char × List Char)
  | c :: rest =>
    if c = 'e' || c = 'E' then
      let signed := splitSign ['+', '-'] rest
      (digits? signed.2).map fun (digits, rest) => (c :: (signed.1 ++ digits), rest)
    else some ([], c :: rest)
  | [] => some ([], [])

/-- Takes a number. -/
def split? (input : List Char) : Option (List Char × List Char) := do
  let signed := splitSign ['-'] input
  let (whole, rest) ← whole? signed.2
  let (fraction, rest) ← fraction? rest
  let (exponent, rest) ← exponent? rest
  return (signed.1 ++ whole ++ fraction ++ exponent, rest)

/-! ## Nothing is lost -/

theorem digits?_append {input digits rest : List Char} (h : digits? input = some (digits, rest)) :
    digits ++ rest = input ∧ digits ≠ [] := by
  unfold digits? at h
  split at h
  · simp at h
  · next hne =>
    obtain ⟨rfl, rfl⟩ := Prod.mk.inj (Option.some.inj h)
    exact ⟨List.takeWhile_append_dropWhile, hne⟩

theorem whole?_append {input whole rest : List Char} (h : whole? input = some (whole, rest)) :
    whole ++ rest = input ∧ whole ≠ [] := by
  unfold whole? at h
  split at h
  · obtain ⟨rfl, rfl⟩ := Prod.mk.inj (Option.some.inj h)
    exact ⟨rfl, List.cons_ne_nil _ _⟩
  · exact digits?_append h

theorem fraction?_append {input part rest : List Char} (h : fraction? input = some (part, rest)) :
    part ++ rest = input := by
  unfold fraction? at h
  split at h
  · obtain ⟨⟨digits, tail⟩, hd, he⟩ := Option.map_eq_some_iff.mp h
    obtain ⟨rfl, rfl⟩ := Prod.mk.inj he
    rw [List.cons_append, (digits?_append hd).1]
  · obtain ⟨rfl, rfl⟩ := Prod.mk.inj (Option.some.inj h)
    rfl

theorem splitSign_append (signs input : List Char) :
    (splitSign signs input).1 ++ (splitSign signs input).2 = input := by
  unfold splitSign
  split
  · split <;> rfl
  · rfl

theorem exponent?_append {input part rest : List Char} (h : exponent? input = some (part, rest)) :
    part ++ rest = input := by
  unfold exponent? at h
  split at h
  · split at h
    · obtain ⟨⟨digits, tail⟩, hd, he⟩ := Option.map_eq_some_iff.mp h
      obtain ⟨rfl, rfl⟩ := Prod.mk.inj he
      rw [List.cons_append, List.append_assoc, (digits?_append hd).1, splitSign_append]
    · obtain ⟨rfl, rfl⟩ := Prod.mk.inj (Option.some.inj h)
      rfl
  · obtain ⟨rfl, rfl⟩ := Prod.mk.inj (Option.some.inj h)
    rfl

/-- A number is what is taken off the front, and it is not empty. -/
theorem split?_append {input written rest : List Char} (h : split? input = some (written, rest)) :
    written ++ rest = input ∧ written ≠ [] := by
  unfold split? at h
  simp only [Option.bind_eq_bind, Option.bind_eq_some_iff, Option.pure_def] at h
  obtain ⟨⟨whole, rest₁⟩, hw, ⟨fraction, rest₂⟩, hf, ⟨exponent, rest₃⟩, he, h⟩ := h
  obtain ⟨rfl, rfl⟩ := Prod.mk.inj (Option.some.inj h)
  obtain ⟨hw, hne⟩ := whole?_append hw
  have hf := fraction?_append hf
  have he := exponent?_append he
  constructor
  · rw [List.append_assoc, List.append_assoc, List.append_assoc, he, hf, hw, splitSign_append]
  · simp [hne]

theorem length_lt_of_split? {input written rest : List Char}
    (h : split? input = some (written, rest)) : rest.length < input.length := by
  obtain ⟨rfl, hne⟩ := split?_append h
  have := List.length_pos_iff.mpr hne
  rw [List.length_append]
  omega

end ChainHub.Json.Number
