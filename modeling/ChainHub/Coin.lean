/-!
# Coins

Model of `Coin` and `Uint128` as far as fees and payments use them.

Amounts are numbers of 128 bits; a sum that is larger is no amount.
-/

namespace ChainHub

/-- The least number that has more than 128 bits. -/
def amountLimit : Nat := 0x100000000000000000000000000000000

/-- An amount of tokens. -/
@[ext]
structure Amount where
  val : Nat
  val_lt : val < amountLimit
deriving DecidableEq

namespace Amount

/-- The amount of a number that is not too large. -/
def ofNat? (n : Nat) : Option Amount := if h : n < amountLimit then some ⟨n, h⟩ else none

/-- No tokens. -/
def zero : Amount := ⟨0, by decide⟩

instance : Inhabited Amount := ⟨zero⟩

/-- The sum of amounts, if it is one. -/
def sum? (amounts : List Amount) : Option Amount :=
  ofNat? (amounts.foldl (fun total a => total + a.val) 0)

/-- The amount written by decimal digits, after an optional plus sign. -/
def ofDigits? (text : String) : Option Amount :=
  let digits :=
    match text.toList with
    | '+' :: rest => rest
    | letters => letters
  if digits.isEmpty || !digits.all Char.isDigit then none
  else ofNat? (digits.foldl (fun n c => 10 * n + (c.toNat - 48)) 0)

/-- The amount as decimal digits. -/
def digits (a : Amount) : String := toString a.val

end Amount

/-- An amount of tokens of one denomination. -/
structure Coin where
  denom : String
  amount : Amount
deriving DecidableEq, Inhabited

/-- A coin as shown in attributes. -/
def Coin.text (coin : Coin) : String := coin.amount.digits ++ coin.denom

end ChainHub
