import ChainHub.Hex

/-!
# Chain ids and names

Model of `mainchain_id`, `is_mainchain_id`, `chain_id_to_hex` and `is_valid_chain_name`.

The first byte of a chain id names its network. The hub of a network has the id that ends in three
zero bytes (its mainchain id); all other chains are sidechains.
-/

namespace ChainHub

namespace ChainId

/-- The id of the hub of a network. -/
def mainchain (network : UInt8) : ChainId := ⟨[network, 0, 0, 0], rfl⟩

/-- The network of a chain. -/
def network (id : ChainId) : UInt8 := id.toList.headD 0

/-- Whether the id is that of a hub. -/
def isMainchain (id : ChainId) : Bool := id.toList.drop 1 == [0, 0, 0]

/-- The id as shown in events and errors. -/
def toHex (id : ChainId) : String := Hex.encodePrefixed id.toList

end ChainId

/-- A digest as shown in events. -/
def Digest.toHex (digest : Digest) : String := Hex.encodePrefixed digest.toList

/-- The limit on the length of a chain name. -/
def maxChainNameLength : Nat := 40

/-- Whether a character may occur in a chain name. -/
def isChainNameChar (c : Char) : Bool := c.isLower || c.isDigit || "!@$&_.".toList.contains c

/-- Chain names are made of 1 to 40 characters from `a-z`, `0-9` and `!@$&_.`. -/
def isChainName (name : String) : Bool :=
  !name.isEmpty && name.utf8ByteSize ≤ maxChainNameLength && name.toList.all isChainNameChar

end ChainHub
