import ChainHub.Hub.Error

/-!
# Fields of requests

Model of `parse_chain_id`, `parse_hash`, `parse_hashes` and `parse_token_id`.

Ids and hashes arrive as byte strings of any length and are checked before anything else.
-/

namespace ChainHub

/-- A chain id of the right length. -/
def parseChainId (bytes : Bytes) : Except HubError ChainId :=
  match FixedBytes.ofList? 4 bytes with
  | some id => .ok id
  | none => .error (.chainId (.length bytes.length))

/-- A hash of the right length. -/
def parseHash (bytes : Bytes) : Except HubError Digest :=
  match FixedBytes.ofList? 32 bytes with
  | some digest => .ok digest
  | none => .error (.hashLength bytes.length)

/-- Several hashes; the first one of another length decides the error. -/
def parseHashes (items : List Bytes) : Except HubError (List Digest) := items.mapM parseHash

/-- A token id of the right length. -/
def parseTokenId (bytes : Bytes) : Except HubError TokenId :=
  match FixedBytes.ofList? 8 bytes with
  | some id => .ok id
  | none => .error (.tokenIdLength bytes.length)

end ChainHub
