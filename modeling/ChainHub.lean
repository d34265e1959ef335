import ChainHub.Certificate.Signing
import ChainHub.Hub.AnswerJson
import ChainHub.Hub.Handlers
import ChainHub.Hub.Tracing
import ChainHub.Proofs.Hub.Frozen
import ChainHub.Proofs.Hub.Inbox
import ChainHub.Proofs.Hub.Monotone
import ChainHub.Proofs.Hub.Isolation
import ChainHub.Proofs.Hub.Trust
import ChainHub.Proofs.Hub.Phase
import ChainHub.Proofs.Hub.Coherent
import ChainHub.Proofs.Hex
import ChainHub.Proofs.Wire.Records
import ChainHub.Proofs.Hub.Log
import ChainHub.Proofs.Hub.Nonces
import ChainHub.Proofs.Hub.Pending
import ChainHub.Proofs.Hub.Split
import ChainHub.Proofs.Hub.Availability
import ChainHub.Proofs.Hub.Outbound
import ChainHub.Proofs.Hub.Handshake
import ChainHub.Proofs.Hub.Forwarding
import ChainHub.Proofs.Hub.Accounting
import ChainHub.Proofs.Hub.Snapshots
import ChainHub.Proofs.Merkle.Split
import ChainHub.Proofs.Sparse.Membership
import ChainHub.Proofs.Hub.StateRoot
import ChainHub.Proofs.Certificate.Signing
import ChainHub.Proofs.Commitment
import ChainHub.Proofs.Hub.Pages
import ChainHub.Proofs.Hub.Registry
import ChainHub.Proofs.Hub.Payment
import ChainHub.Proofs.Merkle.ProofLength
import ChainHub.Proofs.Merkle.Walk
import ChainHub.Proofs.Sparse.Faults
