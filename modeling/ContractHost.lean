import ContractHost.Main
import ContractHost.Proofs.Boundary
import ContractHost.Proofs.Codec
import ContractHost.Proofs.Commitment
import ContractHost.Proofs.Conservation
import ContractHost.Proofs.Depth
import ContractHost.Proofs.Framing
import ContractHost.Proofs.Handover
import ContractHost.Proofs.History
import ContractHost.Proofs.Isolation
import ContractHost.Proofs.Logs
import ContractHost.Proofs.MergeLaws
import ContractHost.Proofs.NestedCall
import ContractHost.Proofs.Reply
import ContractHost.Proofs.Representation
import ContractHost.Proofs.Sequence
import ContractHost.Proofs.Spelling
import ContractHost.Proofs.Static
import ContractHost.Proofs.Storage
import ContractHost.Proofs.Totality
import ContractHost.Proofs.VisibleBalance
import ContractHost.Proofs.Warmth
import ContractHost.Proofs.WriteStatus
import ContractHost.Proofs.Course
import ContractHost.Proofs.Lookalike
import ContractHost.Proofs.Tandem
import ContractHost.Proofs.DepthLimit
import ContractHost.Proofs.Bound
import ContractHost.Proofs.GasUsed
import ContractHost.Proofs.MoreGas
