import ChainLab.Abci.Application
import ChainLab.Abci.BlockSteps
import ChainLab.Abci.JournalRuns
import ChainLab.Abci.Penalties
import ChainLab.Abci.Persisted
import ChainLab.Abci.Pools
import ChainLab.Abci.Proposals
import ChainLab.Abci.StateTree
import ChainLab.CometNode.DoubleSign
import ChainLab.Consensus.Quorum
import ChainLab.Contracts.CallGraph
import ChainLab.Contracts.Instructions
import ChainLab.Contracts.Token
import ChainLab.Core.BaseFee
import ChainLab.Core.Effects
import ChainLab.Core.Executor
import ChainLab.Core.Frames
import ChainLab.Core.Outcome
import ChainLab.Core.Receipts
import ChainLab.Core.Replay
import ChainLab.Lib.Action
import ChainLab.Lib.Bytes
import ChainLab.Lib.GoMap
import ChainLab.Lib.GoStrings
import ChainLab.Lib.Json
import ChainLab.Lib.MerkleLevels
import ChainLab.Lib.MerkleMap
import ChainLab.Lib.Outcome
import ChainLab.Lib.WriteAhead
import ChainLab.Node.Capacity
import ChainLab.Node.Certificates
import ChainLab.Node.Finality
import ChainLab.Node.Queries
import ChainLab.Proof.Binary
import ChainLab.Proof.SparseHistory
import ChainLab.Proof.SparseSoundness
import ChainLab.Rpc.Logs
import ChainLab.State.Storage
import ChainLab.State.StorageSize
