import ChainLab.Lib.Action
import ChainLab.Types.Errors

/-! The private validator that keeps its last sign state in a file (`internal/cometnode`). What it calls of
CometBFT, and the private key, are parameters. -/

namespace ChainLab.CometNode

open ChainLab.Lib ChainLab.Types

/-! ### CometBFT -/

inductive SignedMsgType where
  | unknown | prevote | precommit | proposal
  deriving DecidableEq, Inhabited

structure PartSetHeader where
  total : UInt32 := 0
  hash : List UInt8 := []
  deriving DecidableEq

structure BlockID where
  hash : List UInt8 := []
  partSetHeader : PartSetHeader := {}
  deriving DecidableEq

/-- A `time.Time`, as far as its encoding shows it. -/
structure Timestamp where
  seconds : Int
  nanos : Nat
  deriving DecidableEq

/-- The fields of `cmtproto.Vote` that signing reads or sets. -/
structure Vote where
  type : SignedMsgType
  height : Int64
  round : Int32
  blockID : BlockID
  timestamp : Timestamp
  ext : List UInt8 := []
  signature : List UInt8 := []
  extensionSignature : List UInt8 := []

/-- The fields of `cmtproto.Proposal` that signing reads or sets. -/
structure Proposal where
  height : Int64
  round : Int32
  polRound : Int32
  blockID : BlockID
  timestamp : Timestamp
  signature : List UInt8 := []

structure CanonicalVote where
  type : SignedMsgType
  height : Int64
  round : Int64
  blockID : Option BlockID
  timestamp : Timestamp
  chainID : String
  deriving DecidableEq

structure CanonicalProposal where
  height : Int64
  round : Int64
  polRound : Int64
  blockID : Option BlockID
  timestamp : Timestamp
  chainID : String
  deriving DecidableEq

/-- `FilePVLastSignState`. The byte slices are nil exactly when they are empty. -/
structure LastSignState where
  height : Int64 := 0
  round : Int32 := 0
  step : Int8 := 0
  signature : List UInt8 := []
  signBytes : List UInt8 := []
  deriving DecidableEq

/-- What the validator calls of CometBFT. A panic is an error of `checkHRS` and `none` elsewhere. -/
class CometBFT where
  checkHRS : LastSignState → Int64 → Int32 → Int8 → Result Bool
  protoBlockIDIsNil : BlockID → Bool
  canonicalizeVote : String → Vote → Option CanonicalVote
  canonicalizeProposal : String → Proposal → Option CanonicalProposal
  /-- `MarshalDelimited`, of a canonical message. -/
  marshalVote : CanonicalVote → Option (List UInt8)
  marshalProposal : CanonicalProposal → Option (List UInt8)
  /-- `UnmarshalDelimited`. -/
  unmarshalVote : List UInt8 → Option CanonicalVote
  unmarshalProposal : List UInt8 → Option CanonicalProposal
  voteExtensionSignBytes : String → Vote → List UInt8

open CometBFT

/-- What CometBFT documents of these functions, as far as signing relies on it. -/
class LawfulCometBFT [CometBFT] : Prop where
  /-- `CheckHRS` returns true for the height, round and step of the last signature, when its sign bytes are
  kept. -/
  checkHRS_same {last : LastSignState} {height : Int64} {round : Int32} {step : Int8} :
    checkHRS last height round step = .ok true →
      last.height = height ∧ last.round = round ∧ last.step = step ∧ last.signBytes ≠ []
  /-- It returns an error when the height, the round or the step regresses, so false means that one of them
  advances. -/
  checkHRS_later {last : LastSignState} {height : Int64} {round : Int32} {step : Int8} :
    checkHRS last height round step = .ok false →
      last.height < height ∨ last.height = height ∧ (last.round < round ∨ last.round = round ∧ last.step < step)
  /-- The canonical form has the message's own time. -/
  canonicalizeVote_timestamp {chainID : String} {vote : Vote} {canonical : CanonicalVote} (t : Timestamp) :
    canonicalizeVote chainID vote = some canonical →
      canonicalizeVote chainID { vote with timestamp := t } = some { canonical with timestamp := t }
  canonicalizeProposal_timestamp {chainID : String} {proposal : Proposal} {canonical : CanonicalProposal}
    (t : Timestamp) : canonicalizeProposal chainID proposal = some canonical →
      canonicalizeProposal chainID { proposal with timestamp := t } = some { canonical with timestamp := t }
  /-- It has none of the signatures. -/
  canonicalizeVote_signature {chainID : String} {vote : Vote} (signature extensionSignature : List UInt8) :
    canonicalizeVote chainID { vote with signature, extensionSignature } = canonicalizeVote chainID vote
  canonicalizeProposal_signature {chainID : String} {proposal : Proposal} (signature : List UInt8) :
    canonicalizeProposal chainID { proposal with signature } = canonicalizeProposal chainID proposal
  /-- An encoding is read back as what was written. -/
  unmarshalVote_of_marshalVote {vote : CanonicalVote} {bytes : List UInt8} :
    marshalVote vote = some bytes → unmarshalVote bytes = some vote
  unmarshalProposal_of_marshalProposal {proposal : CanonicalProposal} {bytes : List UInt8} :
    marshalProposal proposal = some bytes → unmarshalProposal bytes = some proposal

/-- `crypto.PrivKey`. -/
structure PrivKey where
  sign : List UInt8 → Result (List UInt8)

/-! ### Signing -/

def validatorStepPropose : Int8 := 1
def validatorStepPrevote : Int8 := 2
def validatorStepPrecommit : Int8 := 3

/-- The state a running validator works from, and the state in its file. -/
structure DurablePrivValidator where
  state : LastSignState
  file : LastSignState

/-- How `writeSignStateAtomically` ends: done, or with an error met before or after the rename. -/
inductive Write where
  | stored
  | failed (renamed : Bool) (text : String)

/-- `loadDurablePrivValidator`, on a readable file. -/
def loadDurablePrivValidator (file : LastSignState) : Result DurablePrivValidator := do
  refuseIf (file.height < 0 ∨ file.round < 0 ∨ file.step < 0 ∨ file.step > validatorStepPrecommit)
    (newError "private validator state has an invalid height/round/step")
  return { state := file, file }

/-- `persist`. -/
def persist (write : Write) (next : LastSignState) : Action DurablePrivValidator GoError Unit :=
  match write with
  | .stored => Action.modify fun _ => { state := next, file := next }
  | .failed renamed text => do
    Action.modify fun validator => if renamed then { validator with file := next } else validator
    Action.fail (newError text)

/-- `durableVoteStep`. -/
def durableVoteStep : SignedMsgType → Result Int8
  | .prevote => .ok validatorStepPrevote
  | .precommit => .ok validatorStepPrecommit
  | .unknown => .error (newError "unknown vote type SIGNED_MSG_TYPE_UNKNOWN")
  | .proposal => .error (newError "unknown vote type SIGNED_MSG_TYPE_PROPOSAL")

section Signing

variable [CometBFT]

/-- `VoteSignBytes`, documented as the encoding of the canonical vote; `none` is its panic. -/
def voteSignBytes (chainID : String) (vote : Vote) : Option (List UInt8) :=
  canonicalizeVote chainID vote >>= marshalVote

/-- `ProposalSignBytes`, likewise. -/
def proposalSignBytes (chainID : String) (proposal : Proposal) : Option (List UInt8) :=
  canonicalizeProposal chainID proposal >>= marshalProposal

/-- `votesOnlyDifferByTimestamp`: the vote with the earlier time, if nothing else differs. -/
def votesOnlyDifferByTimestamp (now : Timestamp) (lastBytes newBytes : List UInt8) (vote : Vote) : Option Vote := do
  let lastVote ← unmarshalVote lastBytes
  let newVote ← unmarshalVote newBytes
  if { newVote with timestamp := now } = { lastVote with timestamp := now } then
    some { vote with timestamp := lastVote.timestamp }
  else none

/-- `proposalsOnlyDifferByTimestamp`. -/
def proposalsOnlyDifferByTimestamp (now : Timestamp) (lastBytes newBytes : List UInt8) (proposal : Proposal) :
    Option Proposal := do
  let lastProposal ← unmarshalProposal lastBytes
  let newProposal ← unmarshalProposal newBytes
  if { newProposal with timestamp := now } = { lastProposal with timestamp := now } then
    some { proposal with timestamp := lastProposal.timestamp }
  else none

/-- The signature over a precommit's extension. -/
def signExtension (key : PrivKey) (chainID : String) (vote : Vote) : Result (List UInt8) :=
  if vote.type = .precommit ∧ protoBlockIDIsNil vote.blockID = false then
    key.sign (voteExtensionSignBytes chainID vote)
  else do
    refuseIf (vote.ext.length > 0) (newError "unexpected vote extension outside a non-nil precommit")
    return []

/-- The vote to answer with when its height, round and step have been signed before. -/
def reuseVote (now : Timestamp) (last : LastSignState) (signBytes : List UInt8) (vote : Vote) : Result Vote :=
  if signBytes = last.signBytes then .ok { vote with signature := last.signature }
  else do
    let vote ← require (votesOnlyDifferByTimestamp now last.signBytes signBytes vote)
      (newError "conflicting vote data")
    return { vote with signature := last.signature }

/-- The proposal to answer with when its height and round have been signed before. -/
def reuseProposal (now : Timestamp) (last : LastSignState) (signBytes : List UInt8) (proposal : Proposal) :
    Result Proposal :=
  if signBytes = last.signBytes then .ok { proposal with signature := last.signature }
  else do
    let proposal ← require (proposalsOnlyDifferByTimestamp now last.signBytes signBytes proposal)
      (newError "conflicting proposal data")
    return { proposal with signature := last.signature }

/-- `signVote`, with the end of the write it may make and the time it may read. -/
def signVote (key : PrivKey) (chainID : String) (write : Write) (now : Timestamp) (vote : Vote) :
    Action DurablePrivValidator GoError Vote := do
  let step ← durableVoteStep vote.type
  let last ← Action.read DurablePrivValidator.state
  let sameHRS ← checkHRS last vote.height vote.round step
  let signBytes ← require (voteSignBytes chainID vote) (newError "panic: vote sign bytes")
  let extensionSignature ← signExtension key chainID vote
  if sameHRS = true then
    let reused ← reuseVote now last signBytes vote
    return { reused with extensionSignature }
  else
    let signature ← key.sign signBytes
    (persist write { height := vote.height, round := vote.round, step, signBytes, signature }).mapError
      (GoError.annotate "private validator state persistence failed while persisting signed vote: ")
    return { vote with signature, extensionSignature }

/-- `signProposal`. -/
def signProposal (key : PrivKey) (chainID : String) (write : Write) (now : Timestamp) (proposal : Proposal) :
    Action DurablePrivValidator GoError Proposal := do
  let last ← Action.read DurablePrivValidator.state
  let sameHRS ← checkHRS last proposal.height proposal.round validatorStepPropose
  let signBytes ← require (proposalSignBytes chainID proposal) (newError "panic: proposal sign bytes")
  if sameHRS = true then
    let reused ← reuseProposal now last signBytes proposal
    return reused
  else
    let signature ← key.sign signBytes
    (persist write { height := proposal.height, round := proposal.round, step := validatorStepPropose, signBytes
                     signature }).mapError
      (GoError.annotate "private validator state persistence failed while persisting signed proposal: ")
    return { proposal with signature }

/-- `SignVote`. -/
def signVoteRequest (key : PrivKey) (chainID : String) (write : Write) (now : Timestamp) (vote : Vote) :
    Action DurablePrivValidator GoError Vote :=
  (signVote key chainID write now vote).mapError (GoError.annotate "error signing vote: ")

/-- `SignProposal`. -/
def signProposalRequest (key : PrivKey) (chainID : String) (write : Write) (now : Timestamp) (proposal : Proposal) :
    Action DurablePrivValidator GoError Proposal :=
  (signProposal key chainID write now proposal).mapError (GoError.annotate "error signing proposal: ")

/-! ### Runs of a validator process -/

/-- A message whose signature has been handed to consensus. -/
inductive Message where
  | vote (vote : Vote)
  | proposal (proposal : Proposal)

def Message.signBytes (chainID : String) : Message → Option (List UInt8)
  | .vote v => voteSignBytes chainID v
  | .proposal p => proposalSignBytes chainID p

omit [CometBFT] in
def Message.signature : Message → List UInt8
  | .vote v => v.signature
  | .proposal p => p.signature

/-- A validator's machine: the running process, if any, the file, and the messages released, oldest first. -/
structure Node where
  state : Option LastSignState
  file : LastSignState
  released : List Message

/-- What can happen to it. A process that dies inside a call has met a failed write and then a crash. -/
inductive Event where
  | signVote (write : Write) (now : Timestamp) (vote : Vote)
  | signProposal (write : Write) (now : Timestamp) (proposal : Proposal)
  | crash
  | restart

/-- The answer of a call to the running process. -/
def Node.answer {α : Type} (node : Node) (message : α → Message) (call : Action DurablePrivValidator GoError α) : Node :=
  match node.state with
  | none => node
  | some state =>
    let (outcome, validator) := call { state, file := node.file }
    { state := some validator.state, file := validator.file
      released := node.released ++ (outcome.toOption.map message).toList }

def Node.step (key : PrivKey) (chainID : String) (node : Node) : Event → Node
  | .signVote write now vote => node.answer .vote (signVoteRequest key chainID write now vote)
  | .signProposal write now proposal => node.answer .proposal (signProposalRequest key chainID write now proposal)
  | .crash => { node with state := none }
  | .restart =>
    match loadDurablePrivValidator node.file with
    | .ok validator => { node with state := some validator.state }
    | .error _ => { node with state := none }

def Node.run (key : PrivKey) (chainID : String) (node : Node) (events : List Event) : Node :=
  events.foldl (Node.step key chainID) node

end Signing

end ChainLab.CometNode
