import ChainLab.CometNode.Reference
import ChainLab.Lib.WriteAhead

/-! The private validator never signs two different messages for one height, round and step. -/

namespace ChainLab.CometNode

open ChainLab.Lib ChainLab.Types WriteAhead Relation CometBFT LawfulCometBFT

/-- Heights, rounds and steps in the order in which they are signed. -/
abbrev Position := Int ×ₗ Int ×ₗ Int

def position (height : Int64) (round : Int32) (step : Int8) : Position :=
  toLex (height.toInt, toLex (round.toInt, step.toInt))

def LastSignState.position (s : LastSignState) : Position := CometNode.position s.height s.round s.step

/-- The step of a message; a vote of another type has none. -/
def Message.step : Message → Int8
  | .vote v => (durableVoteStep v.type).toOption.getD 0
  | .proposal _ => validatorStepPropose

def Message.position : Message → Position
  | .vote v => CometNode.position v.height v.round (Message.vote v).step
  | .proposal p => CometNode.position p.height p.round validatorStepPropose

theorem position_inj {h h' : Int64} {r r' : Int32} {s s' : Int8} (heq : position h r s = position h' r' s') :
    h = h' ∧ r = r' ∧ s = s' := by
  have hpair := Prod.mk.inj (toLex.injective heq)
  have hrest := Prod.mk.inj (toLex.injective hpair.2)
  exact ⟨Int64.toInt_inj.mp hpair.1, Int32.toInt_inj.mp hrest.1, Int8.toInt_inj.mp hrest.2⟩

section Signing

variable [CometBFT] {key : PrivKey} {chainID : String}

/-- The state stores a message of this chain with its signature, or nothing. -/
def Genuine (key : PrivKey) (chainID : String) (s : LastSignState) : Prop :=
  s.signBytes = [] ∨ ∃ m : Message, m.position = s.position ∧ m.signBytes chainID = some s.signBytes ∧
    key.sign s.signBytes = .ok s.signature

theorem Genuine.sign {s : LastSignState} (h : Genuine key chainID s) (hbytes : s.signBytes ≠ []) :
    key.sign s.signBytes = .ok s.signature := by
  rcases h with hempty | ⟨-, -, -, hsign⟩
  · exact absurd hempty hbytes
  · exact hsign

/-- What a later state of the file may be. -/
structure Later (key : PrivKey) (chainID : String) (last next : LastSignState) : Prop where
  position : last.position < next.position
  genuine : Genuine key chainID next

/-- A message was answered: again from the state the validator had, or after the state was replaced. -/
structure Answered (key : PrivKey) (chainID : String) (before : DurablePrivValidator) (m : Message)
    (after : DurablePrivValidator) : Prop where
  position : m.position = after.state.position
  signBytes : m.signBytes chainID = some after.state.signBytes
  signature : m.signature = after.state.signature
  signed : key.sign after.state.signBytes = .ok after.state.signature
  stored : after = before ∨ after.file = after.state ∧ Later key chainID before.state after.state

/-- Nothing was answered, and the file at most moved ahead of the validator. -/
def Refused (key : PrivKey) (chainID : String) (before after : DurablePrivValidator) : Prop :=
  after = before ∨ ∃ next, Later key chainID before.state next ∧ after = { before with file := next }

/-- `persist` releases nothing it has not stored. -/
theorem persist_triple {before : DurablePrivValidator} {write : Write} {next : LastSignState}
    (h : Later key chainID before.state next) :
    Action.Triple (fun s => s = before) (persist write next) (fun _ s => s = { state := next, file := next })
      (fun _ => Refused key chainID before) := by
  cases write with
  | stored =>
    apply Action.Triple.modify
    rintro s -
    rfl
  | failed renamed text =>
    refine .bind (Q := fun _ => Refused key chainID before) (.modify ?_) fun _ => .fail fun _ hs => hs
    rintro s rfl
    split
    · exact .inr ⟨next, h, rfl⟩
    · exact .inl rfl

variable [LawfulCometBFT]

/-- The check answers that the position is the last one, whose message is stored, or a later one. -/
theorem checkHRS_spec {last : LastSignState} {height : Int64} {round : Int32} {step : Int8} {same : Bool}
    (h : checkHRS last height round step = .ok same) :
    if same = true then last.position = position height round step ∧ last.signBytes ≠ []
    else last.position < position height round step := by
  cases same with
  | true =>
    obtain ⟨rfl, rfl, rfl, hbytes⟩ := checkHRS_same h
    exact ⟨rfl, hbytes⟩
  | false =>
    have hlater := checkHRS_later h
    simpa [LastSignState.position, position, Prod.Lex.toLex_lt_toLex, Int64.lt_iff_toInt_lt, Int32.lt_iff_toInt_lt,
      Int8.lt_iff_toInt_lt, ← Int64.toInt_inj, ← Int32.toInt_inj] using hlater

/-! ### Votes -/

/-- A signature is not part of what is signed. -/
theorem voteSignBytes_signed (vote : Vote) (signature extensionSignature : List UInt8) :
    voteSignBytes chainID { vote with signature, extensionSignature } = voteSignBytes chainID vote := by
  rw [voteSignBytes, canonicalizeVote_signature, voteSignBytes]

/-- If two votes differ in their times only, then the new one at the other's time has the other's sign bytes. -/
theorem voteSignBytes_retimed {stored vote retimed : Vote} {now : Timestamp} {lastBytes signBytes : List UInt8}
    (hstored : voteSignBytes chainID stored = some lastBytes) (hsign : voteSignBytes chainID vote = some signBytes)
    (h : votesOnlyDifferByTimestamp now lastBytes signBytes vote = some retimed) :
    voteSignBytes chainID retimed = some lastBytes ∧ ∃ t, retimed = { vote with timestamp := t } := by
  simp only [votesOnlyDifferByTimestamp, Option.bind_eq_bind, Option.bind_eq_some_iff, Option.ite_none_right_eq_some,
    Option.some.injEq] at h
  obtain ⟨lastVote, hlastVote, newVote, hnewVote, hsame, rfl⟩ := h
  simp only [voteSignBytes, Option.bind_eq_bind, Option.bind_eq_some_iff] at hstored hsign
  obtain ⟨_, -, hmarshal⟩ := hstored
  obtain ⟨_, hcanonical, hmarshal'⟩ := hsign
  obtain rfl := Option.some.inj (hlastVote.symm.trans (unmarshalVote_of_marshalVote hmarshal))
  obtain rfl := Option.some.inj (hnewVote.symm.trans (unmarshalVote_of_marshalVote hmarshal'))
  have hrestored : { newVote with timestamp := lastVote.timestamp } = lastVote := by
    simp only [CanonicalVote.mk.injEq] at hsame
    obtain ⟨htype, hheight, hround, hid, -, hchain⟩ := hsame
    cases newVote
    cases lastVote
    simp_all
  have hagain := canonicalizeVote_timestamp lastVote.timestamp hcanonical
  rw [hrestored] at hagain
  exact ⟨Option.bind_eq_some_iff.mpr ⟨lastVote, hagain, hmarshal⟩, _, rfl⟩

/-- A vote that differs from the stored one in its time only is answered with the stored time, so that its
own sign bytes are the stored ones. -/
theorem reuseVote_spec {last : LastSignState} {now : Timestamp} {vote vote' : Vote} {step : Int8}
    {signBytes : List UInt8} (hlast : Genuine key chainID last) (hbytes : last.signBytes ≠ [])
    (hstep : durableVoteStep vote.type = .ok step) (hpos : last.position = position vote.height vote.round step)
    (hsign : voteSignBytes chainID vote = some signBytes) (h : reuseVote now last signBytes vote = .ok vote') :
    voteSignBytes chainID vote' = some last.signBytes ∧ vote'.signature = last.signature ∧
      vote'.type = vote.type ∧ vote'.height = vote.height ∧ vote'.round = vote.round := by
  unfold reuseVote at h
  split at h
  · next heq =>
    cases h
    refine ⟨?_, rfl, rfl, rfl, rfl⟩
    rw [← heq]
    exact (voteSignBytes_signed vote _ _).trans hsign
  · simp only [bind_ok, require_ok, pure_eq_ok, Except.ok.injEq] at h
    obtain ⟨retimed, hretimed, rfl⟩ := h
    obtain hempty | ⟨m, hm, hmbytes, -⟩ := hlast
    · exact absurd hempty hbytes
    -- the stored message has the step of a vote
    cases m with
    | proposal p =>
      have hp := (position_inj (hm.trans hpos)).2.2
      exfalso
      revert hstep
      rw [← hp]
      cases vote.type <;> decide
    | vote v =>
      obtain ⟨hown, t, rfl⟩ := voteSignBytes_retimed hmbytes hsign hretimed
      exact ⟨(voteSignBytes_signed _ _ _).trans hown, rfl, rfl, rfl, rfl⟩

theorem signVote_triple {before : DurablePrivValidator} (hbefore : Genuine key chainID before.state) (write : Write)
    (now : Timestamp) (vote : Vote) :
    Action.Triple (fun s => s = before) (signVote key chainID write now vote)
      (fun answer => Answered key chainID before (.vote answer)) (fun _ => Refused key chainID before) := by
  have hkeep : ∀ (e : GoError) (s : DurablePrivValidator), s = before → Refused key chainID before s :=
    fun _ _ hs => .inl hs
  refine .lift_bind (fun step hstep => ?_) (fun e _ => hkeep e)
  refine .read_bind fun s hs => ?_
  rw [hs]
  refine .lift_bind (fun same hsame => ?_) (fun e _ => hkeep e)
  refine .lift_bind (fun signBytes hbytes => ?_) (fun e _ => hkeep e)
  refine .lift_bind (fun extensionSignature _ => ?_) (fun e _ => hkeep e)
  have hbytes : voteSignBytes chainID vote = some signBytes := require_ok.mp hbytes
  have hstep : durableVoteStep vote.type = .ok step := hstep
  have hspec := checkHRS_spec hsame
  have hposition : (Message.vote vote).position = position vote.height vote.round step := by
    simp [Message.position, Message.step, hstep, Except.toOption]
  refine .ite (fun hcase => ?_) (fun hcase => ?_)
  · rw [if_pos hcase] at hspec
    refine .lift_bind (fun reused hreused => .pure ?_) (fun e _ => hkeep e)
    rintro s rfl
    obtain ⟨hown, hsignature, htype, hheight, hround⟩ :=
      reuseVote_spec hbefore hspec.2 hstep hspec.1 hbytes hreused
    refine ⟨?_, (voteSignBytes_signed reused _ _).trans hown, hsignature, hbefore.sign hspec.2, .inl rfl⟩
    rw [hspec.1, ← hposition]
    simp [Message.position, Message.step, htype, hheight, hround]
  · rw [if_neg hcase] at hspec
    refine .lift_bind (fun signature hsignature => ?_) (fun e _ => hkeep e)
    have hlater : Later key chainID before.state { height := vote.height, round := vote.round, step, signBytes
                                                   signature } :=
      ⟨hspec, .inr ⟨.vote vote, hposition, hbytes, hsignature⟩⟩
    refine .bind (.mapError (persist_triple hlater) fun _ _ hs => hs) fun _ => .pure ?_
    rintro s rfl
    exact ⟨hposition, (voteSignBytes_signed vote _ _).trans hbytes, rfl, hsignature, .inr ⟨rfl, hlater⟩⟩

/-! ### Proposals -/

theorem proposalSignBytes_signed (proposal : Proposal) (signature : List UInt8) :
    proposalSignBytes chainID { proposal with signature } = proposalSignBytes chainID proposal := by
  rw [proposalSignBytes, canonicalizeProposal_signature, proposalSignBytes]

theorem proposalSignBytes_retimed {stored proposal retimed : Proposal} {now : Timestamp}
    {lastBytes signBytes : List UInt8} (hstored : proposalSignBytes chainID stored = some lastBytes)
    (hsign : proposalSignBytes chainID proposal = some signBytes)
    (h : proposalsOnlyDifferByTimestamp now lastBytes signBytes proposal = some retimed) :
    proposalSignBytes chainID retimed = some lastBytes ∧ ∃ t, retimed = { proposal with timestamp := t } := by
  simp only [proposalsOnlyDifferByTimestamp, Option.bind_eq_bind, Option.bind_eq_some_iff,
    Option.ite_none_right_eq_some, Option.some.injEq] at h
  obtain ⟨lastProposal, hlastProposal, newProposal, hnewProposal, hsame, rfl⟩ := h
  simp only [proposalSignBytes, Option.bind_eq_bind, Option.bind_eq_some_iff] at hstored hsign
  obtain ⟨_, -, hmarshal⟩ := hstored
  obtain ⟨_, hcanonical, hmarshal'⟩ := hsign
  obtain rfl := Option.some.inj (hlastProposal.symm.trans (unmarshalProposal_of_marshalProposal hmarshal))
  obtain rfl := Option.some.inj (hnewProposal.symm.trans (unmarshalProposal_of_marshalProposal hmarshal'))
  have hrestored : { newProposal with timestamp := lastProposal.timestamp } = lastProposal := by
    simp only [CanonicalProposal.mk.injEq] at hsame
    obtain ⟨hheight, hround, hpol, hid, -, hchain⟩ := hsame
    cases newProposal
    cases lastProposal
    simp_all
  have hagain := canonicalizeProposal_timestamp lastProposal.timestamp hcanonical
  rw [hrestored] at hagain
  exact ⟨Option.bind_eq_some_iff.mpr ⟨lastProposal, hagain, hmarshal⟩, _, rfl⟩

theorem reuseProposal_spec {last : LastSignState} {now : Timestamp} {proposal proposal' : Proposal}
    {signBytes : List UInt8} (hlast : Genuine key chainID last) (hbytes : last.signBytes ≠ [])
    (hpos : last.position = position proposal.height proposal.round validatorStepPropose)
    (hsign : proposalSignBytes chainID proposal = some signBytes)
    (h : reuseProposal now last signBytes proposal = .ok proposal') :
    proposalSignBytes chainID proposal' = some last.signBytes ∧ proposal'.signature = last.signature ∧
      proposal'.height = proposal.height ∧ proposal'.round = proposal.round := by
  unfold reuseProposal at h
  split at h
  · next heq =>
    cases h
    refine ⟨?_, rfl, rfl, rfl⟩
    rw [← heq]
    exact (proposalSignBytes_signed proposal _).trans hsign
  · simp only [bind_ok, require_ok, pure_eq_ok, Except.ok.injEq] at h
    obtain ⟨retimed, hretimed, rfl⟩ := h
    obtain hempty | ⟨m, hm, hmbytes, -⟩ := hlast
    · exact absurd hempty hbytes
    -- the stored message has the step of a proposal
    cases m with
    | vote v =>
      have hvote : ∀ type, (durableVoteStep type).toOption.getD 0 ≠ validatorStepPropose := by
        intro type
        cases type <;> decide
      exact absurd (position_inj (hm.trans hpos)).2.2 (hvote v.type)
    | proposal p =>
      obtain ⟨hown, t, rfl⟩ := proposalSignBytes_retimed hmbytes hsign hretimed
      exact ⟨(proposalSignBytes_signed _ _).trans hown, rfl, rfl, rfl⟩

theorem signProposal_triple {before : DurablePrivValidator} (hbefore : Genuine key chainID before.state)
    (write : Write) (now : Timestamp) (proposal : Proposal) :
    Action.Triple (fun s => s = before) (signProposal key chainID write now proposal)
      (fun answer => Answered key chainID before (.proposal answer)) (fun _ => Refused key chainID before) := by
  have hkeep : ∀ (e : GoError) (s : DurablePrivValidator), s = before → Refused key chainID before s :=
    fun _ _ hs => .inl hs
  refine .read_bind fun s hs => ?_
  rw [hs]
  refine .lift_bind (fun same hsame => ?_) (fun e _ => hkeep e)
  refine .lift_bind (fun signBytes hbytes => ?_) (fun e _ => hkeep e)
  have hbytes : proposalSignBytes chainID proposal = some signBytes := require_ok.mp hbytes
  have hspec := checkHRS_spec hsame
  refine .ite (fun hcase => ?_) (fun hcase => ?_)
  · rw [if_pos hcase] at hspec
    refine .lift (fun s reused hs hreused => ?_) (fun s e hs _ => hkeep e s hs)
    subst hs
    obtain ⟨hown, hsignature, hheight, hround⟩ := reuseProposal_spec hbefore hspec.2 hspec.1 hbytes hreused
    refine ⟨?_, hown, hsignature, hbefore.sign hspec.2, .inl rfl⟩
    rw [hspec.1]
    simp [Message.position, hheight, hround]
  · rw [if_neg hcase] at hspec
    refine .lift_bind (fun signature hsignature => ?_) (fun e _ => hkeep e)
    have hlater : Later key chainID before.state { height := proposal.height, round := proposal.round,
                                                   step := validatorStepPropose, signBytes, signature } :=
      ⟨hspec, .inr ⟨.proposal proposal, rfl, hbytes, hsignature⟩⟩
    refine .bind (.mapError (persist_triple hlater) fun _ _ hs => hs) fun _ => .pure ?_
    rintro s rfl
    exact ⟨rfl, (proposalSignBytes_signed proposal _).trans hbytes, rfl, hsignature, .inr ⟨rfl, hlater⟩⟩

/-! ### Runs -/

/-- The record of a sign state. -/
def record (s : LastSignState) : Position × Option (List UInt8) := (s.position, some s.signBytes)

/-- The journal a node keeps: for each position the bytes that were signed. -/
def Node.journal (chainID : String) (node : Node) : Journal Position (Option (List UInt8)) where
  memory := node.state.map record
  file := record node.file
  released := node.released.map fun m => (m.position, m.signBytes chainID)

/-- What holds of a node at every moment. -/
structure Node.Sound (key : PrivKey) (chainID : String) (node : Node) : Prop where
  safe : Safe (node.journal chainID)
  file : Genuine key chainID node.file
  state : ∀ s ∈ node.state, Genuine key chainID s
  signed : ∀ m ∈ node.released, ∃ bytes, m.signBytes chainID = some bytes ∧ key.sign bytes = .ok m.signature

omit [CometBFT] [LawfulCometBFT] in
private theorem answer_ok {α : Type} {node : Node} {state : LastSignState} (hstate : node.state = some state)
    {message : α → Message} {call : Action DurablePrivValidator GoError α} {a : α} {after : DurablePrivValidator}
    (h : call { state, file := node.file } = (.ok a, after)) :
    node.answer message call =
      { state := some after.state, file := after.file, released := node.released ++ [message a] } := by
  simp [Node.answer, hstate, h, Except.toOption]

omit [CometBFT] [LawfulCometBFT] in
private theorem answer_err {α : Type} {node : Node} {state : LastSignState} (hstate : node.state = some state)
    {message : α → Message} {call : Action DurablePrivValidator GoError α} {e : GoError}
    {after : DurablePrivValidator} (h : call { state, file := node.file } = (.error e, after)) :
    node.answer message call = { state := some after.state, file := after.file, released := node.released } := by
  simp [Node.answer, hstate, h, Except.toOption]

omit [LawfulCometBFT] in
private theorem answered_sound {node : Node} (hnode : node.Sound key chainID) {state : LastSignState}
    (hstate : node.state = some state) {m : Message} {after : DurablePrivValidator}
    (h : Answered key chainID { state, file := node.file } m after) :
    Node.Sound key chainID { state := some after.state, file := after.file, released := node.released ++ [m] } := by
  have hmemory : (node.journal chainID).memory = some (record state) := by
    simp [Node.journal, hstate]
  have hentry : (m.position, m.signBytes chainID) = record after.state := by
    rw [h.position, h.signBytes]
    rfl
  have hsigned : ∀ m' ∈ node.released ++ [m], ∃ bytes, m'.signBytes chainID = some bytes ∧
      key.sign bytes = .ok m'.signature := by
    intro m' hm'
    rcases List.mem_append.mp hm' with hm' | hm'
    · exact hnode.signed m' hm'
    · rw [List.mem_singleton.mp hm', h.signature]
      exact ⟨_, h.signBytes, h.signed⟩
  rcases h.stored with rfl | ⟨hfile, hlater⟩
  · refine ⟨?_, hnode.file, ?_, hsigned⟩
    · have hstep := (Step.again hmemory).safe hnode.safe
      simpa [Node.journal, hstate, hentry] using hstep
    · rintro _ ⟨⟩
      exact hnode.state state hstate
  · refine ⟨?_, ?_, ?_, hsigned⟩
    · have hstep := (@Step.advance _ _ _ _ _ (record after.state) hmemory hlater.position).safe hnode.safe
      simpa [Node.journal, hfile, hentry] using hstep
    · rw [hfile]
      exact hlater.genuine
    · rintro _ ⟨⟩
      exact hlater.genuine

omit [LawfulCometBFT] in
private theorem refused_sound {node : Node} (hnode : node.Sound key chainID) {state : LastSignState}
    (hstate : node.state = some state) {after : DurablePrivValidator}
    (h : Refused key chainID { state, file := node.file } after) :
    Node.Sound key chainID { state := some after.state, file := after.file, released := node.released } := by
  have hmemory : (node.journal chainID).memory = some (record state) := by
    simp [Node.journal, hstate]
  rcases h with rfl | ⟨next, hlater, rfl⟩
  · rw [← hstate]
    exact hnode
  · refine ⟨?_, hlater.genuine, ?_, hnode.signed⟩
    · have hstep := (@Step.unconfirmed _ _ _ _ _ (record next) hmemory hlater.position).safe hnode.safe
      simpa [Node.journal, hstate] using hstep
    · rintro _ ⟨⟩
      exact hnode.state state hstate

omit [LawfulCometBFT] in
/-- A call keeps a node sound when it answers or refuses as the two signing functions do. -/
theorem Node.Sound.answer {α : Type} {node : Node} (hnode : node.Sound key chainID) {message : α → Message}
    {call : Action DurablePrivValidator GoError α}
    (hcall : ∀ before, Genuine key chainID before.state → Action.Triple (fun s => s = before) call
      (fun a => Answered key chainID before (message a)) (fun _ => Refused key chainID before)) :
    (node.answer message call).Sound key chainID := by
  cases hstate : node.state with
  | none =>
    have hdown : node.answer message call = node := by simp [Node.answer, hstate]
    rw [hdown]
    exact hnode
  | some state =>
    obtain ⟨hok, herr⟩ := hcall { state, file := node.file } (hnode.state state hstate) _ rfl
    cases hrun : call { state, file := node.file } with
    | mk outcome after =>
      cases outcome with
      | ok a =>
        rw [answer_ok hstate hrun]
        exact answered_sound hnode hstate (hok a after hrun)
      | error e =>
        rw [answer_err hstate hrun]
        exact refused_sound hnode hstate (herr e after hrun)

theorem Node.Sound.step {node : Node} (hnode : node.Sound key chainID) (event : Event) :
    (node.step key chainID event).Sound key chainID := by
  have hstopped : Node.Sound key chainID { node with state := none } := by
    refine ⟨Step.stop.safe hnode.safe, hnode.file, ?_, hnode.signed⟩
    rintro _ ⟨⟩
  cases event with
  | signVote write now vote =>
    exact hnode.answer fun before hbefore =>
      .mapError (signVote_triple hbefore write now vote) fun _ _ hs => hs
  | signProposal write now proposal =>
    exact hnode.answer fun before hbefore =>
      .mapError (signProposal_triple hbefore write now proposal) fun _ _ hs => hs
  | crash => exact hstopped
  | restart =>
    simp only [Node.step]
    split
    · next validator hload =>
      simp only [loadDurablePrivValidator, bind_ok, refuseIf_ok, exists_const, pure_eq_ok, Except.ok.injEq] at hload
      obtain ⟨-, rfl⟩ := hload
      refine ⟨Step.start.safe hnode.safe, hnode.file, ?_, hnode.signed⟩
      rintro _ ⟨⟩
      exact hnode.file
    · exact hstopped

theorem Node.Sound.run {node : Node} (hnode : node.Sound key chainID) (events : List Event) :
    (node.run key chainID events).Sound key chainID := by
  unfold Node.run
  exact List.foldlRecOn events _ hnode fun _ h event _ => h.step event

omit [LawfulCometBFT] in
/-- A node that has released nothing yet is sound, whatever genuine state its file holds. -/
theorem Node.sound_init {file : LastSignState} (hfile : Genuine key chainID file) :
    Node.Sound key chainID { state := none, file, released := [] } :=
  ⟨⟨.nil, fun _ hr => (List.not_mem_nil hr).elim, fun _ hs => (nomatch hs)⟩, hfile, fun _ hs => (nomatch hs),
    fun _ hm => (List.not_mem_nil hm).elim⟩

/-- Over any calls, failed writes, crashes and restarts, the released positions never decrease, there is one
message's sign bytes for each, and every signature is over the sign bytes of the message it came with. -/
theorem released_never_conflict (key : PrivKey) (chainID : String) (file : LastSignState)
    (hfile : Genuine key chainID file) (events : List Event) :
    let node := Node.run key chainID { state := none, file, released := [] } events
    (node.released.Pairwise fun earlier later => earlier.position ≤ later.position ∧
      (earlier.position = later.position → earlier.signBytes chainID = later.signBytes chainID)) ∧
    ∀ m ∈ node.released, ∃ bytes, m.signBytes chainID = some bytes ∧ key.sign bytes = .ok m.signature := by
  intro node
  have hnode : node.Sound key chainID := (Node.sound_init hfile).run events
  refine ⟨?_, hnode.signed⟩
  have hordered := hnode.safe.ordered
  simp only [Node.journal, List.pairwise_map] at hordered
  refine hordered.imp fun h => ⟨h.le, fun heq => ?_⟩
  exact congrArg Prod.snd (h.eq_of_eq heq)

end Signing

/-! ### A validator that crashes -/

section Crash

attribute [local instance] referenceCometBFT

/-- A key that signs short messages only. -/
def shortKey : PrivKey where
  sign bytes := if bytes.length < 4096 then .ok (bytes.take 64) else .error (newError "message too long")

def someBlock : BlockID where
  hash := List.replicate 32 7
  partSetHeader := { total := 1, hash := List.replicate 32 9 }

def proposalAt (height : Int64) (seconds : Nat) : Proposal where
  height := height
  round := 0
  polRound := -1
  blockID := someBlock
  timestamp := { seconds, nanos := 0 }

def voteAt (type : SignedMsgType) (blockID : BlockID) (seconds : Nat) : Vote where
  type := type
  height := 1
  round := 0
  blockID := blockID
  timestamp := { seconds, nanos := 0 }

/-- A height is proposed and prevoted. The write of the precommit fails after its rename and the process dies.
Asked again later, it answers with the stored precommit and its time, and refuses one for no block. A message
that the key does not sign is not released. -/
def crashed : Node :=
  Node.run shortKey "chainlab" { state := none, file := {}, released := [] }
    [.restart, .signProposal .stored ⟨0, 0⟩ (proposalAt 1 5), .signVote .stored ⟨0, 0⟩ (voteAt .prevote someBlock 6),
      .signVote (.failed true "sync") ⟨0, 0⟩ (voteAt .precommit someBlock 7), .crash, .restart,
      .signVote .stored ⟨0, 0⟩ (voteAt .precommit someBlock 9), .signVote .stored ⟨0, 0⟩ (voteAt .precommit {} 9),
      .signProposal .stored ⟨0, 0⟩ (proposalAt 2 5000), .signProposal .stored ⟨0, 0⟩ (proposalAt 2 12)]

theorem released_never_conflict_crashed :
    crashed.released.map (Message.signBytes "chainlab") =
      [proposalSignBytes "chainlab" (proposalAt 1 5), voteSignBytes "chainlab" (voteAt .prevote someBlock 6),
        voteSignBytes "chainlab" (voteAt .precommit someBlock 7), proposalSignBytes "chainlab" (proposalAt 2 12)] ∧
    (crashed.released.Pairwise fun earlier later => earlier.position ≤ later.position ∧
      (earlier.position = later.position → earlier.signBytes "chainlab" = later.signBytes "chainlab")) ∧
    ∀ m ∈ crashed.released, ∃ bytes, m.signBytes "chainlab" = some bytes ∧ shortKey.sign bytes = .ok m.signature :=
  have := referenceCometBFT_lawful
  ⟨by decide +kernel, released_never_conflict shortKey "chainlab" {} (.inl rfl) _⟩

end Crash

end ChainLab.CometNode
