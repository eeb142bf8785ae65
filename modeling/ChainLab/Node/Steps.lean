import ChainLab.Node.Operations

/-! What each operation of the lab node can do to it: the fields it may write when it succeeds, and that an error
leaves everything but the halt error and the disk as it was. -/

namespace ChainLab.Node

open ChainLab.Lib ChainLab.Types ChainLab.Crypto ChainLab.State ChainLab.Core ChainLab.Consensus
open Relation (ReflTransGen)

/-- Only the halt error and what concerns the disk may differ. -/
def Stalled (n n' : LabNode) : Prop :=
  ∃ haltErr snapshotGeneration chainFile, n' = { n with haltErr, snapshotGeneration, chainFile }

namespace Stalled

variable {n n' n'' : LabNode}

theorem refl (n : LabNode) : Stalled n n := ⟨_, _, _, rfl⟩

theorem trans (h : Stalled n n') (h' : Stalled n' n'') : Stalled n n'' := by
  obtain ⟨halt, generation, file, rfl⟩ := h
  obtain ⟨halt', generation', file', rfl⟩ := h'
  exact ⟨halt', generation', file', rfl⟩

end Stalled

/-- Only the halt error may differ. -/
def Halts (n n' : LabNode) : Prop := ∃ haltErr, n' = { n with haltErr }

theorem Halts.stalled {n n' : LabNode} (h : Halts n n') : Stalled n n' := by
  obtain ⟨haltErr, rfl⟩ := h
  exact ⟨_, _, _, rfl⟩

theorem Halts.trans {n n' n'' : LabNode} (h : Halts n n') (h' : Halts n' n'') : Halts n n'' := by
  obtain ⟨haltErr, rfl⟩ := h
  obtain ⟨haltErr', rfl⟩ := h'
  exact ⟨haltErr', rfl⟩

section Persistence

variable (setup : Setup) (world : World) (n : LabNode)

theorem halts_setPersistentHalt (cause : GoError) : Halts n (setPersistentHalt setup world cause n) := by
  unfold setPersistentHalt
  split
  · exact ⟨_, rfl⟩
  · exact ⟨_, rfl⟩

theorem halts_recordRuntimeFault (err : GoError) : Halts n (recordRuntimeFault setup world err n) := by
  unfold recordRuntimeFault
  split
  · exact halts_setPersistentHalt setup world n err
  · exact ⟨_, rfl⟩

theorem stalled_setPersistentHalt (cause : GoError) : Stalled n (setPersistentHalt setup world cause n) :=
  (halts_setPersistentHalt setup world n cause).stalled

theorem stalled_recordRuntimeFault (err : GoError) : Stalled n (recordRuntimeFault setup world err n) :=
  (halts_recordRuntimeFault setup world n err).stalled

variable {n}

theorem handleWrite_keeps (outcome : WriteOutcome) : (handleWrite setup world outcome).Keeps (Stalled n) := by
  cases outcome with
  | written => exact .pure ()
  | failed err => exact .fail err
  | uncertain err =>
    refine .bind (.modify fun s hs => hs.trans (stalled_setPersistentHalt setup world s err)) fun _ => ?_
    exact .bind (.read id) fun _ => .fail _

variable [Primitives]

theorem persistCandidate_keeps (state : Store) (blocks : List Block) (mempool queued : List Transaction) :
    (persistCandidate setup world state blocks mempool queued).Keeps (Stalled n) := by
  refine .bind (.bind (.read id) fun _ => .lift _) fun _ => .ite (.pure ()) ?_
  refine .bind (.read id) fun _ => .bind (.lift _) fun _ => .bind (.lift _) fun _ => ?_
  refine .bind (handleWrite_keeps setup world _) fun _ => .bind (.read id) fun _ => ?_
  refine .bind (.modify fun s hs => ?_) fun _ => .bind (handleWrite_keeps setup world _) fun _ => .modify fun s hs => ?_
  · refine hs.trans ?_
    cases world.chainFile with
    | written => exact ⟨_, _, _, rfl⟩
    | failed err => exact .refl s
    | uncertain err => exact ⟨_, _, _, rfl⟩
  · exact hs.trans ⟨_, _, _, rfl⟩

theorem persist_keeps : (persist setup world).Keeps (Stalled n) :=
  .bind (.read id) fun _ => persistCandidate_keeps setup world _ _ _ _

variable {setup world}

omit [Primitives] in
theorem handleWrite_run_ok {outcome : WriteOutcome} {s' : LabNode} (h : handleWrite setup world outcome n = (.ok (), s')) :
    outcome = .written ∧ s' = n := by
  cases outcome with
  | written =>
    cases h
    exact ⟨rfl, rfl⟩
  | failed err => cases h
  | uncertain err => cases h

/-- What is persisted without an error is in the file. -/
theorem chainFile_persist {n' : LabNode} (hpersistent : setup.persistent = true)
    (h : persist setup world n = (.ok (), n')) :
    n'.chainFile = some (diskSnapshot setup n n.state n.blocks n.pool.mempool n.pool.queued) := by
  simp only [persist, persistCandidate, requireOpen, writeDiskSnapshot, hpersistent, Bool.true_eq_false, if_false,
    Action.bind_run_ok, Action.read_run_ok, Action.lift_returns] at h
  obtain ⟨_, _, ⟨rfl, rfl⟩, _, _, ⟨_, _, ⟨rfl, rfl⟩, -, rfl⟩, _, _, ⟨rfl, rfl⟩, _, _, ⟨-, rfl⟩, _, _, ⟨-, rfl⟩, _, _,
    hmanifest, _, _, ⟨rfl, rfl⟩, _, _, hleaves, _, _, hwritten, hlast⟩ := h
  obtain ⟨-, rfl⟩ := handleWrite_run_ok hmanifest
  obtain ⟨hfile, rfl⟩ := handleWrite_run_ok hwritten
  rw [Action.modify_run_ok] at hleaves hlast
  rw [← hlast, ← hleaves, hfile]
  rfl

end Persistence

/-! ### Submission -/

section Submission

variable [Primitives] (setup : Setup) (world : World)

/-- A pool and one that a submission makes of it at the head of the node. -/
def Submits (n : LabNode) (pool pool' : Pool) : Prop :=
  ∃ tx, submitTransaction setup.executor (n.nextContext setup) n.state setup.blockGasLimit pool tx = .ok pool'

variable {setup world} {n : LabNode}

omit [Primitives] in
theorem requireOpen_spec : Action.Triple (fun s => s = n) requireOpen (fun _ s => s = n ∧ n.closed = false)
    fun _ s => s = n := by
  refine .read_bind fun s hs => .lift (fun s' _ hs' hopen => ?_) fun s' _ hs' _ => hs'.trans hs
  subst hs' hs
  exact ⟨rfl, by simpa using hopen⟩

omit [Primitives] in
theorem requireRunning_spec : Action.Triple (fun s => s = n) requireRunning (fun _ s => s = n ∧ n.haltErr = none)
    fun _ s => s = n := by
  refine .read_bind fun s hs => ?_
  subst hs
  rw [id_eq]
  cases hhalt : s.haltErr with
  | none => exact .pure fun s' hs' => ⟨hs', rfl⟩
  | some err => exact .fail fun s' hs' => hs'

theorem submitTx_spec (tx : Transaction) : Action.Triple (fun s => s = n) (submitTx setup world tx)
    (fun _ s => ∃ pool, s = { n with pool } ∧
      submitTransaction setup.executor (n.nextContext setup) n.state setup.blockGasLimit n.pool tx = .ok pool)
    fun _ s => Halts n s := by
  refine .bind (requireOpen_spec.mono (fun _ h => h) (fun _ _ h => h.1) fun _ s h => ⟨n.haltErr, h⟩) fun _ => ?_
  refine .bind (requireRunning_spec.mono (fun _ h => h) (fun _ _ h => h.1) fun _ s h => ⟨n.haltErr, h⟩) fun _ => ?_
  refine (show Action.Triple _ _ _ (fun _ s => s = n) from ?_).onError
    fun err s h => h ▸ halts_recordRuntimeFault setup world n err
  refine .read_bind fun s hs => .lift_bind (fun pool hpool => .modify fun s' hs' => ?_) fun _ _ s' hs' => hs'.trans hs
  subst hs' hs
  exact ⟨pool, rfl, hpool⟩

/-- A submission that was accepted and persisted changes the pool only. -/
theorem submitAndPersistTx_spec (tx : Transaction) :
    Action.Triple (fun s => s = n) (submitAndPersistTx setup world tx)
      (fun _ s => ∃ pool, Stalled { n with pool } s ∧
        submitTransaction setup.executor (n.nextContext setup) n.state setup.blockGasLimit n.pool tx = .ok pool)
      fun _ s => Stalled n s := by
  refine .read_bind fun s hs => ?_
  subst hs
  refine .bind ((submitTx_spec tx).mono (fun _ h => h) (fun _ _ h => h) fun _ _ h => h.stalled) fun _ => ?_
  intro s' hs'
  obtain ⟨pool, rfl, hpool⟩ := hs'
  have hpersist : Action.Triple (Stalled { s with pool }) ((persist setup world).onError fun _ n => { n with pool := s.pool })
      (fun _ s' => Stalled { s with pool } s') fun _ s' => Stalled s s' := by
    refine Action.Triple.onError (persist_keeps setup world).triple fun _ s' hs' => ?_
    obtain ⟨halt, generation, file, rfl⟩ := hs'
    exact ⟨halt, generation, file, rfl⟩
  obtain ⟨hok, herr⟩ := hpersist _ (.refl _)
  exact ⟨fun a s' heq => ⟨pool, hok a s' heq, hpool⟩, herr⟩

end Submission

/-! ### Votes -/

/-- What recording votes may write: the votes, their index, the evidence, and the pool by submissions. -/
structure Noted [Primitives] (setup : Setup) (n n' : LabNode) : Prop where
  fields : ∃ pool finalityVotes finalityVoteIndex finalityEvidence haltErr snapshotGeneration chainFile,
    n' = { n with pool, finalityVotes, finalityVoteIndex, finalityEvidence, haltErr, snapshotGeneration, chainFile }
  submits : ReflTransGen (Submits setup n) n.pool n'.pool

namespace Noted

variable [Primitives] {setup : Setup} {n n' n'' : LabNode}

theorem refl (n : LabNode) : Noted setup n n := ⟨⟨_, _, _, _, _, _, _, rfl⟩, .refl⟩

theorem trans (h : Noted setup n n') (h' : Noted setup n' n'') : Noted setup n n'' := by
  obtain ⟨⟨pool, votes, index, evidence, halt, generation, file, rfl⟩, hsubmits⟩ := h
  obtain ⟨⟨pool', votes', index', evidence', halt', generation', file', rfl⟩, hsubmits'⟩ := h'
  exact ⟨⟨pool', votes', index', evidence', halt', generation', file', rfl⟩, hsubmits.trans hsubmits'⟩

theorem of_stalled (h : Stalled n n') : Noted setup n n' := by
  obtain ⟨halt, generation, file, rfl⟩ := h
  exact ⟨⟨_, _, _, _, _, _, _, rfl⟩, .refl⟩

end Noted

section Votes

variable [Primitives] {setup : Setup} {world : World} {n : LabNode}

/-- The pool, or what the submission of a slash makes of it. -/
def Slashes (setup : Setup) (n : LabNode) (pool : Pool) : Prop :=
  pool = n.pool ∨ ∃ tx, tx.type = .validatorSlash ∧
    submitTransaction setup.executor (n.nextContext setup) n.state setup.blockGasLimit n.pool tx = .ok pool

/-- A slash that is enqueued is a submission. -/
theorem enqueueFinalityEvidenceSlash_spec (evidence : FinalityEquivocationEvidence) :
    Action.Triple (fun s => s = n) (enqueueFinalityEvidenceSlash setup world evidence)
      (fun _ s => ∃ pool, Slashes setup n pool ∧ Halts { n with pool } s)
      fun _ s => ∃ pool, Slashes setup n pool ∧ Halts { n with pool } s := by
  have hE : ∀ s, s = n → ∃ pool, Slashes setup n pool ∧ Halts { n with pool } s :=
    fun s hs => ⟨n.pool, .inl rfl, n.haltErr, hs⟩
  refine .lift_bind (fun key _ => .lift_bind (fun _ _ => .read_bind fun s hs => ?_) fun _ _ => hE) fun _ _ => hE
  subst hs
  refine .lift_bind (fun working _ => .lift_bind (fun _ _ => .lift_bind (fun gasLimit _ => ?_) fun _ _ => hE)
    fun _ _ => hE) fun _ _ => hE
  refine .lift_bind (fun signature _ => ?_) fun _ _ => hE
  refine (submitTx_spec _).mono (fun _ h => h) (fun _ s' hs' => ?_) fun _ s' hs' => ?_
  · obtain ⟨pool, rfl, hpool⟩ := hs'
    exact ⟨pool, .inr ⟨_, rfl, hpool⟩, _, rfl⟩
  · exact ⟨s.pool, .inl rfl, hs'⟩

/-- A write to the votes, their index or the evidence. -/
theorem note (f : LabNode → LabNode) (hf : ∀ s, Noted setup s (f s)) :
    (Action.modify f : NodeAction Unit).Keeps (Noted setup n) :=
  .modify fun s hs => hs.trans (hf s)

/-- The evidence of two votes. -/
def evidenceOf (block : Block) (vote : FinalitySignature) (existing : FinalityVoteRecord) : FinalityEquivocationEvidence where
  validator := vote.validator
  height := block.header.height
  firstBlockHash := existing.blockHash
  firstSignature := existing.signature
  secondBlockHash := block.hash
  secondSignature := vote.signature

/-- The node with new evidence, and with a slash for it if that could be submitted. -/
def Evidenced (setup : Setup) (n : LabNode) (block : Block) (vote : FinalitySignature) (existing : FinalityVoteRecord)
    (n' : LabNode) : Prop :=
  finalityEvidenceKey block.header.height vote.validator ∉ n.finalityEvidence ∧
    ∃ pool, Slashes setup n pool ∧ Halts { n with
      pool, finalityEvidence := n.finalityEvidence.insert (finalityEvidenceKey block.header.height vote.validator)
        (evidenceOf block vote existing) } n'

/-- The error reports the equivocation, and after it why no slash was submitted if none was. -/
def ReportsEquivocation (block : Block) (vote : FinalitySignature) (existing : FinalityVoteRecord) (err : GoError) : Prop :=
  err = equivocationError block vote existing ∨ ∃ slashErr : GoError, err = slashErr.annotate
    ((equivocationError block vote existing).text ++ "; automatic slash skipped: ")

/-- An equivocation always ends with an error. It leaves the node as it was if there is evidence already. -/
theorem recordEquivocation_spec (block : Block) (vote : FinalitySignature) (existing : FinalityVoteRecord) :
    Action.Triple (fun s => s = n) (recordEquivocation setup world block vote existing) (fun _ _ => False)
      fun err s => s = n ∨ ReportsEquivocation block vote existing err ∧ Evidenced setup n block vote existing s := by
  refine .read_bind fun _ hn => .ite (fun _ => .fail fun n hs => .inl (hs.trans hn)) fun hkey => .modify_bind fun n hs => ?_
  subst hs hn
  refine .bind (enqueueFinalityEvidenceSlash_spec _).attempt fun outcome => ?_
  cases outcome with
  | ok _ =>
    refine .fail fun s hs => .inr ⟨.inl rfl, hkey, ?_⟩
    obtain ⟨pool, hslashes, hhalts⟩ := hs.1 () rfl
    exact ⟨pool, hslashes, hhalts⟩
  | error slashErr =>
    refine .fail fun s hs => .inr ⟨.inr ⟨slashErr, rfl⟩, hkey, ?_⟩
    obtain ⟨pool, hslashes, hhalts⟩ := hs.2 slashErr rfl
    exact ⟨pool, hslashes, hhalts⟩

theorem Evidenced.noted {block : Block} {vote : FinalitySignature} {existing : FinalityVoteRecord} {n' : LabNode}
    (h : Evidenced setup n block vote existing n') : Noted setup n n' := by
  obtain ⟨-, pool, hslashes, haltErr, rfl⟩ := h
  refine ⟨⟨_, _, _, _, _, _, _, rfl⟩, ?_⟩
  rcases hslashes with rfl | ⟨tx, -, hpool⟩
  · exact .refl
  · exact .single ⟨tx, hpool⟩

theorem recordEquivocation_notes (block : Block) (vote : FinalitySignature) (existing : FinalityVoteRecord) :
    (recordEquivocation setup world block vote existing).Keeps (Noted setup n) := by
  intro s hs
  refine (recordEquivocation_spec block vote existing).leaves rfl (fun _ _ h => h.elim) fun _ s' hs' => ?_
  rcases hs' with rfl | ⟨-, hevidenced⟩
  · exact hs
  · exact hs.trans hevidenced.noted

theorem recordFinalityVote_notes (block : Block) (vote : FinalitySignature) :
    (recordFinalityVote setup world block vote).Keeps (Noted setup n) := by
  refine .bind (.read id) fun s => ?_
  cases (GoMap.get s.finalityVoteIndex block.header.height).lookup vote.validator with
  | none => exact note (indexVote block vote) fun _ => ⟨⟨_, _, _, _, _, _, _, rfl⟩, .refl⟩
  | some existing => exact .ite (.pure ()) (recordEquivocation_notes block vote existing)

theorem recordAcceptedFinalityCertificate_notes (block : Block) (certificate : FinalityCertificate) :
    (recordAcceptedFinalityCertificate setup world block certificate).Keeps (Noted setup n) := by
  refine .bind (note _ fun _ => ⟨⟨_, _, _, _, _, _, _, rfl⟩, .refl⟩) fun _ => .forM (fun vote => ?_) _
  refine .bind (recordFinalityVote_notes block vote).attempt fun recorded => ?_
  have hadd := @note _ setup n (addBlockVote block.hash vote) fun _ => ⟨⟨_, _, _, _, _, _, _, rfl⟩, .refl⟩
  cases recorded with
  | ok _ => exact hadd
  | error err => exact .ite (.bind (.fail err) fun _ => hadd) hadd

end Votes

/-! ### Import -/

/-- Only the halt error, what concerns the disk, and the shape of the counts of known blocks may differ: the counts
read the same. -/
def Unmoved (n n' : LabNode) : Prop :=
  ∃ knownBlockHeights, Stalled { n with knownBlockHeights } n' ∧
    ∀ height, GoMap.get knownBlockHeights height = GoMap.get n.knownBlockHeights height

theorem Stalled.unmoved {n n' : LabNode} (h : Stalled n n') : Unmoved n n' := ⟨_, h, fun _ => rfl⟩

theorem Unmoved.stalled {n n' n'' : LabNode} (h : Unmoved n n') (hs : Stalled n' n'') : Unmoved n n'' := by
  obtain ⟨heights, hstalled, hcount⟩ := h
  exact ⟨heights, hstalled.trans hs, hcount⟩

section Rollback

variable [Primitives] (n : LabNode) (block : Block)

/-- Taking back a block that was put among the known ones. -/
theorem known_restored :
    (match n.knownBlocks.lookup block.hash with
      | some known => (n.knownBlocks.insert block.hash block).insert block.hash known
      | none => (n.knownBlocks.insert block.hash block).erase block.hash) = n.knownBlocks := by
  cases hlookup : n.knownBlocks.lookup block.hash with
  | none =>
    refine Finmap.ext_lookup fun blockHash => ?_
    simp only [GoMap.lookup_erase_if, GoMap.lookup_insert_if]
    split
    · next heq => rw [heq, hlookup]
    · rfl
  | some known =>
    refine Finmap.ext_lookup fun blockHash => ?_
    simp only [GoMap.lookup_insert_if]
    split
    · next heq => rw [heq, hlookup]
    · rfl

/-- Taking back its count. -/
theorem count_restored (height : UInt64) :
    GoMap.get (if block.hash ∈ n.knownBlocks then (n.addKnown block).knownBlockHeights
      else (n.addKnown block).releaseHeight block.header.height) height = GoMap.get n.knownBlockHeights height := by
  by_cases hknown : block.hash ∈ n.knownBlocks
  · rw [if_pos hknown]
    simp only [LabNode.addKnown, if_pos hknown]
  · rw [if_neg hknown]
    simp only [LabNode.releaseHeight, LabNode.addKnown, if_neg hknown, GoMap.get_insert, if_true, Nat.add_sub_cancel]
    by_cases hzero : GoMap.get n.knownBlockHeights block.header.height = 0
    · rw [if_pos hzero, GoMap.get, GoMap.lookup_erase_if, GoMap.lookup_insert_if]
      by_cases hheight : height = block.header.height
      · rw [if_pos hheight, hheight, hzero]
        rfl
      · rw [if_neg hheight, if_neg hheight]
        rfl
    · rw [if_neg hzero, GoMap.get_insert, GoMap.get_insert]
      by_cases hheight : height = block.header.height
      · rw [if_pos hheight, hheight]
      · rw [if_neg hheight, if_neg hheight]

/-- The node while a block is installed: the block is known, and the lock, the votes and the pool may have moved. -/
def Installing (s : LabNode) : Prop :=
  ∃ finalityLock pool finalityVotes finalityVoteIndex finalityEvidence haltErr snapshotGeneration chainFile,
    s = { n.addKnown block with
      finalityLock, pool, finalityVotes, finalityVoteIndex, finalityEvidence, haltErr, snapshotGeneration, chainFile }

variable {n block}

/-- The rollback of an import takes back all of it. -/
theorem Installing.rollback {s : LabNode} (h : Installing n block s) :
    Unmoved n (rollbackKnownAndLock n block s) := by
  obtain ⟨lock, pool, votes, index, evidence, halt, generation, file, rfl⟩ := h
  refine ⟨_, ⟨halt, generation, file, ?_⟩, count_restored n block⟩
  unfold rollbackKnownAndLock
  have hknown := known_restored n block
  congr 1

theorem Installing.stalled {s s' : LabNode} (h : Installing n block s) (hs : Stalled s s') : Installing n block s' := by
  obtain ⟨lock, pool, votes, index, evidence, halt, generation, file, rfl⟩ := h
  obtain ⟨halt', generation', file', rfl⟩ := hs
  exact ⟨_, _, _, _, _, _, _, _, rfl⟩

theorem Installing.noted {setup : Setup} {s s' : LabNode} (h : Installing n block s) (hs : Noted setup s s') :
    Installing n block s' := by
  obtain ⟨lock, pool, votes, index, evidence, halt, generation, file, rfl⟩ := h
  obtain ⟨⟨pool', votes', index', evidence', halt', generation', file', rfl⟩, -⟩ := hs
  exact ⟨_, _, _, _, _, _, _, _, rfl⟩

end Rollback

section Import

variable [Primitives] {setup : Setup} {world : World} {n : LabNode}

/-- Whether a certificate of the block moves the lock. -/
def lockAdvances (n : LabNode) (block : Block) : Bool :=
  block.finalityCertificate.isSome && decide (block.header.height > n.finalityLock.height)

/-- The block put among the known ones, with the lock on it if its certificate moves the lock. -/
def withBlock (n : LabNode) (block : Block) : LabNode :=
  if lockAdvances n block = true then { n.addKnown block with finalityLock := ⟨block.header.height, block.hash⟩ }
  else n.addKnown block

theorem installing_withBlock (n : LabNode) (block : Block) : Installing n block (withBlock n block) := by
  unfold withBlock
  split
  · exact ⟨_, _, _, _, _, _, _, _, rfl⟩
  · exact ⟨_, _, _, _, _, _, _, _, rfl⟩

/-- What the import of a block that is not refused has done: the block is known, the lock has moved to it if it is
certified and above the lock, its votes are recorded, and the canonical chain has followed. -/
structure Installed (setup : Setup) (world : World) (n : LabNode) (block : Block) (n' : LabNode) : Prop where
  compatible : (n.addKnown block).blockCompatibleWithFinalityLock block.hash = true
  changed : ∃ noted change, Noted setup (withBlock n block) noted ∧
    canonicalChange setup world noted block (block.hash ∈ n.knownBlocks) (lockAdvances n block) = .ok change ∧
    Stalled (applyChange noted change) n'

theorem refuseConflict_spec {block : Block} :
    Action.Triple (fun s => s = n.addKnown block) (refuseConflict setup world n block) (fun _ _ => False)
      fun _ s => Unmoved n s := by
  have hback : Unmoved n (rollbackKnownAndLock n block (n.addKnown block)) :=
    Installing.rollback ⟨_, _, _, _, _, _, _, _, rfl⟩
  refine .modify_bind fun s hs => .ite (fun _ => .fail fun s' hs' => ?_) fun _ => ?_
  · subst hs' hs
    exact hback
  · refine .modify_bind fun s' hs' => .read_bind fun s'' hs'' => .fail fun _ hlast => ?_
    subst hlast hs'' hs' hs
    exact hback.stalled (stalled_setPersistentHalt setup world _ _)

theorem acceptCertificate_spec {block : Block} :
    Action.Triple (fun s => s = n.addKnown block) (acceptCertificate setup world n block)
      (fun lockAdvanced s => lockAdvanced = lockAdvances n block ∧ Noted setup (withBlock n block) s)
      fun _ s => Unmoved n s := by
  have hinstalling := installing_withBlock n block
  unfold acceptCertificate
  cases hcertificate : block.finalityCertificate with
  | none =>
    refine .pure fun s hs => ?_
    simp only [lockAdvances, withBlock, hcertificate, Option.isSome_none, Bool.false_and, Bool.false_eq_true, if_false]
    exact ⟨trivial, hs ▸ .refl _⟩
  | some certificate =>
    refine .read_bind fun s hs => .modify_bind fun s' hs' => ?_
    have hadvances : decide (block.header.height > (id s).finalityLock.height) = lockAdvances n block := by
      subst hs
      simp only [lockAdvances, hcertificate, Option.isSome_some, Bool.true_and]
      rfl
    rw [hadvances]
    have hstart : (if lockAdvances n block = true then
        { s' with finalityLock := ⟨block.header.height, block.hash⟩ } else s') = withBlock n block := by
      subst hs' hs
      rfl
    rw [hstart]
    have hrecord := (@recordAcceptedFinalityCertificate_notes _ setup world (withBlock n block) block certificate).triple
    refine .bind ((hrecord.onError fun err s hs => ?_).mono (fun s hs => hs ▸ .refl _) (fun _ _ h => h) fun _ _ h => h)
      fun _ => .pure fun s hs => ⟨rfl, hs⟩
    exact (hinstalling.noted hs).rollback.stalled (stalled_recordRuntimeFault setup world _ err)

theorem applyChange_stalled {s s' : LabNode} (change : CanonicalChange) (h : Stalled s s') :
    Stalled (applyChange s change) (applyChange s' change) := by
  obtain ⟨halt, generation, file, rfl⟩ := h
  cases change with
  | reorganised chain state mempool queued => exact ⟨halt, generation, file, rfl⟩
  | certified blocks => exact ⟨halt, generation, file, rfl⟩
  | unchanged => exact ⟨halt, generation, file, rfl⟩

theorem persistChange_keeps (s : LabNode) (change : CanonicalChange) :
    (persistChange setup world s change).Keeps (Stalled n) := by
  cases change with
  | reorganised chain state mempool queued => exact persistCandidate_keeps setup world _ _ _ _
  | certified blocks => exact persistCandidate_keeps setup world _ _ _ _
  | unchanged => exact persistCandidate_keeps setup world _ _ _ _

theorem installBlock_spec (block : Block) :
    Action.Triple (fun s => s = n) (installBlock setup world block) (fun _ s => Installed setup world n block s)
      fun _ s => Unmoved n s := by
  refine .read_bind fun _ hn => .modify_bind fun n hs => .read_bind fun s hs' => ?_
  subst hs' hs hn
  refine .ite (fun _ => refuseConflict_spec.mono (fun _ h => h) (fun _ _ h => h.elim) fun _ _ h => h) fun hcompatible => ?_
  refine .bind acceptCertificate_spec fun lockAdvanced => .read_bind fun noted hnoted => ?_
  obtain ⟨rfl, hnoted⟩ := hnoted
  have hinstalling : Installing n block noted := (installing_withBlock n block).noted hnoted
  refine .lift_onError_bind (fun change hchange => ?_) fun err _ s' hs' => ?_
  · have hpersist := (@persistChange_keeps _ setup world noted noted change).triple
    refine .bind ((hpersist.onError fun _ s' hs' => (hinstalling.stalled hs').rollback).mono
      (fun s' hs' => hs' ▸ .refl _) (fun _ _ h => h) fun _ _ h => h) fun _ => .modify fun s' hs' => ?_
    exact ⟨by simpa using hcompatible, noted, change, hnoted, hchange, applyChange_stalled change hs'⟩
  · subst hs'
    exact (hinstalling.stalled (stalled_recordRuntimeFault setup world _ err)).rollback

/-- What an import that returns no error has found out, and done. -/
inductive Imported (setup : Setup) (world : World) (n : LabNode) (block : Block) : LabNode → Prop
  | nothing : Imported setup world n block n
  | installed {installed parent : Block} {parentState after : Store} {n' : LabNode}
    (header : installed.header = block.header)
    (fresh : ∀ existing, n.knownBlocks.lookup block.hash = some existing →
      mergeKnownBlock parent parentState existing block = .ok (some installed))
    (own : block.hash ∉ n.knownBlocks → installed = block)
    (attached : block.hash ∈ n.knownBlocks → installed.finalityCertificate ≠ none)
    (checked : checkImportedBlock setup block = .ok ())
    (located : locateImportedBlock n block = .ok parent)
    (replayed : n.replayState setup parent.hash = .ok parentState)
    (valid : LabNode.validateBlockOnState setup parent parentState block = .ok after)
    (change : Installed setup world n installed n') : Imported setup world n block n'

omit [Primitives] in
/-- A stateless step whose error leaves the node as it is, before the rest. -/
theorem lift_stalled {α β : Type} {outcome : Result α} {f : α → NodeAction β} {R : β → LabNode → Prop}
    {E : LabNode → Prop} (hE : ∀ s, Stalled n s → E s)
    (hok : ∀ a, outcome = .ok a → Action.Triple (fun s => s = n) (f a) R fun _ s => E s) :
    Action.Triple (fun s => s = n) (Action.lift outcome >>= f) R fun _ s => E s :=
  .lift_bind hok fun _ _ s hs => hE s (hs ▸ .refl n)

omit [Primitives] in
/-- A stateless step whose error may halt the node, before the rest. -/
theorem fault_stalled {α β : Type} {outcome : Result α} {f : α → NodeAction β} {R : β → LabNode → Prop}
    {E : LabNode → Prop} (hE : ∀ s, Stalled n s → E s)
    (hok : ∀ a, outcome = .ok a → Action.Triple (fun s => s = n) (f a) R fun _ s => E s) :
    Action.Triple (fun s => s = n) (recordingFaults setup world (Action.lift outcome) >>= f) R fun _ s => E s :=
  .lift_onError_bind hok fun err _ _ hs => hE _ (hs ▸ stalled_recordRuntimeFault setup world n err)

omit [Primitives] in
/-- The two checks that start an operation. -/
theorem started {β : Type} {f : NodeAction β} {R : β → LabNode → Prop} {E : GoError → LabNode → Prop}
    (hE : ∀ err, E err n) (hf : n.haltErr = none → Action.Triple (fun s => s = n) f R E) :
    Action.Triple (fun s => s = n) (requireOpen >>= fun _ => requireRunning >>= fun _ => f) R E := by
  refine .bind (requireOpen_spec.mono (fun _ h => h) (fun _ _ h => h.1) fun err s h => h ▸ hE err) fun _ => ?_
  refine .bind (requireRunning_spec.mono (fun _ h => h) (fun _ _ h => h) fun err s h => h ▸ hE err) fun _ => ?_
  exact fun s hs => hf hs.2 s hs.1

theorem mergeKnownBlock_header {parent existing block merged : Block} {parentState : Store}
    (h : mergeKnownBlock parent parentState existing block = .ok (some merged)) : merged.header = block.header := by
  simp only [mergeKnownBlock, bind_ok, refuseIf_ok] at h
  obtain ⟨_, -, h⟩ := h
  split at h
  · obtain rfl := Option.some.inj (Except.ok.inj h)
    rfl
  · split at h
    · cases h
    · simp only [bind_ok, mapError_ok] at h
      obtain ⟨_, -, _, -, h⟩ := h
      obtain rfl := Option.some.inj (Except.ok.inj h)
      rfl

/-- A certified block that is merged into a known one stays certified. -/
theorem mergeKnownBlock_certificate {parent existing block merged : Block} {parentState : Store}
    (h : mergeKnownBlock parent parentState existing block = .ok (some merged)) (hcertified : block.finalityCertificate ≠ none) :
    merged.finalityCertificate ≠ none := by
  simp only [mergeKnownBlock, bind_ok, refuseIf_ok] at h
  obtain ⟨_, -, h⟩ := h
  cases hexisting : existing.finalityCertificate with
  | none =>
    rw [hexisting] at h
    obtain rfl := Option.some.inj (Except.ok.inj h)
    exact hcertified
  | some certificate =>
    rw [hexisting] at h
    obtain ⟨incoming, hincoming⟩ := Option.ne_none_iff_exists'.mp hcertified
    rw [hincoming, mergeFinalityCertificates_present] at h
    by_cases hchanged : (mergedVotes certificate incoming).2 = true
    · rw [if_pos hchanged] at h
      simp only [Bool.true_eq_false, if_false, bind_ok] at h
      obtain ⟨_, -, _, -, h⟩ := h
      obtain rfl := Option.some.inj (Except.ok.inj h)
      exact Option.some_ne_none _
    · rw [if_neg hchanged] at h
      cases h

theorem importBlock_spec (block : Block) :
    Action.Triple (fun s => s = n) (importBlock setup world block) (fun _ s => Imported setup world n block s)
      fun _ s => Unmoved n s := by
  have hE : ∀ s, Stalled n s → Unmoved n s := fun _ => Stalled.unmoved
  refine started (fun _ => (Stalled.refl n).unmoved) fun _ => lift_stalled hE fun _ hchecked => .read_bind fun n hn => ?_
  subst hn
  refine .ite (fun _ => ?_) fun hnovel => ?_
  · exact .lift (fun s' _ hs' _ => hs' ▸ .nothing) fun s' _ hs' _ => hs' ▸ (Stalled.refl _).unmoved
  · refine lift_stalled hE fun parent hlocated => fault_stalled hE fun parentState hreplayed => ?_
    refine fault_stalled hE fun after hvalid => ?_
    rw [id_eq]
    cases hlookup : n.knownBlocks.lookup block.hash with
    | none =>
      have hnew : block.hash ∉ n.knownBlocks := by rwa [Finmap.lookup_eq_none] at hlookup
      refine (installBlock_spec block).mono (fun _ h => h) (fun _ s' hs' => ?_) fun _ _ h => h
      exact .installed rfl (fun existing h => by rw [hlookup] at h; cases h) (fun _ => rfl) (fun hmem => absurd hmem hnew)
        hchecked hlocated hreplayed hvalid hs'
    | some existing =>
      refine lift_stalled hE fun merged hmerged => ?_
      cases merged with
      | none => exact .pure fun s' hs' => hs' ▸ .nothing
      | some installed =>
        refine (installBlock_spec installed).mono (fun _ h => h) (fun _ s' hs' => ?_) fun _ _ h => h
        refine .installed (mergeKnownBlock_header hmerged) (fun existing' h => ?_) (fun hnew => ?_) (fun hmem => ?_) hchecked
          hlocated hreplayed hvalid hs'
        · rw [hlookup] at h
          obtain rfl := Option.some.inj h
          exact hmerged
        · exact absurd (Finmap.mem_iff.mpr ⟨existing, hlookup⟩) hnew
        · exact mergeKnownBlock_certificate hmerged fun hnone => hnovel ⟨hmem, hnone⟩

end Import

/-! ### Finality votes -/

section FinalityVotes

variable [Primitives] {setup : Setup} {world : World} {n : LabNode}

/-- A vote that is recorded without an error is the first of its signer at the height, or repeats it. -/
theorem recordFinalityVote_spec (block : Block) (vote : FinalitySignature) :
    Action.Triple (fun s => s = n) (recordFinalityVote setup world block vote)
      (fun _ s => s = n ∨ s = indexVote block vote n)
      fun err s => s = n ∨ ∃ existing,
        (GoMap.get n.finalityVoteIndex block.header.height).lookup vote.validator = some existing ∧
        existing.blockHash ≠ block.hash ∧ ReportsEquivocation block vote existing err ∧
        Evidenced setup n block vote existing s := by
  refine .read_bind fun n hn => ?_
  subst hn
  rw [id_eq]
  cases hexisting : (GoMap.get n.finalityVoteIndex block.header.height).lookup vote.validator with
  | none => exact .modify fun s hs => .inr (hs ▸ rfl)
  | some existing =>
    refine .ite (fun _ => .pure fun s hs => .inl hs) fun hother => ?_
    refine (recordEquivocation_spec block vote existing).mono (fun _ h => h) (fun _ _ h => h.elim) fun _ s hs => ?_
    rcases hs with rfl | ⟨hreports, hevidenced⟩
    · exact .inl rfl
    · exact .inr ⟨existing, rfl, hother, hreports, hevidenced⟩

/-- The node while a vote is counted. -/
def Voting (n : LabNode) (blockHash : String) (s : LabNode) : Prop :=
  ∃ pool finalityVotes finalityVoteIndex finalityEvidence finalityLock knownBlocks haltErr snapshotGeneration chainFile,
    s = { n with pool, finalityVotes, finalityVoteIndex, finalityEvidence, finalityLock, knownBlocks, haltErr
                 snapshotGeneration, chainFile } ∧
      ∀ other, other ≠ blockHash → knownBlocks.lookup other = n.knownBlocks.lookup other

omit [Primitives] in
/-- The rollback of a vote takes back all of it, if the block is known. -/
theorem Voting.rollback {blockHash : String} {s : LabNode} (h : Voting n blockHash s) (hknown : blockHash ∈ n.knownBlocks) :
    Stalled n (rollbackVote n blockHash s) := by
  obtain ⟨pool, votes, index, evidence, lock, known, halt, generation, file, rfl, hother⟩ := h
  have hrestored : known.insert blockHash (GoMap.get n.knownBlocks blockHash) = n.knownBlocks := by
    obtain ⟨block, hblock⟩ := Finmap.mem_iff.mp hknown
    refine Finmap.ext_lookup fun other => ?_
    rw [GoMap.lookup_insert_if]
    split
    · next heq => rw [heq, hblock, get_of_lookup hblock]
    · next hne => exact hother other hne
  refine ⟨halt, generation, file, ?_⟩
  unfold rollbackVote
  congr 1

omit [Primitives] in
theorem Voting.stalled {blockHash : String} {s s' : LabNode} (h : Voting n blockHash s) (hs : Stalled s s') :
    Voting n blockHash s' := by
  obtain ⟨pool, votes, index, evidence, lock, known, halt, generation, file, rfl, hother⟩ := h
  obtain ⟨halt', generation', file', rfl⟩ := hs
  exact ⟨_, _, _, _, _, _, _, _, _, rfl, hother⟩

/-- What a vote that is accepted does: it is counted, or it completes a quorum and the block is certified. -/
inductive Voted (setup : Setup) (n : LabNode) (vote : FinalitySignature) : LabNode → Prop
  | counted {block : Block} {validators : List String} {recorded n' : LabNode}
    (checked : checkVote vote = .ok ())
    (matched : matchFinalityVote setup n vote = .ok (block, validators))
    (first : recorded = n ∨ recorded = indexVote block vote n)
    (stalled : Stalled (castVote block vote recorded) n') : Voted setup n vote n'
  | certified {block certified : Block} {validators : List String} {recorded n' : LabNode}
    (checked : checkVote vote = .ok ())
    (matched : matchFinalityVote setup n vote = .ok (block, validators))
    (first : recorded = n ∨ recorded = indexVote block vote n)
    (certificate : certified =
      certifiedBlock block (GoMap.get (castVote block vote recorded).finalityVotes block.hash))
    (valid : checkCertified (castVote block vote recorded) certified validators = .ok ())
    (stalled : Stalled { lockCertified certified (castVote block vote recorded) with
      blocks := n.blocks.set certified.header.height.toNat certified } n') : Voted setup n vote n'

/-- How a vote that is not accepted leaves the node: as it was, or, if the error reports an equivocation, with new
evidence of it persisted. -/
def VoteRefused (setup : Setup) (world : World) (n : LabNode) (vote : FinalitySignature) (err : GoError) (n' : LabNode) :
    Prop :=
  Stalled n n' ∨ ∃ block validators existing noted persisted, matchFinalityVote setup n vote = .ok (block, validators) ∧
    (GoMap.get n.finalityVoteIndex block.header.height).lookup vote.validator = some existing ∧
    existing.blockHash ≠ block.hash ∧ ReportsEquivocation block vote existing err ∧
    Evidenced setup n block vote existing noted ∧ persist setup world noted = (.ok (), persisted) ∧ Halts persisted n'

theorem mem_of_matchFinalityVote {vote : FinalitySignature} {block : Block} {validators : List String}
    (h : matchFinalityVote setup n vote = .ok (block, validators)) : block ∈ n.blocks := by
  simp only [matchFinalityVote, bind_ok, refuseIf_ok, require_ok, pure_eq_ok, Except.ok.injEq, Prod.mk.injEq] at h
  obtain ⟨_, -, _, -, found, hfound, _, -, _, -, _, -, _, -, rfl, -⟩ := h
  exact List.mem_of_getElem? hfound

theorem VoteRefused.halts {vote : FinalitySignature} {err : GoError} {s s' : LabNode}
    (h : VoteRefused setup world n vote err s) (hs : Halts s s') : VoteRefused setup world n vote err s' := by
  rcases h with h | ⟨block, validators, existing, noted, persisted, hmatched, hindexed, hother, hreports, hnoted, hpersist, h⟩
  · exact .inl (h.trans hs.stalled)
  · exact .inr ⟨block, validators, existing, noted, persisted, hmatched, hindexed, hother, hreports, hnoted, hpersist,
      h.trans hs⟩

/-- What a vote that is not accepted leaves is among what recording votes may write. -/
theorem VoteRefused.noted {vote : FinalitySignature} {err : GoError} {n' : LabNode}
    (h : VoteRefused setup world n vote err n') : Noted setup n n' := by
  rcases h with h | ⟨block, validators, existing, noted, persisted, -, -, -, -, hevidenced, hpersist, hhalts⟩
  · exact .of_stalled h
  · have hpersisted : Stalled noted persisted := by
      have hkept := @persist_keeps setup world noted _ noted (.refl noted)
      rwa [hpersist] at hkept
    exact hevidenced.noted.trans (.of_stalled (hpersisted.trans hhalts.stalled))

/-- Certifying a block writes only what the rollback of the vote takes back. -/
theorem certifyBlock_spec {s : LabNode} (block certified : Block) (validators : List String)
    (hcertified : certified = certifiedBlock block (GoMap.get s.finalityVotes block.hash))
    (hs : Voting n block.hash s) :
    Action.Triple (fun s' => s' = s) (certifyBlock setup world block validators)
      (fun _ s' => checkCertified s certified validators = .ok () ∧
        Stalled { lockCertified certified s with blocks := s.blocks.set certified.header.height.toNat certified } s')
      fun _ s' => Voting n block.hash s' := by
  subst hcertified
  refine .read_bind fun s hs' => ?_
  subst hs'
  refine .lift_bind (fun _ hchecked => .modify_bind fun s' hs' => ?_) fun _ _ s' hs' => hs' ▸ hs
  subst hs'
  have hpersist := (@persistCandidate_keeps setup world (lockCertified (certifiedBlock block
    (GoMap.get s'.finalityVotes block.hash)) s') _ s'.state (s'.blocks.set block.header.height.toNat
      (certifiedBlock block (GoMap.get s'.finalityVotes block.hash))) s'.pool.mempool s'.pool.queued).triple
  refine .bind (hpersist.mono (fun s hs => hs ▸ .refl _) (fun _ _ h => h) fun _ s'' hs'' => ?_) fun _ =>
    .modify fun s'' hs'' => ?_
  · obtain ⟨pool, votes, index, evidence, lock, known, halt, generation, file, rfl, hother⟩ := hs
    obtain ⟨halt', generation', file', rfl⟩ := hs''
    refine ⟨_, _, _, _, _, _, _, _, _, rfl, fun other hne => ?_⟩
    exact (GoMap.lookup_insert_if _ _ _ _).trans ((if_neg hne).trans (hother other hne))
  · obtain ⟨halt', generation', file', rfl⟩ := hs''
    exact ⟨hchecked, halt', generation', file', rfl⟩

theorem submitFinalityVote_spec (hknown : ∀ block ∈ n.blocks, block.hash ∈ n.knownBlocks) (vote : FinalitySignature) :
    Action.Triple (fun s => s = n) (submitFinalityVote setup world vote) (fun _ s => Voted setup n vote s)
      fun err s => VoteRefused setup world n vote err s := by
  refine started (fun _ => .inl (.refl n)) fun _ => ?_
  refine (show Action.Triple _ _ _ (fun err s => VoteRefused setup world n vote err s) from ?_).onError
    fun err s hs => hs.halts (halts_recordRuntimeFault setup world s err)
  refine .lift_bind (fun _ hchecked => .read_bind fun s hs => ?_) fun _ _ s hs => .inl (hs ▸ .refl n)
  subst hs
  refine .lift_bind (fun found hmatched => ?_) fun _ _ s' hs => .inl (hs ▸ .refl _)
  obtain ⟨block, validators⟩ := found
  have hblock := hknown block (mem_of_matchFinalityVote hmatched)
  refine .bind (recordFinalityVote_spec block vote).attempt fun recorded => ?_
  cases recorded with
  | error equivocationErr =>
    intro noted hnoted
    have hnoted := hnoted.2 equivocationErr rfl
    have hpersist : Action.Triple (fun s' => s' = noted) (persist setup world).attempt
        (fun outcome s' => Stalled noted s' ∧ persist setup world noted = (outcome, s')) fun _ _ => False := by
      rintro _ rfl
      refine ⟨fun outcome s' heq => ?_, fun e s' heq => ?_⟩
      · cases heq
        exact ⟨persist_keeps setup world _ (.refl _), rfl⟩
      · cases heq
    refine (Action.Triple.bind (hpersist.mono (fun _ h => h) (fun _ _ h => h) fun _ _ h => h.elim) fun outcome => ?_)
      noted rfl
    cases outcome with
    | error persistErr =>
      refine .modify_bind fun s' hs' => .fail fun _ hlast => .inl ?_
      subst hlast
      have hfields : Noted setup s noted := by
        rcases hnoted with rfl | ⟨existing, -, -, -, hevidenced⟩
        · exact .refl _
        · exact hevidenced.noted
      obtain ⟨⟨pool, votes, index, evidence, halt, generation, file, rfl⟩, -⟩ := hfields
      obtain ⟨⟨halt', generation', file', rfl⟩, -⟩ := hs'
      exact Voting.rollback ⟨_, _, _, _, _, _, _, _, _, rfl, fun _ _ => rfl⟩ hblock
    | ok _ =>
      refine .fail fun s' hs' => ?_
      rcases hnoted with rfl | ⟨existing, hindexed, hother, hreports, hevidenced⟩
      · exact .inl hs'.1
      · exact .inr ⟨block, validators, existing, noted, s', hmatched, hindexed, hother, hreports, hevidenced, hs'.2, _, rfl⟩
  | ok _ =>
    refine .modify_bind fun counted hfirst => .read_bind fun s' hs' => ?_
    have hfirst := hfirst.1 () rfl
    have hvoting : Voting s block.hash s' := by
      subst hs'
      rcases hfirst with rfl | rfl
      · exact ⟨_, _, _, _, _, _, _, _, _, rfl, fun _ _ => rfl⟩
      · exact ⟨_, _, _, _, _, _, _, _, _, rfl, fun _ _ => rfl⟩
    have hblocks : s'.blocks = s.blocks := by
      obtain ⟨_, _, _, _, _, _, _, _, _, rfl, -⟩ := hvoting
      rfl
    refine .ite (fun _ => ?_) fun _ => ?_
    · have hpersist := (@persist_keeps setup world s' _).triple
      refine ((hpersist.onError fun _ s'' hs'' => ?_).mono (fun _ h => h ▸ .refl _) (fun _ s'' hs'' => ?_) fun _ _ h => h)
      · exact .inl ((hvoting.stalled hs'').rollback hblock)
      · exact .counted hchecked hmatched hfirst (hs' ▸ hs'')
    · have hcertify := @certifyBlock_spec _ setup world s s' block _ validators rfl hvoting
      refine (hcertify.onError fun _ s'' hs'' => .inl (hs''.rollback hblock)).mono (fun _ h => h) (fun _ s'' hs'' => ?_)
        fun _ _ h => h
      refine .certified hchecked hmatched hfirst (hs' ▸ rfl) (hs' ▸ hs''.1) ?_
      rw [← hblocks, ← hs']
      exact hs''.2

end FinalityVotes

/-! ### Block production -/

section Production

variable [Primitives] {setup : Setup} {world : World} {n : LabNode}

/-- A block that the node makes of its pending list, with the store after it and the pool that remains. -/
structure Drafted (setup : Setup) (world : World) (n : LabNode) (block : Block) (working : Store)
    (mempool queued : List Transaction) : Prop where
  parts : ∃ key timeUnix draft signature, requireLocalSigning setup "block production" = .ok key ∧
    blockTime n.head world.now = .ok timeUnix ∧
    selectTransactions setup (n.nextContext setup) { working := n.state } n.pool.mempool = .ok draft ∧
    poolAfter setup (contextAfter setup (draftBlock setup n timeUnix draft)) draft.working draft.remaining n.pool.queued =
      .ok (mempool, queued) ∧
    key.sign (draftBlock setup n timeUnix draft).header.signingBytes = .ok signature ∧
    block = { draftBlock setup n timeUnix draft with signature } ∧ working = draft.working
  size : validateBlockSize block = .ok ()
  valid : n.consensus.validateBlock n.head block = .ok ()

/-- The node with the block as its new head. -/
def published (n : LabNode) (block : Block) (working : Store) (mempool queued : List Transaction) : LabNode :=
  let known : LabNode := { n with
    knownBlocks := n.knownBlocks.insert block.hash block
    knownBlockHeights := n.knownBlockHeights.insert block.header.height
      (GoMap.get n.knownBlockHeights block.header.height + 1) }
  { (known.setHead working (n.blocks ++ [block])).setPool mempool queued with index := indexBlock n.index block }

/-- The node after a block could not be persisted. -/
def withdrawn (n : LabNode) (block : Block) (n' : LabNode) : Prop :=
  ∃ knownBlockHeights, Stalled { n with
    knownBlocks := (n.knownBlocks.insert block.hash block).erase block.hash, knownBlockHeights } n'

theorem publishBlock_spec (block : Block) (working : Store) (mempool queued : List Transaction) :
    Action.Triple (fun s => s = n) (publishBlock setup world block working mempool queued)
      (fun _ s => Stalled (published n block working mempool queued) s) fun _ s => withdrawn n block s := by
  refine .modify_bind fun n hn => .read_bind fun known hs => ?_
  subst hn
  have hpersist := (@persistCandidate_keeps setup world known _ working (known.blocks ++ [block]) mempool queued).triple
  refine .bind ((hpersist.onError fun _ s' hs' => ?_).mono (fun _ h => h ▸ .refl _) (fun _ _ h => h) fun _ _ h => h)
    fun _ => .modify fun s' hs' => ?_
  · subst hs
    obtain ⟨halt, generation, file, rfl⟩ := hs'
    exact ⟨_, halt, generation, file, rfl⟩
  · subst hs
    obtain ⟨halt, generation, file, rfl⟩ := hs'
    exact ⟨halt, generation, file, rfl⟩

/-- What production leaves when it fails: the node as it was, or without the block that it could not persist. -/
def NotProduced (setup : Setup) (world : World) (n n' : LabNode) : Prop :=
  Stalled n n' ∨ ∃ block working mempool queued,
    Drafted setup world n block working mempool queued ∧ withdrawn n block n'

theorem produceBlock_spec :
    Action.Triple (fun s => s = n) (produceBlock setup world)
      (fun block s => ∃ working mempool queued, Drafted setup world n block working mempool queued ∧
        Stalled (published n block working mempool queued) s)
      fun _ s => NotProduced setup world n s := by
  have hE : ∀ s, Stalled n s → NotProduced setup world n s := fun _ => .inl
  refine started (fun _ => .inl (.refl n)) fun _ => lift_stalled hE fun key hkey => .read_bind fun n hn => ?_
  subst hn
  refine lift_stalled hE fun timeUnix htime => fault_stalled hE fun draft hdraft => fault_stalled hE fun pool hpool => ?_
  obtain ⟨mempool, queued⟩ := pool
  refine lift_stalled hE fun signature hsignature => lift_stalled hE fun _ hsize => lift_stalled hE fun _ hvalid => ?_
  have hdrafted : Drafted setup world n { draftBlock setup n timeUnix draft with signature } draft.working mempool queued :=
    ⟨⟨key, timeUnix, draft, signature, hkey, htime, hdraft, hpool, hsignature, rfl, rfl⟩, mapError_ok.mp hsize, hvalid⟩
  refine .bind ((publishBlock_spec _ _ _ _).mono (fun _ h => h) (fun _ _ h => h) fun _ s' hs' => ?_) fun _ =>
    .pure fun s' hs' => ?_
  · exact .inr ⟨_, _, _, _, hdrafted, hs'⟩
  · exact ⟨_, _, _, hdrafted, hs'⟩

end Production

end ChainLab.Node
