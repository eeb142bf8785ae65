import ChainLab.Abci.Penalties
import ChainLab.Abci.Runs

/-! Proposals. `PrepareProposal` drops what does not execute, `ProcessProposal` and `FinalizeBlock` refuse a block for it: what
the first keeps passes the others. -/

namespace ChainLab.Abci

open ChainLab.Lib ChainLab.Types ChainLab.Crypto ChainLab.State ChainLab.Core

section Model

variable [Primitives] [DecodesJson Transaction] {runtime : Core.Runtime} {a a' : Application}

section Loop

variable {proposer : String} {context : ExecutionContext} {result result' : ProposalExecution}

/-- What a transaction adds to a proposal, and that its place in the list does not matter. -/
theorem proposeTransaction_ok {raw : List UInt8} {index : Nat}
    (h : a.proposeTransaction runtime proposer context result raw index = .ok result') :
    (∀ place, a.proposeTransaction runtime proposer context result raw place = .ok result') ∧
      result'.rawTxs = result.rawTxs ++ [raw] ∧ result'.txs.length = result.txs.length + 1 ∧
      result'.gasUsed ≤ a.genesis.blockGasLimit := by
  simp only [Application.proposeTransaction, bind_ok, mapError_ok] at h ⊢
  obtain ⟨tx, hdecoded, receipt, hexecuted, nextGas, hgas, h⟩ := h
  split at h
  · cases h
  case isFalse hroom =>
    refine ⟨fun place => ⟨tx, hdecoded, receipt, hexecuted, nextGas, hgas, ?_⟩, ?_⟩
    · rw [if_neg hroom]
      exact h
    · cases h
      exact ⟨rfl, List.length_append, UInt64.not_lt.mp hroom⟩

omit [Primitives] [DecodesJson Transaction] in
/-- Room under a limit is room under a higher one. -/
theorem fits_of_le {total size maxBytes limit : Int64} (hpositive : 0 < maxBytes) (hle : maxBytes ≤ limit)
    (h : ¬(size < 0 ∨ total > maxBytes - size)) : ¬(size < 0 ∨ total > limit - size) := by
  obtain ⟨hsize, htotal⟩ := not_or.mp h
  refine not_or.mpr ⟨hsize, ?_⟩
  have hzero : (0 : Int64).toInt = 0 := rfl
  have hlow := size.toInt_lt
  have hhigh := limit.toInt_lt
  rw [gt_iff_lt, Int64.not_lt, Int64.le_iff_toInt_le] at *
  rw [Int64.lt_iff_toInt_lt] at hpositive
  rw [Int64.toInt_sub, Int.bmod_eq_of_le (by omega) (by omega)] at htotal ⊢
  omega

/-- What a loop that filters does with what it is offered: the strict loop does the same with what it keeps, wherever the
numbers start. -/
structure Replays (runtime : Core.Runtime) (a : Application) (proposer : String) (context : ExecutionContext)
    (offered : List (List UInt8)) (result result' : ProposalExecution) (kept : List (List UInt8)) : Prop where
  rawTxs : result'.rawTxs = result.rawTxs ++ kept
  chosen : kept.Sublist offered
  count : result'.txs.length = result.txs.length + kept.length
  full : result.txs.length ≤ maxTransactionsPerBlock → result'.txs.length ≤ maxTransactionsPerBlock
  gas : result.gasUsed ≤ a.genesis.blockGasLimit → result'.gasUsed ≤ a.genesis.blockGasLimit
  strict : ∀ start, a.executeProposalLoop runtime proposer context maxProposalTxBytes true (kept.zipIdx start) result =
    .ok result'

theorem Replays.done (offered : List (List UInt8)) : Replays runtime a proposer context offered result result [] :=
  ⟨(List.append_nil _).symm, List.nil_sublist _, rfl, id, id, fun _ => rfl⟩

theorem Replays.skip {offered kept : List (List UInt8)} (h : Replays runtime a proposer context offered result result' kept)
    (raw : List UInt8) : Replays runtime a proposer context (raw :: offered) result result' kept :=
  { h with chosen := h.chosen.cons raw }

theorem Replays.keep {offered kept : List (List UInt8)} {next : ProposalExecution} {raw : List UInt8} {index : Nat}
    (hpropose : a.proposeTransaction runtime proposer context result raw index = .ok next)
    (hcount : ¬result.txs.length ≥ maxTransactionsPerBlock)
    (hroom : ¬(proposalTxSize raw < 0 ∨ result.totalBytes > maxProposalTxBytes - proposalTxSize raw))
    (h : Replays runtime a proposer context offered next result' kept) :
    Replays runtime a proposer context (raw :: offered) result result' (raw :: kept) := by
  obtain ⟨hanywhere, hraw, hlength, hgas⟩ := proposeTransaction_ok hpropose
  refine ⟨?_, h.chosen.cons_cons raw, ?_, fun _ => h.full (by omega), fun _ => h.gas hgas, fun start => ?_⟩
  · rw [h.rawTxs, hraw, List.append_assoc, List.singleton_append]
  · rw [h.count, hlength, List.length_cons]
    omega
  · rw [List.zipIdx_cons]
    unfold Application.executeProposalLoop
    rw [if_neg (by simp), if_neg hcount, if_neg hroom, hanywhere]
    exact h.strict (start + 1)

theorem filtered_replays {maxBytes : Int64} (hpositive : 0 < maxBytes) (hlimit : maxBytes ≤ maxProposalTxBytes)
    (candidates : List (List UInt8 × Nat)) :
    ∀ {result : ProposalExecution},
      a.executeProposalLoop runtime proposer context maxBytes false candidates result = .ok result' →
      ∃ kept, Replays runtime a proposer context (candidates.map Prod.fst) result result' kept := by
  have hends : ∀ {result : ProposalExecution} (offered : List (List UInt8)),
      (.ok result : Result ProposalExecution) = .ok result' →
      ∃ kept, Replays runtime a proposer context offered result result' kept := by
    rintro result offered ⟨⟩
    exact ⟨[], .done offered⟩
  induction candidates with
  | nil =>
    intro result h
    exact hends _ h
  | cons candidate rest ih =>
    intro result h
    obtain ⟨raw, index⟩ := candidate
    unfold Application.executeProposalLoop at h
    -- past the limits of the loop nothing more is kept
    split at h
    · exact hends _ h
    split at h
    · exact hends _ h
    case isFalse.isFalse hcount =>
      split at h
      · exact hends _ h
      case isFalse hroom =>
        cases hpropose : a.proposeTransaction runtime proposer context result raw index with
        | ok next =>
          rw [hpropose] at h
          obtain ⟨kept, hkept⟩ := ih h
          exact ⟨raw :: kept, hkept.keep hpropose hcount (fits_of_le hpositive hlimit hroom)⟩
        | error failure =>
          rw [hpropose] at h
          cases failure with
          | fatal err => cases h
          | invalid err =>
            obtain ⟨kept, hkept⟩ := ih h
            exact ⟨kept, hkept.skip raw⟩

end Loop

omit [DecodesJson Transaction] in
/-- What `PrepareProposal` checks is all that `ProcessProposal` checks before it executes, but for the block hash. -/
theorem beginProposal_ok {req : PrepareProposalRequest} {begun : String × ProposalEvidenceState} {hash : List UInt8}
    {txs : List (List UInt8)} (hhash : hash.length = 32) (h : a.beginProposal req = .ok begun) :
    a.requireReady = .ok () ∧ 0 < req.maxTxBytes ∧
      a.acceptableProposal ⟨hash, req.height, req.time, req.proposerAddress, txs, req.misbehavior⟩ = .ok begun := by
  simp only [Application.beginProposal, bind_ok, refuseIf_ok, exists_const, pure_eq_ok, Except.ok.injEq, not_not] at h
  obtain ⟨_, hready, hcandidate, hheight, _, hsupport, proposer, hproposer, evidence, hevidence, hpositive, rfl⟩ := h
  refine ⟨hready, Int64.not_le.mp hpositive, ?_⟩
  simp only [Application.acceptableProposal, canonicalBlockHash, bind_ok, refuseIf_ok, exists_const, pure_eq_ok,
    Except.ok.injEq, not_or, not_not]
  exact ⟨⟨hheight, hcandidate⟩, (), hsupport, _, ⟨hhash, rfl⟩, proposer, hproposer, evidence, hevidence, rfl⟩

/-- The transactions that `PrepareProposal` returns make a block that `ProcessProposal` accepts in the same state, for the
same height, time, proposer and evidence, and the strict execution of it is the execution that chose them. -/
theorem prepared_accepted {req : PrepareProposalRequest} {txs : List (List UInt8)} {hash : List UInt8}
    (hhash : hash.length = 32) (h : Application.prepareProposal runtime req a = (.ok txs, a')) :
    a' = a ∧ txs.Sublist req.txs ∧
      Application.processProposal runtime ⟨hash, req.height, req.time, req.proposerAddress, txs, req.misbehavior⟩ a =
        (.ok .accept, a) ∧
      ∃ begun execution, a.beginProposal req = .ok begun ∧ execution.rawTxs = txs ∧
        execution.gasUsed ≤ a.genesis.blockGasLimit ∧
        a.executeProposalFromStore runtime begun.2.store req.txs req.height begun.1
          (if req.maxTxBytes > maxProposalTxBytes then maxProposalTxBytes else req.maxTxBytes) false = .ok execution ∧
        a.executeProposalFromStore runtime begun.2.store txs req.height begun.1 maxProposalTxBytes true =
          .ok execution := by
  simp only [Application.prepareProposal, Action.bind_run_ok, haltIfFatal_ok, Action.pure_run_ok] at h
  obtain ⟨begun, _, hlift, execution, _, ⟨hfiltered, rfl⟩, rfl, rfl⟩ := h
  obtain ⟨hbegun, rfl⟩ := Action.lift_run_ok.mp hlift
  obtain ⟨hready, hpositive, haccepts⟩ := @beginProposal_ok _ _ _ _ hash execution.rawTxs hhash hbegun
  have hlimits : 0 < (if req.maxTxBytes > maxProposalTxBytes then maxProposalTxBytes else req.maxTxBytes) ∧
      (if req.maxTxBytes > maxProposalTxBytes then maxProposalTxBytes else req.maxTxBytes) ≤ maxProposalTxBytes := by
    split
    · exact ⟨by decide, Int64.le_refl _⟩
    case isFalse hsmall => exact ⟨hpositive, Int64.not_lt.mp hsmall⟩
  have hloop := hfiltered
  simp only [Application.executeProposalFromStore, bind_ok, refuseIf_ok, exists_const] at hloop
  obtain ⟨kept, hkept⟩ := filtered_replays hlimits.1 hlimits.2 _ hloop.2
  have hraw : execution.rawTxs = kept := hkept.rawTxs
  have hstrict : a.executeProposalFromStore runtime begun.2.store execution.rawTxs req.height begun.1 maxProposalTxBytes
      true = .ok execution := by
    have hcount : kept.length ≤ maxTransactionsPerBlock := by
      have hfull := hkept.full (Nat.zero_le _)
      rw [hkept.count] at hfull
      exact (Nat.le_add_left _ _).trans hfull
    simp only [Application.executeProposalFromStore, bind_ok, refuseIf_ok, exists_const]
    rw [hraw]
    exact ⟨fun h => absurd h.2 (Nat.not_lt.mpr hcount), hkept.strict 0⟩
  refine ⟨rfl, ?_, ?_, begun, execution, hbegun, rfl, hkept.gas UInt64.zero_le, hfiltered, hstrict⟩
  · rw [hraw, ← List.zipIdx_map_fst 0 req.txs]
    exact hkept.chosen
  · unfold Application.processProposal
    rw [hready, haccepts]
    dsimp only
    rw [hstrict]

omit [Primitives] [DecodesJson Transaction] in
theorem le_max_uint64 (left right : UInt64) : right ≤ max left right := by
  change right ≤ if left ≤ right then right else left
  split
  · exact UInt64.le_refl _
  case isFalse hlt => exact UInt64.le_of_lt (UInt64.not_le.mp hlt)

omit [DecodesJson Transaction] in
/-- What `ProcessProposal` checks is all that `FinalizeBlock` checks before it executes. -/
theorem acceptableProposal_ok {req : FinalizeBlockRequest} {found : String × ProposalEvidenceState}
    (hready : a.requireReady = .ok ()) (h : a.acceptableProposal req = .ok found) :
    ∃ begun, a.beginBlock req = .ok begun ∧ begun.proposer = found.1 ∧ begun.evidence = found.2 := by
  simp only [Application.acceptableProposal, bind_ok, refuseIf_ok, exists_const, pure_eq_ok, Except.ok.injEq, not_or,
    not_not] at h
  obtain ⟨⟨hheight, hcandidate⟩, _, hsupport, blockHash, hhash, proposer, hproposer, evidence, hevidence, rfl⟩ := h
  -- the version that the next height needs is one of the two that are supported
  obtain ⟨updates, hupdates⟩ : ∃ updates, a.consensusParamUpdates req.height = .ok updates := by
    unfold Application.consensusParamUpdates
    split
    · exact ⟨_, rfl⟩
    case isFalse hlow =>
      dsimp only
      split
      · exact ⟨_, rfl⟩
      · simp only [Application.requireProtocolSupport, refuseIf_ok, if_pos (Int64.not_le.mp hlow)] at hsupport
        refine ⟨_, bind_ok.mpr ⟨(), refuseIf_ok.mpr fun hnext => hsupport ?_, rfl⟩⟩
        exact UInt64.lt_of_lt_of_le hnext (le_max_uint64 _ _)
  refine ⟨⟨updates, blockHash, proposer, evidence⟩, ?_, rfl, rfl⟩
  simp only [Application.beginBlock, bind_ok, refuseIf_ok, exists_const, pure_eq_ok, Except.ok.injEq, not_not]
  exact ⟨(), hready, hcandidate, hheight, (), hsupport, updates, hupdates, blockHash, hhash, proposer, hproposer, evidence,
    hevidence, rfl⟩

/-- A block that `ProcessProposal` has accepted, decided in the same state, is refused by `FinalizeBlock` only where sealing
it fails: its checks pass and its execution succeeds, and a refusal halts nothing and leaves the application. -/
theorem accepted_decides {req : FinalizeBlockRequest}
    (h : Application.processProposal runtime req a = (.ok .accept, a')) :
    ∃ begun execution, a.beginBlock req = .ok begun ∧
      a.executeProposalFromStore runtime begun.evidence.store req.txs req.height begun.proposer maxProposalTxBytes true =
        .ok execution ∧
      ((∃ decided response, a.sealBlock req begun execution = .ok decided ∧
          Application.finalizeBlock runtime req a =
            (.ok response, { a with candidate := some decided.candidate, trees := decided.trees })) ∨
        ∃ err, a.sealBlock req begun execution = .error err ∧
          Application.finalizeBlock runtime req a = (.error err, a)) := by
  obtain ⟨found, execution, hready, haccepts, hexecutes⟩ : ∃ found execution, a.requireReady = .ok () ∧
      a.acceptableProposal req = .ok found ∧ a.executeProposalFromStore runtime found.2.store req.txs req.height found.1
        maxProposalTxBytes true = .ok execution := by
    unfold Application.processProposal at h
    split at h
    · cases h
    · cases h
    case h_3 found hready haccepts =>
      split at h
      case h_1 execution hexecutes => exact ⟨found, execution, hready, haccepts, hexecutes⟩
      · split at h
        · cases h
        · cases h
  obtain ⟨begun, hbegins, hproposer, hevidence⟩ := acceptableProposal_ok hready haccepts
  rw [← hproposer, ← hevidence] at hexecutes
  refine ⟨begun, execution, hbegins, hexecutes, ?_⟩
  cases hseals : a.sealBlock req begun execution with
  | ok decided =>
    obtain ⟨response, hresponse⟩ := finalizeBlock_run hbegins hexecutes hseals
    exact .inl ⟨decided, response, rfl, hresponse⟩
  | error err =>
    have hbegun : (Action.lift (a.beginBlock req) : Action Application GoError BegunBlock) a = (.ok begun, a) :=
      Action.lift_run_ok.mpr ⟨hbegins, rfl⟩
    refine .inr ⟨err, rfl, (bind_of_run hbegun).trans ((bind_of_run (haltIfFatal_ok.mpr ⟨hexecutes, rfl⟩)).trans ?_)⟩
    change Action.andThen _ (a.sealBlock req begun execution, a) = _
    rw [hseals]
    rfl

end Model

section Lab

attribute [local instance] checksumPrimitives readsPayments readsGenesis

/-- Of four candidates two are left: one comes too early, and one is no transaction. -/
def appProposal : PrepareProposalRequest where
  maxTxBytes := 1000000
  txs := [rawPayment 1, rawPayment 0, [], rawPayment 1]
  misbehavior := []
  height := 1
  time := default
  proposerAddress := (validatorKey 3).drop 13

theorem prepared_accepted_app :
    ∃ txs, (Application.prepareProposal appRuntime appProposal appPooled).1.toOption = some txs ∧
      txs = [rawPayment 0, rawPayment 1] ∧
      Application.processProposal appRuntime ⟨List.replicate 32 0, 1, default, (validatorKey 3).drop 13, txs, []⟩
        appPooled = (.ok .accept, appPooled) := by
  have hprepared : (Application.prepareProposal appRuntime appProposal appPooled).1.toOption =
      some [rawPayment 0, rawPayment 1] := by decide +kernel
  refine ⟨_, hprepared, rfl, ?_⟩
  generalize hran : Application.prepareProposal appRuntime appProposal appPooled = ran at hprepared
  obtain ⟨err | txs, after⟩ := ran
  · cases hprepared
  · obtain rfl := Option.some.inj hprepared
    exact (prepared_accepted List.length_replicate hran).2.2.1

theorem accepted_decides_app :
    ∃ begun execution decided response, appPooled.sealBlock appBlock begun execution = .ok decided ∧
      decided.candidate.txs = [rawPayment 0] ∧ Application.finalizeBlock appRuntime appBlock appPooled =
        (.ok response, { appPooled with candidate := some decided.candidate, trees := decided.trees }) := by
  have haccepted : (Application.processProposal appRuntime appBlock appPooled).1.toOption = some .accept := by
    decide +kernel
  generalize hran : Application.processProposal appRuntime appBlock appPooled = ran at haccepted
  obtain ⟨err | status, after⟩ := ran
  · cases haccepted
  · obtain rfl := Option.some.inj haccepted
    obtain ⟨begun, execution, hbegins, hexecutes, hends⟩ := accepted_decides hran
    obtain rfl := Except.ok.inj (begin_app.symm.trans hbegins)
    obtain rfl := Except.ok.inj (execute_app.symm.trans hexecutes)
    rcases hends with ⟨decided, response, hseals, hfinalized⟩ | ⟨err, herr, -⟩
    · refine ⟨_, _, decided, response, hseals, ?_, hfinalized⟩
      obtain rfl := Except.ok.inj (seal_app.symm.trans hseals)
      decide +kernel
    · cases seal_app.symm.trans herr

end Lab

end ChainLab.Abci
