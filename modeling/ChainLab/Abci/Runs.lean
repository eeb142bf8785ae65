import ChainLab.Abci.BlockSteps
import ChainLab.Abci.Penalties
import ChainLab.Abci.Persisted
import ChainLab.Abci.StateTree
import ChainLab.Contracts.Token
import ChainLab.Crypto.Checksum
import ChainLab.Lib.Undo

/-! Runs of the application: any sequence of the requests that start the chain and of those that check, order, execute or
commit transactions, whatever the database answers, on a new application or on one that is opened again. The tree that is
brought up to date block after block commits to the committed store, as a tree built from that store would. -/

namespace ChainLab.Abci

open ChainLab.Lib ChainLab.Types ChainLab.Crypto ChainLab.State ChainLab.Core ChainLab.Proof
open Relation (ReflTransGen)

/-- A committed state that the database has taken. -/
def CommittedState.saved (committed : CommittedState) : CommittedState :=
  { committed with store := committed.store.resetMutations }

section Rules

open Action

variable {a : Application}

theorem requireReady_ok {u : Unit} : a.requireReady = .ok u ↔ a.closed = false ∧ a.haltErr = none ∧
    a.initialized = true ∧ a.committed.commitment.height < maxInt64 := by
  unfold Application.requireReady
  cases a.haltErr with
  | none => simp [bind_ok, refuseIf_ok]
  | some err => simp [bind_ok, refuseIf_ok]

theorem triple_haltIfFatal {α β : Type} {wrap : GoError → GoError} {outcome : Result α}
    {f : α → Action Application GoError β} {Q : β → Application → Prop} {E : GoError → Application → Prop}
    (hok : ∀ value, outcome = .ok value → Triple (fun s => s = a) (f value) Q E) (hrests : ∀ err, E err a)
    (hhalts : ∀ err halted, E err { a with haltErr := some halted }) :
    Triple (fun s => s = a) (Application.haltIfFatal wrap outcome >>= f) Q E := by
  cases outcome with
  | ok value => exact fun s hs => hok value rfl s hs
  | error err =>
    rintro s rfl
    refine ⟨fun b s' heq => (by cases heq), fun e s' heq => ?_⟩
    obtain ⟨-, hs'⟩ := Prod.mk.inj heq
    rw [← hs']
    split
    · exact hhalts e err
    · exact hrests e

theorem triple_persist {β : Type} {save : PersistedApplicationState → Result Unit} {committed : CommittedState}
    {proposers : GoMap String String} {txs : List (List UInt8)} {receipts : List Receipt}
    {f : CommittedState → Action Application GoError β} {Q : β → Application → Prop} {E : GoError → Application → Prop}
    (hhalts : ∀ err, E err { a with haltErr := some err }) (hok : Triple (fun s => s = a) (f committed.saved) Q E) :
    Triple (fun s => s = a) (Application.persist save committed proposers txs receipts >>= f) Q E := by
  rintro s rfl
  change (∀ b s', andThen f (Application.persist save committed proposers txs receipts s) = (.ok b, s') → Q b s') ∧
    ∀ e s', andThen f (Application.persist save committed proposers txs receipts s) = (.error e, s') → E e s'
  unfold Application.persist
  split
  · exact hok s rfl
  · next err _ =>
    refine ⟨fun b s' heq => (by cases heq), fun e s' heq => ?_⟩
    obtain ⟨he, hs'⟩ := Prod.mk.inj heq
    rw [← hs', Except.error.inj he]
    exact hhalts e

theorem haltIfFatal_ok {α : Type} {wrap : GoError → GoError} {outcome : Result α} {value : α} {a' : Application} :
    Application.haltIfFatal wrap outcome a = (.ok value, a') ↔ outcome = .ok value ∧ a = a' := by
  cases outcome with
  | ok _ => exact Action.pure_run_ok.trans (by rw [Except.ok.injEq])
  | error _ => simp [Application.haltIfFatal]

theorem bind_of_run {α β : Type} {x : Action Application GoError α} {f : α → Action Application GoError β} {value : α}
    {a' : Application} (h : x a = (.ok value, a')) : (x >>= f) a = f value a' := by
  change Action.andThen f (x a) = _
  rw [h]
  rfl

theorem lt_next_height {height : Int64} (h : height < maxInt64) : height < height + 1 := by
  have hmax : maxInt64.toInt = 2 ^ 63 - 1 := rfl
  have hone : (1 : Int64).toInt = 1 := rfl
  have hlow := height.le_toInt
  rw [Int64.lt_iff_toInt_lt] at h ⊢
  rw [toInt_add_of_fits (by omega) (by omega), hone]
  omega

/-- No upgrade is in force at the genesis. -/
theorem protocolAtHeight_zero {genesis : GenesisDocument} (h : validateProtocolUpgrades genesis = .ok ()) :
    protocolAtHeight genesis 0 = genesis.protocol := by
  unfold protocolAtHeight
  cases hupgrades : genesis.upgrades with
  | nil => rfl
  | cons first rest =>
    have hscan : ∃ b b', scanUpgrade b (first, .v3, 0) = .ok b' := by
      rw [validateProtocolUpgrades, if_neg (by simp [hupgrades])] at h
      simp only [bind_ok, refuseIf_ok, exists_const, pure_eq_ok, hupgrades] at h
      obtain ⟨-, -, _, hfold, -⟩ := h
      exact foldlM_visits _ hfold (first, .v3, 0) List.mem_cons_self
    obtain ⟨_, _, hscan⟩ := hscan
    simp only [scanUpgrade, bind_ok, refuseIf_ok, exists_const] at hscan
    have hlate : (0 : Int64) < first.height := by
      have hnot := Int64.not_lt.mp hscan.1
      exact Int64.lt_of_lt_of_le (by decide) hnot
    rw [List.takeWhile_cons_of_neg (by simp [hlate])]
    rfl

end Rules

section Model

variable [Primitives]

/-! ### Trees -/

section Trees

variable {trees trees' : SparseHeap} {tree other : Nat} {snapshot : Snapshot} {stale : Set FlatKey}

theorem HoldsState.clone (h : HoldsState trees tree snapshot stale) :
    HoldsState (trees.clone tree) trees.objects.length snapshot stale := by
  obtain ⟨m, hholds, hcommits⟩ := h
  obtain ⟨leaves, hr, hleaves⟩ := hholds.leaves
  exact ⟨m, ⟨by simp [SparseHeap.clone], leaves, clone_new hr, hleaves⟩, hcommits⟩

/-- What is written to a new clone changes no tree that was there before. -/
theorem HoldsState.beside_clone (h : HoldsState trees other snapshot stale) (hp : ParentsOlder trees.objects)
    (htree : tree < trees.objects.length) (htouch : Touches trees.objects.length (trees.clone tree) trees') :
    HoldsState trees' other snapshot stale := by
  obtain ⟨m, hholds, hcommits⟩ := h
  obtain ⟨leaves, hr, hleaves⟩ := hholds.leaves
  have hmem := hholds.mem
  have hcloned : Holds (trees.clone tree) other m := by
    refine ⟨?_, leaves, clone_other hmem hr, hleaves⟩
    simp only [SparseHeap.clone, List.length_cons]
    omega
  refine ⟨m, hcloned.of_touches htouch (by simp [SparseHeap.clone]) (fun hancestor => ?_) hmem.ne, hcommits⟩
  have hle := (ancestors_le (parentsOlder_clone hp htree) hancestor).1
  omega

theorem HoldsState.publish (h : HoldsState trees tree snapshot stale) (hp : ParentsOlder trees.objects) :
    HoldsState (trees.publish tree) (trees.baseOf tree) snapshot stale := by
  obtain ⟨m, hholds, hcommits⟩ := h
  obtain ⟨leaves, hr, hleaves⟩ := hholds.leaves
  have hpublished := published_publish hp tree hholds.mem
  have hbase := hpublished.base_le
  have hmem := hholds.mem
  refine ⟨m, ⟨?_, leaves, hr.congr hpublished.domain hpublished.node hpublished.leaf hpublished.count,
    hpublished.domain ▸ hleaves⟩, hcommits⟩
  rw [hpublished.length]
  omega

theorem HoldsState.lt (h : HoldsState trees tree snapshot stale) : tree < trees.objects.length := by
  obtain ⟨m, hholds, -⟩ := h
  exact hholds.mem

/-- A clone of a tree that is up to date, written at what a journal names, is up to date with what was journalled. -/
theorem HoldsState.applied {store store' : Store} (h : HoldsState trees tree store.snapshot ∅)
    (hp : ParentsOlder trees.objects) (hempty : store.mutations = {}) (hjournals : Journals store store')
    (happly : applyStoreMutationsToSparseTree (trees.clone tree) trees.objects.length store' = .ok trees') :
    Touches trees.objects.length (trees.clone tree) trees' ∧
      HoldsState trees' trees.objects.length store'.snapshot ∅ := by
  obtain ⟨m, hholds, hcommits⟩ := h.clone
  have hcanonical : CanonicalJournal store.mutations := by
    rw [hempty]
    exact ⟨fun _ hmem => absurd hmem (Finset.notMem_empty _), fun _ hmem => absurd hmem (Finset.notMem_empty _)⟩
  exact applyStoreMutationsToSparseTree_holds (hjournals.canonical hcanonical) (parentsOlder_clone hp h.lt)
    ⟨m, hholds, (hcommits.mono (Set.empty_subset _)).journals hjournals⟩ happly

end Trees

/-! ### The invariant -/

/-- A state that a block or a genesis leads to: its tree commits to its store, and so does the root that is signed. -/
structure Rooted (trees : SparseHeap) (state : CommittedState) : Prop where
  tree : HoldsState trees state.flatTree state.store.snapshot ∅
  lifecycle : ValidLifecycle state.store
  root : stateRootForProtocol state.commitment.protocol state.store = .ok state.commitment.stateRoot

/-- What holds between two requests. -/
structure Tracked (a : Application) : Prop where
  domain : a.trees.domain = domainSparseState
  parents : ParentsOlder a.trees.objects
  committed : Rooted a.trees a.committed
  journal : a.committed.store.mutations = {}
  validators : ∀ address ∈ a.committed.store.validators, IsCanonicalAddress address
  proposers : ∀ key account, a.proposers.lookup key = some account → IsCanonicalAddress account
  unstarted : a.initialized = false → a.candidate = none ∧ a.committed.commitment.protocol = a.genesis.protocol
  candidate : ∀ candidate, a.candidate = some candidate →
    Rooted a.trees candidate.state ∧ candidate.state.store.validators = a.committed.store.validators

section Invariant

variable {a a' : Application} {trees trees' : SparseHeap} {state : CommittedState}

theorem Rooted.saved (h : Rooted trees state) : Rooted trees state.saved := ⟨h.tree, h.lifecycle, h.root⟩

theorem Rooted.published (h : Rooted trees state) (hp : ParentsOlder trees.objects) :
    Rooted (trees.publish state.flatTree) { state with flatTree := trees.baseOf state.flatTree } :=
  ⟨h.tree.publish hp, h.lifecycle, h.root⟩

theorem Rooted.beside_clone (h : Rooted trees state) {tree : Nat} (hp : ParentsOlder trees.objects)
    (htree : tree < trees.objects.length) (htouch : Touches trees.objects.length (trees.clone tree) trees') :
    Rooted trees' state :=
  ⟨h.tree.beside_clone hp htree htouch, h.lifecycle, h.root⟩

/-- The root of the tree is the root of the state under every version that uses the tree. -/
theorem stateRootForCommitted_rebuild {protocol : Protocol} {store : Store} {tree : Nat} {root : String}
    (htree : HoldsState trees tree store.snapshot ∅) (hdomain : trees.domain = domainSparseState)
    (h : stateRootForCommitted protocol store trees tree = .ok root) : stateRootForProtocol protocol store = .ok root := by
  unfold stateRootForCommitted at h
  split at h
  · exact h
  · next hsparse =>
    obtain ⟨fresh, hbuild, hroot⟩ := htree.rebuild hdomain
    have hmerkle : protocol.usesMerkleProofs = true := by
      cases protocol with
      | v4 => rfl
      | v5 => rfl
      | _ => exact absurd rfl hsparse
    have hsparse : protocol.usesSparseState = true := by simpa using hsparse
    rw [stateRootForProtocol, hmerkle, hsparse, hbuild, ← h, ← hroot]
    rfl

/-- The account that a proposer's address stands for is canonical. -/
theorem Tracked.proposer_canonical (h : Tracked a) {address : List UInt8} {height : Int64} {account : String}
    (hproposer : a.proposer address height = .ok account) : IsCanonicalAddress account := by
  simp only [Application.proposer, Application.validatorAccount, mapError_ok, bind_ok, refuseIf_ok, exists_const] at hproposer
  obtain ⟨-, hproposer⟩ := hproposer
  split at hproposer
  · simp only [bind_ok, require_ok, refuseIf_ok, exists_const, pure_eq_ok, Except.ok.injEq] at hproposer
    obtain ⟨identity, hidentity, -, rfl⟩ := hproposer
    obtain ⟨lifecycle, hlifecycle, hlookup⟩ := Option.bind_eq_some_iff.mp hidentity
    exact identity_account_canonical (identity_valid (h.committed.lifecycle lifecycle hlifecycle) hlookup).2
  · exact h.proposers _ _ (require_ok.mp hproposer)

/-- The lifecycle that version 2 starts from is one write. -/
theorem initializeValidatorLifecycle_steps {store store' : Store} {identities : List ValidatorIdentity}
    (h : store.initializeValidatorLifecycle identities = .ok store') : Steps anyLifecycle store store' := by
  simp only [Store.initializeValidatorLifecycle, bind_ok, refuseIf_ok, exists_const] at h
  obtain ⟨-, _, -, hset⟩ := h
  exact .single (.setValidatorLifecycle trivial hset)

/-- The state of the genesis block. -/
theorem Tracked.genesisState (h : Tracked a) (hunstarted : a.initialized = false) {identities : List ValidatorIdentity}
    {next : CommittedState × SparseHeap} (hnext : a.genesisState identities = .ok next) :
    next.2.domain = domainSparseState ∧ ParentsOlder next.2.objects ∧ Rooted next.2 next.1 ∧
      next.1.store.validators = a.committed.store.validators := by
  unfold Application.genesisState at hnext
  split at hnext
  · next hversion =>
    simp only [bind_ok, mapError_ok, pure_eq_ok, Except.ok.injEq] at hnext
    obtain ⟨store, hstore, trees, happly, rfl⟩ := hnext
    have hsteps := initializeValidatorLifecycle_steps hstore
    obtain ⟨hvalidators, hlifecycle⟩ := hsteps.validators h.committed.lifecycle
    obtain ⟨htouch, htree⟩ := h.committed.tree.applied h.parents h.journal (steps_journals hsteps) happly
    refine ⟨htouch.1.trans h.domain, htouch.parentsOlder (parentsOlder_clone h.parents h.committed.tree.lt),
      ⟨htree, hlifecycle, ?_⟩, hvalidators⟩
    change stateRootForProtocol a.committed.commitment.protocol store = .ok store.root
    rw [(h.unstarted hunstarted).2, hversion]
    rfl
  · cases hnext
    exact ⟨h.domain, h.parents, h.committed, rfl⟩

/-- The accounts that the genesis validators are bound to. -/
theorem bindGenesisValidators_mem {updates : List GenesisValidator} {expected : List String}
    {bound : GoMap String String × List ValidatorIdentity} (h : bindGenesisValidators updates expected = .ok bound)
    {key account : String} (hlookup : bound.1.lookup key = some account) : account ∈ expected := by
  simp only [bindGenesisValidators, bind_ok, refuseIf_ok, exists_const, pure_eq_ok, Except.ok.injEq] at h
  obtain ⟨-, -, scanned, hscan, hsorted, rfl⟩ := h
  have hbound : ∀ key account, scanned.proposers.lookup key = some account → account ∈ scanned.accounts := by
    refine foldlM_keeps (fun bound : Bindings => ∀ key account, bound.proposers.lookup key = some account →
      account ∈ bound.accounts) _ (fun before entry after _ hbefore hround => ?_) (by simp) hscan
    simp only [bindGenesisValidator, bind_ok, refuseIf_ok, require_ok, exists_const, pure_eq_ok, Except.ok.injEq] at hround
    obtain ⟨-, made, -, -, rfl⟩ := hround
    intro key account hlookup
    rw [GoMap.lookup_insert_if] at hlookup
    split at hlookup
    · exact List.mem_append_right _ (List.mem_singleton.mpr (Option.some.inj hlookup).symm)
    · exact List.mem_append_left _ (hbefore key account hlookup)
  have hmem := (List.mem_insertionSort (· ≤ ·)).mpr (hbound key account hlookup)
  rw [not_not.mp hsorted] at hmem
  exact (List.mem_insertionSort (· ≤ ·)).mp hmem

theorem newStoreFromSnapshot_validators {snapshot : Snapshot} {store : Store}
    (h : newStoreFromSnapshot snapshot = .ok store) : ∀ address ∈ store.validators, IsCanonicalAddress address := by
  simp only [newStoreFromSnapshot, bind_ok, pure_eq_ok] at h
  obtain ⟨_, -, _, -, _, -, _, -, _, -, _, -, validators, hvalidators, hlifecycle⟩ := h
  have hkept : store.validators = validators := by
    cases hsnapshot : snapshot.validatorLifecycle with
    | none =>
      simp only [hsnapshot, bind_ok, Except.ok.injEq] at hlifecycle
      obtain ⟨_, rfl, rfl⟩ := hlifecycle
      rfl
    | some lifecycle =>
      simp only [hsnapshot, bind_ok, mapError_ok, Except.ok.injEq] at hlifecycle
      obtain ⟨loaded, hset, rfl⟩ := hlifecycle
      exact (setValidatorLifecycle_keepsValidators hset).validators
  rw [hkept]
  simp only [validateSnapshotValidators, bind_ok, refuseIf_ok, exists_const] at hvalidators
  refine foldlM_keeps (fun kept : List String => ∀ address ∈ kept, IsCanonicalAddress address) _
    (fun before entry after _ hbefore hround => ?_) (by simp) hvalidators.2.2
  simp only [scanSnapshotValidator, validateCanonicalAddressValue, bind_ok, refuseIf_ok, exists_const, pure_eq_ok,
    Except.ok.injEq, not_not] at hround
  obtain ⟨hcanonical, -, rfl⟩ := hround
  intro address hmem
  rcases List.mem_append.mp hmem with hmem | hmem
  · exact hbefore address hmem
  · rw [List.mem_singleton.mp hmem]
    exact hcanonical

end Invariant

variable [DecodesJson Transaction] {runtime : Core.Runtime}

/-! ### Opening -/

section Opening

/-- `persistedStateFromFlatV2` has read this state from the flat entries of a database, which were written for the store
that is read: the tree of the entries is built, and the state passes its checks with the root of that tree. -/
def ReadFromFlat (genesis : GenesisDocument) (loaded : PersistedApplicationState) : Prop :=
  ∃ snapshot flat trees genesisHash, newStoreFromSnapshot snapshot = .ok loaded.committed.store ∧
    flattenStateSnapshot loaded.committed.store.snapshot = .ok flat ∧ buildFlatSparseTree flat = .ok trees ∧
    validatePersistedApplicationState genesis genesisHash (some (trees.root 0)) loaded = .ok ()

/-- What a database returns for a genesis: the state that it was given, or a stored one. -/
def Loads (load : GenesisDocument → PersistedApplicationState → Result PersistedApplicationState) : Prop :=
  ∀ genesis initial loaded, load genesis initial = .ok loaded → loaded = initial ∨ ReadFromFlat genesis loaded

/-- An application that was just opened, on a new database or on one that it has used before. -/
def Opened (a : Application) : Prop :=
  ∃ document maxAppVersion cometRetainHeights load, Loads load ∧
    newApplication document maxAppVersion cometRetainHeights load = .ok a

variable {genesis document : GenesisDocument} {value : PersistedApplicationState} {genesisHash : String}

/-- What is loaded has the root of its store, its proposers are canonical, and it is at the genesis unless it was
initialized. -/
theorem validatePersisted_spec {trees : SparseHeap} (hbuild : buildStoreSparseTree value.committed.store = .ok trees)
    (h : validatePersistedApplicationState genesis genesisHash (some (trees.root 0)) value = .ok ()) :
    stateRootForProtocol value.committed.commitment.protocol value.committed.store =
        .ok value.committed.commitment.stateRoot ∧
      (∀ key account, value.proposers.lookup key = some account → IsCanonicalAddress account) ∧
      value.committed.commitment.protocol = protocolAtHeight genesis value.committed.commitment.height ∧
      (value.initialized = false → value.committed.commitment.height = 0) := by
  simp only [validatePersistedApplicationState, bind_ok, refuseIf_ok, exists_const, not_or, not_not] at h
  obtain ⟨⟨-, hprotocol, -⟩, -, expected, hexpected, hroot, _, -, _, -, -, h⟩ := h
  have hroot : stateRootForProtocol value.committed.commitment.protocol value.committed.store =
      .ok value.committed.commitment.stateRoot := by
    rw [hroot, ← hexpected, expectedStateRoot]
    split
    · next hsparse =>
      have hmerkle : value.committed.commitment.protocol.usesMerkleProofs = true := by
        generalize value.committed.commitment.protocol = protocol at hsparse
        cases protocol <;> first | rfl | cases hsparse
      rw [stateRootForProtocol, hmerkle, hsparse, hbuild]
      rfl
    · rfl
  refine ⟨hroot, fun key account hlookup => ?_, hprotocol, fun hinitialized => ?_⟩
  · split at h
    · simp only [refuseIf_ok, not_or, not_not] at h
      rw [GoMap.len_eq_zero.mp h.2.1] at hlookup
      simp at hlookup
    · simp only [validatePersistedBlock, bind_ok, refuseIf_ok, exists_const] at h
      obtain ⟨-, _, -, _, -, -, _, -, -, -, _, hscan, -⟩ := h
      obtain ⟨_, _, hround⟩ := foldlM_visits _ hscan key
        (GoMap.mem_sortedKeys.mpr (Finmap.mem_of_lookup_eq_some hlookup))
      simp only [validatePersistedProposer, bind_ok, require_ok, refuseIf_ok, exists_const, not_not] at hround
      obtain ⟨_, -, -, hcanonical, -⟩ := hround
      rwa [GoMap.get, hlookup] at hcanonical
  · rw [hinitialized] at h
    simp only [Bool.not_false, if_true, refuseIf_ok, not_or, not_not] at h
    exact h.1

theorem Opened.tracked {a : Application} (h : Opened a) : Tracked a := by
  obtain ⟨document, maxAppVersion, cometRetainHeights, load, hload, hnew⟩ := h
  simp only [newApplication, bind_ok, mapError_ok, refuseIf_ok, exists_const, pure_eq_ok, Except.ok.injEq] at hnew
  obtain ⟨_, -, store, hgenesis, persisted, hpersisted, trees, hbuild, -, rfl⟩ := hnew
  simp only [validateGenesisDocument, bind_ok, mapError_ok, refuseIf_ok, exists_const, pure_eq_ok,
    Except.ok.injEq] at hgenesis
  obtain ⟨_, hversion, _, hupgrades, _, -, -, made, hmade, -, -, _, -, rfl⟩ := hgenesis
  obtain ⟨hdomain, hparents, htree⟩ := buildStoreSparseTree_holds hbuild
  rcases hload _ _ _ hpersisted with rfl | ⟨snapshot, flat, stored, genesisHash, hsnapshot, hflat, hstored, hvalid⟩
  · obtain ⟨hjournal, hlifecycle⟩ := newStoreFromSnapshot_valid hmade
    have hroot : stateRootForProtocol document.protocol made = .ok made.root := by
      cases hprotocol : document.protocol with
      | v1 => rfl
      | v2 => rfl
      | _ => simp [validateGenesisProtocol, hprotocol] at hversion
    exact ⟨hdomain, hparents, ⟨htree, hlifecycle, hroot⟩, hjournal, newStoreFromSnapshot_validators hmade,
      fun _ _ hlookup => (by simp [initialState] at hlookup), fun _ => ⟨rfl, rfl⟩, fun _ hnone => (by cases hnone)⟩
  · obtain ⟨hjournal, hlifecycle⟩ := newStoreFromSnapshot_valid hsnapshot
    have hstored : buildStoreSparseTree persisted.committed.store = .ok stored := bind_ok.mpr ⟨flat, hflat, hstored⟩
    obtain ⟨hroot, hproposers, hprotocol, hheight⟩ := validatePersisted_spec hstored hvalid
    refine ⟨hdomain, hparents, ⟨htree, hlifecycle, hroot⟩, hjournal, newStoreFromSnapshot_validators hsnapshot,
      hproposers, fun hnot => ⟨rfl, ?_⟩, fun _ hnone => (by cases hnone)⟩
    change persisted.committed.commitment.protocol = document.protocol
    rw [hprotocol, hheight hnot]
    exact protocolAtHeight_zero hupgrades

end Opening

/-! ### Blocks -/

section Blocks

variable {a : Application}

/-- A block that is begun, executed and sealed is decided. -/
theorem finalizeBlock_run {req : FinalizeBlockRequest} {begun : BegunBlock} {execution : ProposalExecution}
    {decided : SealedBlock} (hbegins : a.beginBlock req = .ok begun)
    (hexecutes : a.executeProposalFromStore runtime begun.evidence.store req.txs req.height begun.proposer
      maxProposalTxBytes true = .ok execution) (hseals : a.sealBlock req begun execution = .ok decided) :
    ∃ response, Application.finalizeBlock runtime req a =
      (.ok response, { a with candidate := some decided.candidate, trees := decided.trees }) := by
  have hbegun : (Action.lift (a.beginBlock req) : Action Application GoError BegunBlock) a = (.ok begun, a) :=
    Action.lift_run_ok.mpr ⟨hbegins, rfl⟩
  exact ⟨_, (bind_of_run hbegun).trans ((bind_of_run (haltIfFatal_ok.mpr ⟨hexecutes, rfl⟩)).trans
    ((bind_of_run (Action.lift_run_ok.mpr ⟨hseals, rfl⟩)).trans rfl))⟩

/-- The state that a block is decided on, and the tree made for it. -/
theorem Tracked.decided (h : Tracked a) (hr : ∀ context, runtime.Writes (Admits context)) {req : FinalizeBlockRequest}
    {begun : BegunBlock} {execution : ProposalExecution} {decided : SealedBlock} (hbegins : a.beginBlock req = .ok begun)
    (hexecutes : a.executeProposalFromStore runtime begun.evidence.store req.txs req.height begun.proposer
      maxProposalTxBytes true = .ok execution) (hseals : a.sealBlock req begun execution = .ok decided) :
    Tracked { a with candidate := some decided.candidate, trees := decided.trees } := by
  simp only [Application.beginBlock, bind_ok, refuseIf_ok, exists_const, pure_eq_ok, Except.ok.injEq] at hbegins
  obtain ⟨_, hready, -, -, _, -, updates, -, blockHash, -, proposer, hproposer, evidence, hevidence, rfl⟩ := hbegins
  simp only [Application.sealBlock, bind_ok, mapError_ok, pure_eq_ok, Except.ok.injEq] at hseals
  obtain ⟨txRoot, -, receiptRoot, -, trees, happly, stateRoot, hroot, validatorUpdates, -, rfl⟩ := hseals
  have hsteps : Steps anyLifecycle a.committed.store execution.store :=
    (Application.proposalEvidenceState_steps h.committed.lifecycle hevidence).trans
      (Application.executeProposalFromStore_steps hr (fun _ => h.proposer_canonical hproposer) hexecutes)
  obtain ⟨hvalidators, hlifecycle⟩ := hsteps.validators h.committed.lifecycle
  obtain ⟨htouch, htree⟩ := h.committed.tree.applied h.parents h.journal (steps_journals hsteps) happly
  have hdomain : trees.domain = domainSparseState := htouch.1.trans h.domain
  refine ⟨hdomain, htouch.parentsOlder (parentsOlder_clone h.parents h.committed.tree.lt),
    h.committed.beside_clone h.parents h.committed.tree.lt htouch, h.journal, h.validators, h.proposers,
    fun hnot => Bool.noConfusion ((requireReady_ok.mp hready).2.2.1.symm.trans hnot), ?_⟩
  rintro candidate ⟨⟩
  exact ⟨⟨htree, hlifecycle, stateRootForCommitted_rebuild htree hdomain hroot⟩, hvalidators⟩

end Blocks

/-! ### Requests -/

/-- A request that starts the chain, or that checks, orders, executes or commits transactions, with what the database does
about it. `Info`, `Query`, `ReapTxs`, vote extensions and snapshots are not among them. -/
inductive Request where
  | initChain (save : PersistedApplicationState → Result Unit) (req : InitChainRequest)
  | checkTx (known : Bool) (raw : List UInt8)
  | insertTx (raw : List UInt8)
  | prepareProposal (req : PrepareProposalRequest)
  | processProposal (req : FinalizeBlockRequest)
  | finalizeBlock (req : FinalizeBlockRequest)
  | commit (save : PersistedApplicationState → Result Unit)

variable [DecodesJson GenesisDocument]

/-- What is left of a request without the value that it returns. -/
def answered {α : Type} (ended : Result α × Application) : Result Unit × Application :=
  (ended.1.map fun _ => (), ended.2)

/-- A request: whether it succeeds, and the application after it. -/
def Application.serve (runtime : Core.Runtime) (a : Application) : Request → Result Unit × Application
  | .initChain save req => answered (initChain save req a)
  | .checkTx known raw => answered (checkTx runtime known raw a)
  | .insertTx raw => answered (insertTx runtime raw a)
  | .prepareProposal req => answered (prepareProposal runtime req a)
  | .processProposal req => answered (processProposal runtime req a)
  | .finalizeBlock req => answered (finalizeBlock runtime req a)
  | .commit save => answered (commit runtime save a)

/-- What a request can do. -/
inductive Served (runtime : Core.Runtime) (a : Application) : Application → Prop
  | rests : Served runtime a a
  | halts (err : GoError) : Served runtime a { a with haltErr := some err }
  | starts {req : InitChainRequest} {bound : GoMap String String × List ValidatorIdentity}
    {next : CommittedState × SparseHeap} (binds : a.bindChain req = .ok bound) (makes : a.genesisState bound.2 = .ok next) :
    Served runtime a { a.install next.1.saved next.2 with
      proposers := bound.1, initialized := true, mempool := newAppMempool next.1.saved.store }
  | pools {raw : List UInt8} {pool : AppMempool} {code : UInt32} (ready : a.requireReady = .ok ())
    (inserts : a.mempool.insert (a.rules runtime) (a.executionContext (a.committed.commitment.height + 1)
      a.committed.commitment.nextBaseFeePerGas) raw = .ok (pool, code)) :
    Served runtime a { a with mempool := pool }
  | decides {req : FinalizeBlockRequest} {begun : BegunBlock} {execution : ProposalExecution} {decided : SealedBlock}
    (begins : a.beginBlock req = .ok begun)
    (executes : a.executeProposalFromStore runtime begun.evidence.store req.txs req.height begun.proposer
      maxProposalTxBytes true = .ok execution)
    (seals : a.sealBlock req begun execution = .ok decided) :
    Served runtime a { a with candidate := some decided.candidate, trees := decided.trees }
  | advances {candidate : BlockCandidate} {pool : AppMempool} (ready : a.requireCandidate = .ok candidate)
    (rebuilds : a.nextMempool runtime candidate = .ok pool) :
    Served runtime a { a.install candidate.state.saved a.trees with
      committedTxs := candidate.txs, committedReceipts := candidate.receipts, candidate := none, mempool := pool }

section Requests

open Action

variable {a : Application}

theorem initChain_served (save : PersistedApplicationState → Result Unit) (req : InitChainRequest) :
    Triple (fun s => s = a) (Application.initChain save req) (fun _ => Served runtime a) fun _ => Served runtime a := by
  rintro s rfl
  refine Triple.lift_bind (P := fun s' => s' = s) (fun bound hbinds => ?_) (fun _ _ s' hs' => hs' ▸ .rests) s rfl
  refine Triple.lift_bind (fun next hmakes => ?_) fun _ _ s' hs' => hs' ▸ .rests
  refine triple_persist (fun _ => .halts _) (Triple.modify_bind fun t ht => Triple.pure fun _ hs' => ?_)
  rw [hs', ht]
  exact .starts hbinds hmakes

theorem finalizeBlock_served (req : FinalizeBlockRequest) :
    Triple (fun s => s = a) (Application.finalizeBlock runtime req) (fun _ => Served runtime a)
      fun _ => Served runtime a := by
  rintro s rfl
  refine Triple.lift_bind (P := fun s' => s' = s) (fun begun hbegins => ?_) (fun _ _ s' hs' => hs' ▸ .rests) s rfl
  refine triple_haltIfFatal (fun execution hexecutes => ?_) (fun _ => .rests) fun _ => .halts
  refine Triple.lift_bind (fun decided hseals => ?_) fun _ _ s' hs' => hs' ▸ .rests
  refine Triple.modify_bind fun t ht => Triple.pure fun _ hs' => ?_
  rw [hs', ht]
  exact .decides hbegins hexecutes hseals

theorem prepareProposal_served (req : PrepareProposalRequest) :
    Triple (fun s => s = a) (Application.prepareProposal runtime req) (fun _ => Served runtime a)
      fun _ => Served runtime a := by
  rintro s rfl
  refine Triple.lift_bind (P := fun s' => s' = s) (fun begun hbegins => ?_) (fun _ _ s' hs' => hs' ▸ .rests) s rfl
  exact triple_haltIfFatal (fun _ _ => Triple.pure fun s' hs' => hs' ▸ .rests) (fun _ => .rests) fun _ => .halts

theorem commit_served (save : PersistedApplicationState → Result Unit) :
    Triple (fun s => s = a) (Application.commit runtime save) (fun _ => Served runtime a) fun _ => Served runtime a := by
  rintro s rfl
  refine Triple.lift_bind (P := fun s' => s' = s) (fun candidate hready => ?_) (fun _ _ s' hs' => hs' ▸ .rests) s rfl
  refine triple_haltIfFatal (fun pool hrebuilds => ?_) (fun _ => .rests) fun _ => .halts
  refine triple_persist (fun _ => .halts _) (Triple.modify_bind fun t ht => Triple.pure fun _ hs' => ?_)
  rw [hs', ht]
  exact .advances hready hrebuilds

/-- One request. -/
theorem serve_served (a : Application) (request : Request) : Served runtime a (a.serve runtime request).2 := by
  cases request with
  | initChain save req => exact (initChain_served save req).leaves rfl (fun _ _ h => h) fun _ _ h => h
  | prepareProposal req => exact (prepareProposal_served req).leaves rfl (fun _ _ h => h) fun _ _ h => h
  | finalizeBlock req => exact (finalizeBlock_served req).leaves rfl (fun _ _ h => h) fun _ _ h => h
  | commit save => exact (commit_served save).leaves rfl (fun _ _ h => h) fun _ _ h => h
  | checkTx known raw =>
    unfold Application.serve answered Application.checkTx
    dsimp only
    split
    · exact .rests
    · split
      · exact .rests
      · split
        · exact .rests
        · split
          · split
            · exact .halts _
            · exact .rests
          · exact .rests
  | insertTx raw =>
    unfold Application.serve answered Application.insertTx
    dsimp only
    split
    · exact .rests
    · next hready =>
      split
      · next hinserts => exact .pools hready hinserts
      · split
        · exact .halts _
        · exact .rests
  | processProposal req =>
    unfold Application.serve answered Application.processProposal
    dsimp only
    split
    · exact .rests
    · exact .rests
    · split
      · exact .rests
      · split
        · exact .halts _
        · exact .rests

end Requests

section Steps

variable {a a' : Application}

theorem Served.tracked (hr : ∀ context, runtime.Writes (Admits context)) (h : Tracked a) (hserved : Served runtime a a') :
    Tracked a' := by
  cases hserved with
  | rests => exact h
  | halts err =>
    exact ⟨h.domain, h.parents, h.committed, h.journal, h.validators, h.proposers, h.unstarted, h.candidate⟩
  | pools =>
    exact ⟨h.domain, h.parents, h.committed, h.journal, h.validators, h.proposers, h.unstarted, h.candidate⟩
  | decides hbegins hexecutes hseals => exact h.decided hr hbegins hexecutes hseals
  | @starts req bound next hbinds hmakes =>
    simp only [Application.bindChain, bind_ok, refuseIf_ok, exists_const] at hbinds
    obtain ⟨-, hunstarted, -, -, -, _, -, -, _, -, hbinds⟩ := hbinds
    have hunstarted : a.initialized = false := by simpa using hunstarted
    obtain ⟨hdomain, hparents, hrooted, hvalidators⟩ := h.genesisState hunstarted hmakes
    have hpublished := published_publish hparents next.1.flatTree hrooted.tree.lt
    refine ⟨hpublished.domain.trans hdomain, hpublished.parents, hrooted.saved.published hparents, rfl, ?_, ?_,
      fun hnot => (by cases hnot), ?_⟩
    · exact fun address hmem => h.validators address (hvalidators ▸ hmem)
    · exact fun key account hlookup => h.validators account (bindGenesisValidators_mem hbinds hlookup)
    · intro candidate hcandidate
      cases (h.unstarted hunstarted).1.symm.trans hcandidate
  | @advances candidate pool hready hrebuilds =>
    simp only [Application.requireCandidate, bind_ok, require_ok, refuseIf_ok, exists_const, pure_eq_ok,
      Except.ok.injEq] at hready
    obtain ⟨_, hready, _, hcandidate, -, rfl⟩ := hready
    obtain ⟨hrooted, hvalidators⟩ := h.candidate _ hcandidate
    have hpublished := published_publish h.parents _ hrooted.tree.lt
    refine ⟨hpublished.domain.trans h.domain, hpublished.parents, hrooted.saved.published h.parents, rfl, ?_, h.proposers,
      fun hnot => Bool.noConfusion ((requireReady_ok.mp hready).2.2.1.symm.trans hnot), fun _ hnone => (by cases hnone)⟩
    exact fun address hmem => h.validators address (hvalidators ▸ hmem)

end Steps

/-! ### Runs -/

section Runs

/-- What requests lead to. -/
def Serves (runtime : Core.Runtime) : Application → Application → Prop :=
  ReflTransGen fun before after => ∃ request, after = (before.serve runtime request).2

/-- What requests lead to from an application that was just opened. -/
def Reached (runtime : Core.Runtime) (a : Application) : Prop := ∃ start, Opened start ∧ Serves runtime start a

variable {engine : Contracts.Engine} {a a' : Application}

theorem Reached.serves (h : Reached runtime a) (hrun : Serves runtime a a') : Reached runtime a' := by
  obtain ⟨start, hopened, hbefore⟩ := h
  exact ⟨start, hopened, hbefore.trans hrun⟩

theorem Reached.tracked (h : Reached (Contracts.runtime engine) a) : Tracked a := by
  obtain ⟨start, hopened, hrun⟩ := h
  induction hrun with
  | refl => exact hopened.tracked
  | tail _ hserved ih =>
    obtain ⟨request, rfl⟩ := hserved
    exact (serve_served _ request).tracked (fun _ => Contracts.runtime_writes engine _) ih

/-- After any sequence of these requests to an application that was opened on its genesis or again on its database, the
tree that was brought up to date block after block has the root of a tree built from the committed store alone, and the
state root of the commitment is the one that its version computes from that store; the same holds of a block that is
decided and not yet committed. -/
theorem stateRoot_rebuilds (h : Reached (Contracts.runtime engine) a) :
    (∃ fresh, buildStoreSparseTree a.committed.store = .ok fresh ∧ fresh.root 0 = a.trees.root a.committed.flatTree) ∧
      stateRootForProtocol a.committed.commitment.protocol a.committed.store = .ok a.committed.commitment.stateRoot ∧
      ∀ candidate, a.candidate = some candidate →
        (∃ fresh, buildStoreSparseTree candidate.state.store = .ok fresh ∧
          fresh.root 0 = a.trees.root candidate.state.flatTree) ∧
        stateRootForProtocol candidate.state.commitment.protocol candidate.state.store =
          .ok candidate.state.commitment.stateRoot := by
  have htracked := h.tracked
  refine ⟨htracked.committed.tree.rebuild htracked.domain, htracked.committed.root, fun candidate hcandidate => ?_⟩
  obtain ⟨hrooted, -⟩ := htracked.candidate candidate hcandidate
  exact ⟨hrooted.tree.rebuild htracked.domain, hrooted.root⟩

/-- A halted application that was started refuses every request. -/
theorem serve_halted {err : GoError} (hstarted : a.initialized = true) (hhalted : a.haltErr = some err)
    (request : Request) : ∃ refusal, a.serve runtime request = (.error refusal, a) := by
  obtain ⟨refusal, hready⟩ : ∃ refusal, a.requireReady = .error refusal := by
    rw [exists_error_iff]
    rintro ⟨u, hready⟩
    cases hhalted.symm.trans (requireReady_ok.mp hready).2.1
  cases request with
  | initChain save req =>
    obtain ⟨refusal, hbind⟩ : ∃ refusal, a.bindChain req = .error refusal := by
      rw [exists_error_iff]
      rintro ⟨bound, hbind⟩
      simp [Application.bindChain, bind_ok, hstarted] at hbind
    refine ⟨refusal, ?_⟩
    unfold Application.serve Application.initChain
    dsimp only
    rw [hbind]
    rfl
  | checkTx known raw =>
    refine ⟨refusal, ?_⟩
    unfold Application.serve Application.checkTx
    dsimp only
    rw [hready]
    rfl
  | insertTx raw =>
    refine ⟨refusal, ?_⟩
    unfold Application.serve Application.insertTx
    dsimp only
    rw [hready]
    rfl
  | prepareProposal req =>
    refine ⟨refusal, ?_⟩
    unfold Application.serve Application.prepareProposal Application.beginProposal
    dsimp only
    rw [hready]
    rfl
  | processProposal req =>
    refine ⟨refusal, ?_⟩
    unfold Application.serve Application.processProposal
    dsimp only
    rw [hready]
    rfl
  | finalizeBlock req =>
    refine ⟨refusal, ?_⟩
    unfold Application.serve Application.finalizeBlock Application.beginBlock
    dsimp only
    rw [hready]
    rfl
  | commit save =>
    refine ⟨refusal, ?_⟩
    unfold Application.serve Application.commit Application.requireCandidate
    dsimp only
    rw [hready]
    rfl

/-- Once an application has halted after its start, every later one of these requests is refused and nothing of it
changes. -/
theorem halted_rests {err : GoError} (hstarted : a.initialized = true) (hhalted : a.haltErr = some err)
    (hrun : Serves runtime a a') : a' = a ∧ ∀ request, ∃ refusal, a'.serve runtime request = (.error refusal, a) := by
  have hsame : a' = a := by
    induction hrun with
    | refl => rfl
    | tail _ hserved ih =>
      obtain ⟨request, rfl⟩ := hserved
      obtain ⟨refusal, hrefused⟩ := serve_halted hstarted hhalted request
      rw [ih, hrefused]
  rw [hsame]
  exact ⟨rfl, serve_halted hstarted hhalted⟩

/-- A request to a started application leaves the committed state or commits a later one. -/
theorem Served.height (h : Served runtime a a') (hstarted : a.initialized = true) : a'.initialized = true ∧
    (a'.committed = a.committed ∨ a.committed.commitment.height < a'.committed.commitment.height) := by
  cases h with
  | starts hbinds _ => simp [Application.bindChain, bind_ok, hstarted] at hbinds
  | @advances candidate _ hready _ =>
    simp only [Application.requireCandidate, bind_ok, require_ok, refuseIf_ok, exists_const, pure_eq_ok,
      Except.ok.injEq, not_not] at hready
    obtain ⟨_, hready, _, -, hheight, rfl⟩ := hready
    have hlater := lt_next_height (requireReady_ok.mp hready).2.2.2
    rw [← hheight] at hlater
    exact ⟨hstarted, .inr hlater⟩
  | _ => exact ⟨hstarted, .inl rfl⟩

/-- A started application commits to one state at each height: whatever is requested of it, its height never falls, and
while the height stays the committed state stays. -/
theorem committed_once (hstarted : a.initialized = true) (hrun : Serves runtime a a') :
    a.committed.commitment.height ≤ a'.committed.commitment.height ∧
      (a'.committed.commitment.height = a.committed.commitment.height → a'.committed = a.committed) := by
  have hkept : a'.initialized = true ∧
      (a'.committed = a.committed ∨ a.committed.commitment.height < a'.committed.commitment.height) := by
    induction hrun with
    | refl => exact ⟨hstarted, .inl rfl⟩
    | tail _ hserved ih =>
      obtain ⟨request, rfl⟩ := hserved
      obtain ⟨hinitialized, hbefore⟩ := ih
      obtain ⟨hafter, hstep⟩ := (serve_served _ request).height hinitialized
      refine ⟨hafter, ?_⟩
      rcases hstep with hsame | hlater
      · rw [hsame]
        exact hbefore
      · rcases hbefore with hsame | hgrown
        · exact .inr (hsame ▸ hlater)
        · exact .inr (Int64.lt_trans hgrown hlater)
  rcases hkept.2 with hsame | hlater
  · exact ⟨hsame ▸ Int64.le_refl _, fun _ => hsame⟩
  · exact ⟨Int64.le_of_lt hlater, fun heq => absurd hlater (heq ▸ Int64.lt_irrefl)⟩

end Runs

end Model

/-! ### A chain with one validator -/

section Lab

attribute [local instance] checksumPrimitives

/-- A transfer of seven units. -/
def payment (nonce : UInt64) : Transaction where
  chainID := "chainlab"
  type := .transfer
  fromAddress := keyAddress 1
  toAddress := keyAddress 2
  value := 7
  nonce := nonce
  gasLimit := 30000
  gasPrice := 10
  signature := keySignature 1

/-- A chain with one validator and one funded account. -/
def appGenesis : GenesisDocument where
  protocol := .v1
  chainID := "chainlab"
  blockGasLimit := 30000000
  state := {
    validators := [keyAddress 3]
    accounts := GoMap.ofList [(keyAddress 1, { address := keyAddress 1, balance := 10000000 })] }

/-- A decoder of the two payments. -/
abbrev readsPayments : DecodesJson Transaction :=
  ⟨fun raw => [payment 0, payment 1].find? fun tx => utf8Bytes tx.json = raw⟩

/-- A decoder of the genesis. -/
abbrev readsGenesis : DecodesJson GenesisDocument :=
  ⟨fun raw => [appGenesis].find? fun genesis => utf8Bytes genesis.json = raw⟩

attribute [local instance] readsPayments readsGenesis

abbrev appRuntime : Core.Runtime := Contracts.runtime Contracts.noGuests

/-! A tree is given as the result of the function that makes it, and that the function succeeds is proved rather than
computed. -/

def appStore : Store := (validateGenesisDocument appGenesis).toOption.getD {}

def appTrees : SparseHeap := (buildStoreSparseTree appStore).toOption.getD { domain := domainSparseState, objects := [] }

/-- The application on a new database. -/
def appOpened : Application where
  genesis := { appGenesis with state := appStore.snapshot }
  maxAppVersion := 5
  cometRetainHeights := 0
  committed := (initialState { appGenesis with state := appStore.snapshot } appStore).committed
  initialized := false
  proposers := ∅
  mempool := newAppMempool appStore
  committedTxs := []
  committedReceipts := []
  trees := appTrees

/-- The public key of a validator. -/
def validatorKey (key : UInt8) : List UInt8 := List.replicate 32 0 ++ [key]

def appInit : InitChainRequest where
  chainID := "chainlab"
  initialHeight := 1
  appStateBytes := utf8Bytes appGenesis.json
  consensusParams := some ⟨some (16777216, 30000000), some ["secp256k1"], none, some (1, 1, 1), none⟩
  validators := [⟨validatorKey 3, 1⟩]

def appStarted : Application := (appOpened.serve appRuntime (.initChain (fun _ => .ok ()) appInit)).2

def rawPayment (nonce : UInt64) : List UInt8 := utf8Bytes (payment nonce).json

/-- Two payments wait. -/
def appPooled : Application :=
  ((appStarted.serve appRuntime (.insertTx (rawPayment 0))).2.serve appRuntime (.insertTx (rawPayment 1))).2

def appBlock : FinalizeBlockRequest where
  hash := List.replicate 32 0
  height := 1
  time := default
  proposerAddress := (validatorKey 3).drop 13
  txs := [rawPayment 0]
  misbehavior := []

theorem validate_app : validateGenesisDocument appGenesis = .ok appStore := eq_ok_getD _ (by decide +kernel)

theorem build_app : buildStoreSparseTree appStore = .ok appTrees := by
  have hwritable : Writable [] (flatKeys appStore.snapshot) (flatValue appStore.snapshot) := by decide +kernel
  obtain ⟨trees, htrees⟩ := buildStoreSparseTree_ok hwritable
  exact eq_ok_getD _ (by rw [htrees]; rfl)

theorem newApplication_app : newApplication appGenesis 0 0 (fun _ initial => .ok initial) = .ok appOpened := by
  simp only [newApplication, bind_ok, mapError_ok, refuseIf_ok, exists_const, pure_eq_ok, Except.ok.injEq]
  exact ⟨5, rfl, appStore, validate_app, _, rfl, appTrees, build_app, by decide, rfl⟩

theorem appPooled_reached : Reached appRuntime appPooled :=
  ⟨appOpened, ⟨appGenesis, 0, 0, _, fun _ _ _ h => .inl (Except.ok.inj h).symm, newApplication_app⟩,
    .tail (.tail (.single ⟨_, rfl⟩) ⟨_, rfl⟩) ⟨_, rfl⟩⟩

def appBegun : BegunBlock :=
  (appPooled.beginBlock appBlock).toOption.getD ⟨none, "", "", { store := {}, records := [] }⟩

def appExecution : ProposalExecution :=
  (appPooled.executeProposalFromStore appRuntime appBegun.evidence.store appBlock.txs appBlock.height appBegun.proposer
    maxProposalTxBytes true).toOption.getD { store := {} }

/-- The entry of the account of a key. -/
def accountOf (key : UInt8) : FlatKey := .account (keyAddress key)

/-- The block is executed, and changes the accounts of the sender, the recipient and the proposer. -/
theorem app_executed :
    appPooled.genesis.protocol = .v1 ∧ protocolAtHeight appPooled.genesis appBlock.height = .v1 ∧
    (appPooled.beginBlock appBlock).isOk = true ∧
    (appPooled.executeProposalFromStore appRuntime appBegun.evidence.store appBlock.txs appBlock.height appBegun.proposer
      maxProposalTxBytes true).isOk = true ∧
    (∀ k ∈ flatKeys appPooled.committed.store.snapshot, k ∈ [.validators, accountOf 1]) ∧
    (∀ a ∈ appExecution.store.mutations.accounts, .account a.val ∈ [accountOf 1, accountOf 2, accountOf 3]) ∧
    (appExecution.store.mutations.accountStorage.card = 0 ∧ appExecution.store.mutations.contractCodes.card = 0 ∧
      appExecution.store.mutations.stakes.card = 0 ∧ appExecution.store.mutations.proposals.card = 0 ∧
      appExecution.store.mutations.params.card = 0 ∧ appExecution.store.mutations.validators = false ∧
      appExecution.store.mutations.validatorIdentities.card = 0 ∧
      appExecution.store.mutations.validatorOffences.card = 0) ∧
    ∀ k ∈ [accountOf 1, accountOf 2, accountOf 3], k.bytes.length ≠ 0 ∧ validateSparseKey k.id = .ok () ∧
      ∀ text ∈ readFlatValue appExecution.store k, 0 < (flatCommitmentLeaf (k.entry text)).length ∧
        (flatCommitmentLeaf (k.entry text)).length ≤ maxSparseValue := by
  decide +kernel

theorem begin_app : appPooled.beginBlock appBlock = .ok appBegun := eq_ok_getD _ app_executed.2.2.1

theorem execute_app : appPooled.executeProposalFromStore appRuntime appBegun.evidence.store appBlock.txs appBlock.height
    appBegun.proposer maxProposalTxBytes true = .ok appExecution := eq_ok_getD _ app_executed.2.2.2.1

/-- What a block of version 1 is sealed to, with the tree brought up to date. -/
def sealedBlock (a : Application) (req : FinalizeBlockRequest) (begun : BegunBlock) (execution : ProposalExecution)
    (trees : SparseHeap) : SealedBlock :=
  let commitment := a.blockCommitment req begun execution (transactionRoot execution.txs)
    (receiptRoot execution.receipts) execution.store.root
  { candidate := {
      state := {
        store := execution.store, flatTree := a.trees.objects.length, commitment
        appHash := applicationHash commitment }
      txs := execution.rawTxs, receipts := execution.receipts }
    trees, validatorUpdates := begun.evidence.updates }

theorem Tracked.applies {a : Application} (h : Tracked a) {store : Store}
    (hwritable : Writable (flatKeys a.committed.store.snapshot) (mutatedKeys store.mutations) (readFlatValue store)) :
    applyStoreMutationsToSparseTree (a.trees.clone a.committed.flatTree) a.trees.objects.length store =
      .ok ((applyStoreMutationsToSparseTree (a.trees.clone a.committed.flatTree) a.trees.objects.length
        store).toOption.getD { domain := domainSparseState, objects := [] }) := by
  obtain ⟨trees, htrees⟩ := applyStoreMutationsToSparseTree_ok h.committed.tree.clone h.domain
    (parentsOlder_clone h.parents h.committed.tree.lt) hwritable
  rw [htrees]
  rfl

theorem sealBlock_v1 {a : Application} {req : FinalizeBlockRequest} {begun : BegunBlock} {execution : ProposalExecution}
    {trees : SparseHeap} (hgenesis : a.genesis.protocol = .v1) (hprotocol : protocolAtHeight a.genesis req.height = .v1)
    (happly : applyStoreMutationsToSparseTree (a.trees.clone a.committed.flatTree) a.trees.objects.length execution.store =
      .ok trees) : a.sealBlock req begun execution = .ok (sealedBlock a req begun execution trees) := by
  unfold Application.sealBlock
  dsimp only
  rw [hprotocol, hgenesis, happly]
  rfl

def appDecidedTrees : SparseHeap :=
  (applyStoreMutationsToSparseTree (appPooled.trees.clone appPooled.committed.flatTree) appPooled.trees.objects.length
    appExecution.store).toOption.getD { domain := domainSparseState, objects := [] }

def appSealed : SealedBlock := sealedBlock appPooled appBlock appBegun appExecution appDecidedTrees

theorem mutated_app : ∀ k ∈ mutatedKeys appExecution.store.mutations, k ∈ [accountOf 1, accountOf 2, accountOf 3] := by
  obtain ⟨-, -, -, -, -, haccounts, ⟨hstorage, hcodes, hstakes, hproposals, hparams, hvalidators, hidentities, hoffences⟩,
    -⟩ := app_executed
  generalize appExecution.store.mutations = journal at *
  intro k hk
  rw [mem_mutatedKeys] at hk
  cases k with
  | account address =>
    obtain ⟨a, ha, rfl⟩ := hk
    exact haccounts a ha
  | _ => simp_all [Marks]

theorem writable_app : Writable (flatKeys appPooled.committed.store.snapshot) (mutatedKeys appExecution.store.mutations)
    (readFlatValue appExecution.store) := by
  obtain ⟨-, -, -, -, hheld, -, -, hleaves⟩ := app_executed
  have hpaths : ∀ k ∈ [.validators, accountOf 1, accountOf 2, accountOf 3], ∀ k' ∈ [accountOf 1, accountOf 2, accountOf 3],
      sparsePath domainSparseState k.id = sparsePath domainSparseState k'.id → k.id = k'.id := by decide +kernel
  refine ⟨fun k hk k' hk' => hpaths k ?_ k' (mutated_app k' hk'), fun k hk => hleaves k (mutated_app k hk)⟩
  rcases List.mem_append.mp hk with hk | hk
  · exact List.mem_append_left [accountOf 2, accountOf 3] (hheld k hk)
  · exact List.mem_cons_of_mem _ (mutated_app k hk)

theorem seal_app : appPooled.sealBlock appBlock appBegun appExecution = .ok appSealed :=
  sealBlock_v1 app_executed.1 app_executed.2.1 (appPooled_reached.tracked.applies writable_app)

/-- The block with the first payment is decided, -/
def appDecided : Application := { appPooled with candidate := some appSealed.candidate, trees := appSealed.trees }

/-- and committed, -/
def appCommitted : Application := (appDecided.serve appRuntime (.commit fun _ => .ok ())).2

/-- or the database fails. -/
def appHalted : Application := (appDecided.serve appRuntime (.commit fun _ => .error (newError "disk full"))).2

theorem serve_finalizeBlock (a : Application) (req : FinalizeBlockRequest) :
    (a.serve appRuntime (.finalizeBlock req)).2 = (Application.finalizeBlock appRuntime req a).2 := rfl

theorem appDecided_served : Serves appRuntime appPooled appDecided := by
  refine .single ⟨.finalizeBlock appBlock, ?_⟩
  obtain ⟨response, hfinalized⟩ := finalizeBlock_run begin_app execute_app seal_app
  exact (congrArg Prod.snd hfinalized).symm.trans (serve_finalizeBlock appPooled appBlock).symm

theorem appCommitted_served : Serves appRuntime appPooled appCommitted :=
  appDecided_served.trans (.single ⟨_, rfl⟩)

theorem appCommitted_reached : Reached appRuntime appCommitted := appPooled_reached.serves appCommitted_served

theorem app_committed : appSealed.candidate.txs = [rawPayment 0] ∧ appCommitted.committed.commitment.height = 1 ∧
    appHalted.haltErr.isSome = true ∧ appHalted.initialized = true ∧ appStarted.initialized = true ∧
    appStarted.committed.commitment.height = 0 ∧ appPooled.committed.commitment.height = 0 := by
  decide +kernel

theorem stateRoot_rebuilds_app :
    (∃ candidate fresh, appDecided.candidate = some candidate ∧ candidate.txs = [rawPayment 0] ∧
      buildStoreSparseTree candidate.state.store = .ok fresh ∧
      fresh.root 0 = appDecided.trees.root candidate.state.flatTree) ∧
    appCommitted.committed.commitment.height = 1 ∧
    stateRootForProtocol appCommitted.committed.commitment.protocol appCommitted.committed.store =
      .ok appCommitted.committed.commitment.stateRoot ∧
    ∃ fresh, buildStoreSparseTree appCommitted.committed.store = .ok fresh ∧
      fresh.root 0 = appCommitted.trees.root appCommitted.committed.flatTree := by
  obtain ⟨-, -, hcandidate⟩ := stateRoot_rebuilds (appPooled_reached.serves appDecided_served)
  obtain ⟨hcommitted, hroot, -⟩ := stateRoot_rebuilds appCommitted_reached
  obtain ⟨⟨fresh, hfresh⟩, -⟩ := hcandidate appSealed.candidate rfl
  exact ⟨⟨_, fresh, rfl, app_committed.1, hfresh⟩, app_committed.2.1, hroot, hcommitted⟩

theorem halted_rests_app : ∃ err, appHalted.haltErr = some err ∧
    ∃ refusal, (appHalted.serve appRuntime (.insertTx (rawPayment 0))).2.serve appRuntime (.commit fun _ => .ok ()) =
      (.error refusal, appHalted) := by
  obtain ⟨-, -, hhalted, hstarted, -⟩ := app_committed
  obtain ⟨err, herr⟩ := Option.isSome_iff_exists.mp hhalted
  exact ⟨err, herr, (halted_rests hstarted herr (.single ⟨.insertTx (rawPayment 0), rfl⟩)).2 _⟩

theorem committed_once_app : appStarted.committed.commitment.height = 0 ∧
    appCommitted.committed.commitment.height = 1 ∧ appPooled.committed = appStarted.committed ∧
    appStarted.committed.commitment.height ≤ appCommitted.committed.commitment.height := by
  obtain ⟨-, hcommitted, -, -, hstarted, hzero, hpooled⟩ := app_committed
  have hserves : Serves appRuntime appStarted appPooled := .tail (.single ⟨_, rfl⟩) ⟨_, rfl⟩
  exact ⟨hzero, hcommitted, (committed_once hstarted hserves).2 (hpooled.trans hzero.symm),
    (committed_once hstarted (hserves.trans appCommitted_served)).1⟩

end Lab

end ChainLab.Abci
