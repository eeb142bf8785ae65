import ChainLab.Contracts.Runtime
import ChainLab.Core.Steps

/-! Contracts write the storage of their own account and nothing else: native contracts through their
context, WebAssembly guests through the host. -/

namespace ChainLab.Types

/-- An event a receipt may hold. -/
def Event.Shaped (event : Event) : Prop := event.type ≠ "" ∧ "" ∉ event.attributes

end ChainLab.Types

namespace ChainLab.Contracts

open ChainLab.Lib ChainLab.Types ChainLab.State ChainLab.State.Store ChainLab.Crypto Relation

/-- A condition on stores that the storage operations on one account keep. -/
structure ClosedUnderStorage (address : String) (P : Store → Prop) : Prop where
  set : ∀ {s s' : Store} {key value : String}, P s → s.setStorage address key value = .ok s' → P s'
  delete : ∀ {s : Store} {key : String}, P s → P (s.deleteStorage address key)

/-- A condition on invocations that charges and the storage budget keep. -/
structure Metered (I : Invocation → Prop) : Prop where
  charge : ∀ {i : Invocation} (amount : UInt64), I i → I { i with meter := (i.meter.charge amount).2 }
  budget : ∀ {i : Invocation} (budget : NativeInvocationBudget), I i → I { i with nativeBudget := budget }

/-- A condition on invocations that the storage operations on one account keep as well. -/
structure Admissible (address : String) (I : Invocation → Prop) : Prop extends Metered I where
  set : ∀ {i : Invocation} {store : Store} {key value : String}, I i →
    i.store.setStorage address key value = .ok store → I { i with store }
  delete : ∀ {i : Invocation} {key : String}, I i → I { i with store := i.store.deleteStorage address key }

/-- What holds of the store alone. -/
theorem metered_store (P : Store → Prop) : Metered fun i => P i.store where
  charge := fun _ hi => hi
  budget := fun _ hi => hi

theorem ClosedUnderStorage.admissible {address : String} {P : Store → Prop} (h : ClosedUnderStorage address P) :
    Admissible address fun i => P i.store where
  toMetered := metered_store P
  set := fun hi hset => h.set hi hset
  delete := fun hi => h.delete hi

/-- What an invocation keeps, seen from a guest that only has its store. -/
theorem Admissible.closedUnderStorage {address : String} {I : Invocation → Prop} (h : Admissible address I)
    (i : Invocation) : ClosedUnderStorage address fun store => I { i with store } where
  set := fun {s _ _ _} hs hset => @Admissible.set _ _ h { i with store := s } _ _ _ hs hset
  delete := fun {s _} hs => @Admissible.delete _ _ h { i with store := s } _ hs

/-- A condition on guest invocations that everything the host does for them keeps. -/
structure HostAdmissible (address : String) (H : WasmInvocation → Prop) : Prop where
  meter : ∀ {i : WasmInvocation} (fuel : UInt64) (hostIOBytes : Nat), H i → H { i with fuel, hostIOBytes }
  write : ∀ {i : WasmInvocation} {store : Store} {key value : String} (storageWrites : Nat), H i →
    i.store.setStorage address key value = .ok store → H { i with store, storageWrites }
  emit : ∀ {i : WasmInvocation} {event : Event} (eventBytes : Nat), H i → event.Shaped →
    H { i with eventBytes, events := i.events ++ [event] }

theorem ClosedUnderStorage.hostAdmissible {address : String} {P : Store → Prop} (h : ClosedUnderStorage address P) :
    HostAdmissible address fun i => P i.store where
  meter := fun _ _ hi => hi
  write := fun _ hi hset => h.set hi hset
  emit := fun _ hi _ => hi

variable {I : Invocation → Prop} {H : WasmInvocation → Prop} {ctx : Context}

/-! ### Metering -/

theorem charge_keeps (hI : Metered I) (amount : UInt64) : Action.Keeps I (charge amount) :=
  fun _ hs => hI.charge amount hs

theorem chargeNativeLinear_keeps (hI : Metered I) (base perUnit : UInt64) (units : List Nat) :
    Action.Keeps I (chargeNativeLinear base perUnit units) :=
  .bind (.lift _) fun _ => .bind (.lift _) fun _ => charge_keeps hI _

theorem consumeNativeStorageBudget_keeps (hI : Metered I) (operations writes ioBytes : Nat) :
    Action.Keeps I (consumeNativeStorageBudget operations writes ioBytes) := by
  refine .update fun i i' hi h => ?_
  simp only [bind_ok, refuseIf_ok, exists_const, pure_eq_ok, Except.ok.injEq] at h
  obtain ⟨-, rfl⟩ := h
  exact hI.budget _ hi

theorem chargeNativeInvocation_keeps (hI : Metered I) (operation : String) (args : Fields) :
    Action.Keeps I (chargeNativeInvocation operation args) :=
  .bind (.lift _) fun _ => .bind (.lift _) fun _ => .bind (.lift _) fun _ => chargeNativeLinear_keeps hI _ _ _

theorem chargeNativeEvents_keeps (hI : Metered I) (events : List Event) : Action.Keeps I (chargeNativeEvents events) :=
  .bind (.lift _) fun _ => .bind (.lift _) fun _ =>
    .bind (.forM (fun _ => chargeNativeLinear_keeps hI _ _ _) _) fun _ => chargeNativeLinear_keeps hI _ _ _

/-! ### Storage of native contracts -/

theorem getStorage_keeps (hI : Metered I) (key : String) : Action.Keeps I (ctx.getStorage key) :=
  .bind (.lift _) fun _ => .bind (.read _) fun _ => .bind (.lift _) fun _ =>
    .bind (consumeNativeStorageBudget_keeps hI _ _ _) fun _ =>
      .bind (chargeNativeLinear_keeps hI _ _ _) fun _ => .pure _

theorem setStorage_keeps (hI : Admissible ctx.address I) (key value : String) :
    Action.Keeps I (ctx.setStorage key value) := by
  have hwrite : Action.Keeps I (ctx.writeStorage key value) := by
    refine .update fun i i' hi h => ?_
    simp only [bind_ok, mapError_ok, pure_eq_ok, Except.ok.injEq] at h
    obtain ⟨store, hset, rfl⟩ := h
    exact hI.set hi hset
  exact .bind (.lift _) fun _ => .bind (.lift _) fun _ => .bind (.read _) fun _ => .bind (.lift _) fun _ =>
    .bind (.read _) fun _ => .bind (.read _) fun _ => .bind (.lift _) fun _ => .bind (.lift _) fun _ =>
      .bind (consumeNativeStorageBudget_keeps hI.toMetered _ _ _) fun _ =>
        .bind (chargeNativeLinear_keeps hI.toMetered _ _ _) fun _ => hwrite

theorem deleteStorage_keeps (hI : Admissible ctx.address I) (key : String) :
    Action.Keeps I (ctx.deleteStorage key) :=
  .bind (.lift _) fun _ => .bind (.read _) fun _ => .bind (.lift _) fun _ =>
    .bind (consumeNativeStorageBudget_keeps hI.toMetered _ _ _) fun _ =>
      .bind (chargeNativeLinear_keeps hI.toMetered _ _ _) fun _ => .modify fun _ hs => hI.delete hs

theorem deleteStoragePrefix_keeps (hI : Admissible ctx.address I) (keyPrefix : String) :
    Action.Keeps I (ctx.deleteStoragePrefix keyPrefix) := by
  have hround : ∀ removed key, Action.Keeps I (ctx.deletePrefixed keyPrefix removed key) := fun removed key =>
    .ite (.bind (.read _) fun _ => .bind (.lift _) fun _ => .bind (consumeNativeStorageBudget_keeps hI.toMetered _ _ _) fun _ =>
      .bind (chargeNativeLinear_keeps hI.toMetered _ _ _) fun _ => .bind (.modify fun _ hs => hI.delete hs) fun _ => .pure _)
      (.pure _)
  exact .bind (.lift _) fun _ => .bind (.read _) fun _ => .bind (.lift _) fun _ =>
    .bind (.forM (fun _ => .lift _) _) fun _ => .bind (consumeNativeStorageBudget_keeps hI.toMetered _ _ _) fun _ =>
      .bind (chargeNativeLinear_keeps hI.toMetered _ _ _) fun _ => .foldlM hround _ _

/-! ### Native contracts -/

theorem account_deploy_keeps (hI : Admissible ctx.address I) (args : Fields) :
    Action.Keeps I (AccountContract.deploy ctx args) :=
  .bind (.lift _) fun _ => .bind (setStorage_keeps hI _ _) fun _ => .pure _

theorem account_call_keeps (hI : Admissible ctx.address I) (method : String) (args : Fields) :
    Action.Keeps I (AccountContract.call ctx method args) := by
  have howner : Action.Keeps I (storedAccountOwner ctx) :=
    .bind (getStorage_keeps hI.toMetered _) fun _ => .bind (.lift _) fun _ => .bind (.lift _) fun _ =>
      .bind (.lift _) fun _ => .pure _
  refine .ite ?_ (.fail _)
  exact .bind howner fun _ => .bind (.lift _) fun _ => .bind (.lift _) fun _ =>
    .bind (setStorage_keeps hI _ _) fun _ => .bind (.forM (fun _ => deleteStorage_keeps hI _) _) fun _ =>
      .bind (deleteStoragePrefix_keeps hI _) fun _ => .pure _

theorem configureMultisig_keeps (hI : Admissible ctx.address I) (args : Fields) :
    Action.Keeps I (configureMultisig ctx args) :=
  .bind (.lift _) fun _ => .bind (.lift _) fun _ => .bind (setStorage_keeps hI _ _) fun _ =>
    .bind (setStorage_keeps hI _ _) fun _ => .pure _

theorem multisig_call_keeps (hI : Admissible ctx.address I) (method : String) (args : Fields) :
    Action.Keeps I (MultisigContract.call ctx method args) :=
  .ite (.bind (.lift _) fun _ => configureMultisig_keeps hI _) (.fail _)

theorem counter_deploy_keeps (hI : Admissible ctx.address I) (args : Fields) :
    Action.Keeps I (CounterContract.deploy ctx args) :=
  .bind (.lift _) fun _ => .bind (.lift _) fun _ => .bind (setStorage_keeps hI _ _) fun _ => .pure _

theorem counter_call_keeps (hI : Admissible ctx.address I) (method : String) (args : Fields) :
    Action.Keeps I (CounterContract.call ctx method args) := by
  refine .ite ?_ (.fail _)
  exact .bind (.lift _) fun _ => .bind (.lift _) fun _ => .bind (getStorage_keeps hI.toMetered _) fun _ =>
    .bind (.lift _) fun _ => .bind (.lift _) fun _ => .bind (.lift _) fun _ => .bind (.lift _) fun _ =>
      .bind (setStorage_keeps hI _ _) fun _ => .pure _

theorem tokenBalance_keeps (hI : Metered I) (address : String) : Action.Keeps I (tokenBalance ctx address) :=
  .bind (getStorage_keeps hI _) fun _ => .lift _

theorem addTokenBalance_keeps (hI : Admissible ctx.address I) (address : String) (amount : UInt64) :
    Action.Keeps I (addTokenBalance ctx address amount) :=
  .bind (tokenBalance_keeps hI.toMetered _) fun _ => .bind (.lift _) fun _ => setStorage_keeps hI _ _

theorem subTokenBalance_keeps (hI : Admissible ctx.address I) (address : String) (amount : UInt64) :
    Action.Keeps I (subTokenBalance ctx address amount) :=
  .bind (tokenBalance_keeps hI.toMetered _) fun _ => .bind (.lift _) fun _ =>
    .ite (deleteStorage_keeps hI _) (setStorage_keeps hI _ _)

theorem token_deploy_keeps (hI : Admissible ctx.address I) (args : Fields) :
    Action.Keeps I (TokenContract.deploy ctx args) :=
  .bind (.lift _) fun _ => .bind (setStorage_keeps hI _ _) fun _ => .bind (setStorage_keeps hI _ _) fun _ => .pure _

theorem token_call_keeps (hI : Admissible ctx.address I) (method : String) (args : Fields) :
    Action.Keeps I (TokenContract.call ctx method args) := by
  have howner : Action.Keeps I (storedTokenOwner ctx) :=
    .bind (getStorage_keeps hI.toMetered _) fun _ => .bind (.lift _) fun _ => .pure _
  refine .ite ?_ (.ite ?_ (.fail _))
  · exact .bind howner fun _ => .bind (.lift _) fun _ => .bind (.lift _) fun _ => .bind (.lift _) fun _ =>
      .bind (addTokenBalance_keeps hI _ _) fun _ => .pure _
  · exact .bind (.lift _) fun _ => .bind (.lift _) fun _ => .bind (subTokenBalance_keeps hI _ _) fun _ =>
      .bind (addTokenBalance_keeps hI _ _) fun _ => .pure _

/-! ### Guests -/

theorem consumeFuel_keeps (hH : HostAdmissible ctx.address H) (amount : UInt64) :
    Action.Keeps H (consumeFuel amount) := by
  intro i hi
  unfold consumeFuel
  split
  · exact hH.meter 0 i.hostIOBytes hi
  · exact hH.meter _ i.hostIOBytes hi

theorem prepareHostBytes_keeps (hH : HostAdmissible ctx.address H) (length maximum : Nat) (name : String) :
    Action.Keeps H (prepareHostBytes length maximum name) := by
  refine .update fun i i' hi h => ?_
  simp only [bind_ok, refuseIf_ok, exists_const, pure_eq_ok, Except.ok.injEq] at h
  obtain ⟨-, -, rfl⟩ := h
  exact hH.meter i.fuel _ hi

theorem prepareHostRead_keeps (hH : HostAdmissible ctx.address H) (length maximum : Nat) (name : String)
    (gas : UInt64) : Action.Keeps H (prepareHostRead length maximum name gas) :=
  .bind (prepareHostBytes_keeps hH _ _ _) fun _ => consumeFuel_keeps hH _

theorem wasmHostStorageSet_keeps (hH : HostAdmissible ctx.address H) (memory : Option (List UInt8))
    (keyPtr keyLen valuePtr valueLen : UInt32) :
    Action.Keeps H (wasmHostStorageSet ctx memory keyPtr keyLen valuePtr valueLen) := by
  have hwrite : ∀ key value, Action.Keeps H (writeGuestStorage ctx key value) := by
    refine fun key value => .update fun i i' hi h => ?_
    simp only [bind_ok, mapError_ok, pure_eq_ok, Except.ok.injEq] at h
    obtain ⟨store, hset, rfl⟩ := h
    exact hH.write _ hi hset
  exact .bind (.read _) fun _ => .bind (.lift _) fun _ => .bind (prepareHostBytes_keeps hH _ _ _) fun _ =>
    .bind (prepareHostBytes_keeps hH _ _ _) fun _ => .bind (consumeFuel_keeps hH _) fun _ => .bind (.lift _) fun _ =>
      .bind (.lift _) fun _ => .bind (.read _) fun _ => .bind (.lift _) fun _ =>
        .bind (consumeFuel_keeps hH _) fun _ => hwrite _ _

/-- The host refuses an event without a type or with an unnamed attribute. -/
theorem wasmHostEmitEvent_keeps (hH : HostAdmissible ctx.address H) (memory : Option (List UInt8))
    (typePtr typeLen keyPtr keyLen valuePtr valueLen : UInt32) :
    Action.Keeps H (wasmHostEmitEvent memory typePtr typeLen keyPtr keyLen valuePtr valueLen) := by
  refine .bind (.read _) fun _ => .bind (.lift _) fun _ => .bind (.read _) fun _ => .bind (.lift _) fun _ =>
    .bind (prepareHostBytes_keeps hH _ _ _) fun _ => .bind (prepareHostBytes_keeps hH _ _ _) fun _ =>
      .bind (prepareHostBytes_keeps hH _ _ _) fun _ => .bind (consumeFuel_keeps hH _) fun _ =>
        .bind (.lift _) fun type => .bind (.lift _) fun key => .bind (.lift _) fun value =>
          .lift_bind fun _ hshape => .modify fun i hi => hH.emit _ hi ?_
  have hnamed : ¬(type = "" ∨ key = "") := refuseIf_ok.mp hshape
  rw [not_or] at hnamed
  refine ⟨hnamed.1, ?_⟩
  simp only [GoMap.ofList, List.foldl_cons, List.foldl_nil, Finmap.mem_insert, not_or]
  exact ⟨fun hkey => hnamed.2 hkey.symm, Finmap.notMem_empty⟩

theorem hostCall_keeps (hH : HostAdmissible ctx.address H) (args : Fields) (memory : Option (List UInt8))
    (host : HostCall) : Action.Keeps H (host.run ctx args memory) := by
  cases host with
  | argCopy keyPtr keyLen dstPtr =>
    exact .bind (prepareHostRead_keeps hH _ _ _ _) fun _ => .bind (.lift _) fun _ =>
      .bind (prepareHostRead_keeps hH _ _ _ _) fun _ => .lift _
  | storageCopy keyPtr keyLen dstPtr =>
    exact .bind (prepareHostRead_keeps hH _ _ _ _) fun _ => .bind (.lift _) fun _ => .bind (.read _) fun _ =>
      .bind (prepareHostRead_keeps hH _ _ _ _) fun _ => .lift _
  | storageSet keyPtr keyLen valuePtr valueLen =>
    exact .bind (wasmHostStorageSet_keeps hH _ _ _ _ _) fun _ => .pure _
  | returnSet valuePtr valueLen =>
    refine .bind ?_ fun _ => .pure _
    exact .bind (prepareHostRead_keeps hH _ _ _ _) fun _ => .bind (.lift _) fun _ => .pure _
  | emitEvent typePtr typeLen keyPtr keyLen valuePtr valueLen =>
    exact .bind (wasmHostEmitEvent_keeps hH _ _ _ _ _ _ _) fun _ => .pure _

theorem trapGuest_keeps (hH : HostAdmissible ctx.address H) (code : TrapCode) : Action.Keeps H (trapGuest code) := by
  cases code with
  | outOfFuel => exact fun i hi => hH.meter 0 i.hostIOBytes hi
  | stackOverflow => exact fun i hi => hH.meter 0 i.hostIOBytes hi
  | other code => exact .fail _

theorem burnFuel_keeps (hH : HostAdmissible ctx.address H) (amount : UInt64) : Action.Keeps H (burnFuel amount) := by
  intro i hi
  unfold burnFuel
  split
  · exact trapGuest_keeps hH .outOfFuel i hi
  · exact hH.meter _ i.hostIOBytes hi

/-- A guest does what its host calls do. -/
theorem guest_keeps (hH : HostAdmissible ctx.address H) (args : Fields) (guest : Guest) :
    Action.Keeps H (guest.run ctx args) := by
  induction guest with
  | finish burned => exact burnFuel_keeps hH burned
  | trap burned code => exact .bind (burnFuel_keeps hH burned) fun _ => trapGuest_keeps hH code
  | fault burned => exact .bind (burnFuel_keeps hH burned) fun _ => .fail _
  | call burned host memory resume ih =>
    exact .bind (burnFuel_keeps hH burned) fun _ => .bind (hostCall_keeps hH args memory host) fun returned =>
      ih returned.1 returned.2

theorem settleGuest_keeps (hI : Metered I) (fuelLimit : UInt64) (ran : Result Unit × WasmInvocation)
    {i : Invocation} (hran : I { i with store := ran.2.store }) : I (settleGuest fuelLimit ran i).2 := by
  have hrest : Action.Keeps I (charge (fuelLimit - ran.2.fuel) >>= fun _ =>
      (Action.lift ran.1 >>= fun _ => pure ran.2.events : Native (List Event))) :=
    .bind (charge_keeps hI _) fun _ => .bind (.lift _) fun _ => .pure _
  exact hrest _ hran

theorem callGuest_keeps (hI : Admissible ctx.address I) (guest : Guest) (resources : WasmModuleResources)
    (args : Fields) : Action.Keeps I (callGuest guest resources ctx args) := by
  refine .bind (charge_keeps hI.toMetered _) fun _ => .bind (.read _) fun fuelLimit => fun i hi => ?_
  have hran : I { i with store := (guest.run ctx args { store := i.store, fuel := fuelLimit }).2.store } :=
    guest_keeps (hI.closedUnderStorage i).hostAdmissible args guest { store := i.store, fuel := fuelLimit } hi
  exact settleGuest_keeps hI.toMetered fuelLimit (guest.run ctx args { store := i.store, fuel := fuelLimit }) hran

/-! ### Invocations -/

theorem contract_deploy_keeps (engine : Engine) (hI : Admissible ctx.address I) (args : Fields)
    (contract : Contract) : Action.Keeps I (contract.deploy engine ctx args) := by
  cases contract with
  | account => exact account_deploy_keeps hI args
  | multisig => exact configureMultisig_keeps hI args
  | counter => exact counter_deploy_keeps hI args
  | token => exact token_deploy_keeps hI args
  | wasm code resources => exact callGuest_keeps hI _ _ _

theorem contract_call_keeps (engine : Engine) (hI : Admissible ctx.address I) (method : String)
    (args : Fields) (contract : Contract) : Action.Keeps I (contract.call engine ctx method args) := by
  cases contract with
  | account => exact account_call_keeps hI method args
  | multisig => exact multisig_call_keeps hI method args
  | counter => exact counter_call_keeps hI method args
  | token => exact token_call_keeps hI method args
  | wasm code resources => exact .ite (.fail _) (callGuest_keeps hI _ _ _)

theorem ensureWASMInvocationBudget_keeps (hI : Metered I) (resources : WasmModuleResources) :
    Action.Keeps I (ensureWASMInvocationBudget resources) :=
  .bind (.read _) fun _ => .ite (.pure _) (charge_keeps hI _)

variable [Primitives]

theorem contractFor_keeps (engine : Engine) (hI : Metered I) (codeID : String) :
    Action.Keeps I (contractFor engine codeID) := by
  have huploaded : ∀ code, Action.Keeps I (uploadedContract engine codeID code) := fun code =>
    .bind (.lift _) fun _ => .bind (.lift _) fun _ => .bind (.lift _) fun _ =>
      .bind (.bind (.lift _) fun _ => .bind (.lift _) fun _ => ensureWASMInvocationBudget_keeps hI _) fun _ =>
        .bind (.lift _) fun _ => .bind (.lift _) fun _ => .bind (.lift _) fun _ =>
          .bind (ensureWASMInvocationBudget_keeps hI _) fun _ => .bind (.lift _) fun _ => .pure _
  unfold contractFor
  split
  · exact .bind (ensureWASMInvocationBudget_keeps hI _) fun _ => .pure _
  · exact .pure _
  · exact .bind (.read _) fun _ => .bind (.lift _) fun _ => huploaded _

/-- A call writes what its contract writes. -/
theorem callContract_keeps (engine : Engine) {address : String} (hI : Admissible (toLower address) I)
    (codeID caller method : String) (args : Fields) :
    Action.Keeps I (callContract engine codeID address caller method args) := by
  refine .bind (contractFor_keeps engine hI.toMetered codeID).mapError fun contract => ?_
  have hcall : Action.Keeps I
      (contract.call engine { address := toLower address, caller := toLower caller } method args) :=
    contract_call_keeps engine hI method args contract
  have hrest := Action.Keeps.bind hcall fun events =>
    Action.Keeps.ite (c := contract.isNative = true)
      (Action.Keeps.bind (chargeNativeEvents_keeps hI.toMetered events) fun _ => Action.Keeps.pure events) (.pure events)
  exact .ite (.bind (chargeNativeInvocation_keeps hI.toMetered _ _) fun _ => hrest) hrest

/-- A deployment writes the code id of the new account and then what the contract writes. -/
theorem deployContract_keeps (engine : Engine) {creator codeID seed : String} {J : Invocation → Prop}
    (hI : Admissible (contractAddress creator codeID seed) I) (hJ : Metered J)
    (hcode : ∀ i, J i → I { i with store := i.store.setCodeID (contractAddress creator codeID seed) codeID })
    (hback : ∀ i, I i → J i) (args : Fields) : Action.Keeps J (deployContract engine creator codeID seed args) := by
  refine .bind (contractFor_keeps engine hJ codeID) fun contract => ?_
  have hdeploy : Action.Keeps I (contract.deploy engine
      { address := contractAddress creator codeID seed, caller := toLower creator } args) :=
    contract_deploy_keeps engine hI args contract
  refine .ite (.bind (chargeNativeInvocation_keeps hJ _ _) fun _ =>
    .bind (chargeNativeLinear_keeps hJ _ _ _) fun _ => ?_) ?_
  all_goals
    refine .modify_bind hcode ?_ hback
    refine .bind hdeploy fun events => ?_
    exact .ite (.bind (chargeNativeEvents_keeps hI.toMetered _) fun _ => .pure _) (.pure _)

omit [Primitives] in
theorem outcomeOf_ok {α : Type} {ran : Result α × Invocation} {gasUsed : UInt64} {store : Store} {value : α}
    (h : outcomeOf ran = (gasUsed, .ok (store, value))) : ran.1 = .ok value ∧ ran.2.store = store := by
  obtain ⟨err | result, i⟩ := ran
  · cases h
  · simp only [outcomeOf, Prod.mk.injEq, Except.ok.injEq] at h
    obtain ⟨-, rfl, rfl⟩ := h
    exact ⟨rfl, rfl⟩

omit [Primitives] in
theorem toLower_of_canonical {address : String} (h : IsCanonicalAddress address) : toLower address = address := by
  rw [← h.lower, toLower_toLower]

/-! ### The runtime -/

/-- The stores a contract reaches by writes under its own, existing account. -/
theorem closedUnderStorage_steps {change : LifecycleChange} {address : String} (base : Store)
    (canonical : IsCanonicalAddress address) : ClosedUnderStorage address fun store =>
      Steps change base store ∧ normalize address ∈ store.accounts where
  set := fun ⟨hsteps, hknown⟩ hset =>
    have hedit := Edit.setStorage canonical hknown hset
    ⟨hsteps.tail hedit, hedit.mem_accounts hknown⟩
  delete := fun ⟨hsteps, hknown⟩ =>
    have hedit := Edit.deleteStorage canonical
    ⟨hsteps.tail hedit, hedit.mem_accounts hknown⟩

omit [Primitives] in
theorem known_of_codeID {store : Store} {address : String} (h : store.codeID address ≠ "") :
    normalize address ∈ store.accounts := by
  by_contra hunknown
  refine h ?_
  unfold codeID account entry
  rw [Finmap.lookup_eq_none.mpr hunknown]
  rfl

omit [Primitives] in
theorem known_setCodeID (store : Store) (address codeID : String) :
    normalize address ∈ (store.setCodeID address codeID).accounts := by
  unfold setCodeID
  split
  · next hsame => exact hsame.1
  · exact (mem_accounts_writeAccount _ _ _ _ _).mpr (.inl rfl)

theorem deployContract_address {engine : Engine} {creator codeID seed address : String} {args : Fields}
    {i : Invocation} {events : List Event}
    (h : (deployContract engine creator codeID seed args i).1 = .ok (address, events)) :
    address = contractAddress creator codeID seed := by
  have htriple : Action.Triple (fun _ => True) (deployContract engine creator codeID seed args)
      (fun result _ => result.1 = contractAddress creator codeID seed) (fun _ _ => True) := by
    have hany : ∀ {α : Type} (x : Native α), Action.Triple (fun _ => True) x (fun _ _ => True) (fun _ _ => True) :=
      fun _ _ _ => ⟨fun _ _ _ => trivial, fun _ _ _ => trivial⟩
    refine .bind (hany _) fun contract => ?_
    refine .ite (fun _ => .bind (hany _) fun _ => .bind (hany _) fun _ => ?_) fun _ => ?_
    all_goals
      refine .bind (hany _) fun _ => .bind (hany _) fun events => ?_
      exact .ite (fun _ => .bind (hany _) fun _ => .pure fun _ _ => rfl) fun _ => .pure fun _ _ => rfl
  exact (htriple i trivial).1 (address, events) _ (Prod.ext h rfl)

omit [Primitives] in
theorem contractAddress_ne_empty [Primitives] (creator codeID seed : String) :
    contractAddress creator codeID seed ≠ "" := by
  intro h
  have := congrArg String.toList h
  simp [contractAddress] at this

/-- The runtime of the chain writes by `Edit`, whatever its engine does. -/
theorem runtime_writes (engine : Engine) (change : LifecycleChange) : (runtime engine).Writes change where
  deploy := by
    intro store creator codeID seed payload gasLimit gasUsed store' address events h htrim haddress
    obtain ⟨hresult, rfl⟩ := outcomeOf_ok h
    have hnamed := deployContract_address hresult
    have hcanonical : IsCanonicalAddress (contractAddress creator codeID seed) := by
      rw [← hnamed]
      exact haddress (by rw [hnamed]; exact contractAddress_ne_empty _ _ _)
    exact deployContract_keeps engine (closedUnderStorage_steps store hcanonical).admissible (metered_store _)
      (fun i hi => ⟨hi.tail (.setCodeID hcanonical htrim), known_setCodeID _ _ _⟩) (fun i hi => hi.1) payload
      { store, meter := { gasLimit } } .refl
  call := by
    intro store address caller method payload gasLimit gasUsed store' events h hcanonical
    change callMeteredInTransaction engine store address caller method payload gasLimit = _ at h
    unfold callMeteredInTransaction at h
    split at h
    · cases h
    · next hcode =>
      obtain ⟨-, rfl⟩ := outcomeOf_ok h
      have hlower := toLower_of_canonical hcanonical
      have hclosed : ClosedUnderStorage (toLower address) fun store' =>
          Steps change store store' ∧ normalize address ∈ store'.accounts := by
        rw [hlower]
        exact closedUnderStorage_steps store hcanonical
      exact (callContract_keeps engine hclosed.admissible _ caller method payload { store, meter := { gasLimit } }
        ⟨.refl, known_of_codeID hcode⟩).1

omit [Primitives] in
theorem closedUnderStorage_sameFunds (address : String) (base : Store) :
    ClosedUnderStorage address (SameFunds base) where
  set := fun hfunds hset => hfunds.trans (setStorage_frame hset).sameFunds
  delete := fun hfunds => hfunds.trans (deleteStorage_frame _ _ _).sameFunds

/-- The runtime of the chain moves no funds. -/
theorem runtime_keepsFunds (engine : Engine) : (runtime engine).KeepsFunds where
  deploy := by
    intro store creator codeID seed payload gasLimit gasUsed store' address events h
    obtain ⟨-, rfl⟩ := outcomeOf_ok h
    exact deployContract_keeps engine (closedUnderStorage_sameFunds _ store).admissible (metered_store _)
      (fun i hi => hi.trans (sameFunds_setCodeID _ _ _)) (fun _ hi => hi) payload { store, meter := { gasLimit } }
      (.refl store)
  call := by
    intro store address caller method payload gasLimit gasUsed store' events h
    change callMeteredInTransaction engine store address caller method payload gasLimit = _ at h
    unfold callMeteredInTransaction at h
    split at h
    · cases h
    · obtain ⟨-, rfl⟩ := outcomeOf_ok h
      exact callContract_keeps engine (closedUnderStorage_sameFunds _ store).admissible _ caller method payload
        { store, meter := { gasLimit } } (.refl store)

end ChainLab.Contracts
