import ChainLab.Contracts.Steps
import ChainLab.Lib.Loops

/-! What the runtime reports of an invocation: gas within the limit it was given, and events that have a type and
named attributes. -/

namespace ChainLab.Contracts

open ChainLab.Lib ChainLab.Lib.Action ChainLab.Types ChainLab.State ChainLab.State.Store ChainLab.Crypto

/-! ### Gas -/

/-- A meter under a limit, not overdrawn. -/
def Meter.Within (limit : UInt64) (m : Meter) : Prop := m.gasLimit = limit ∧ m.gasUsed ≤ m.gasLimit

theorem Meter.Within.charge {limit : UInt64} {m : Meter} (h : m.Within limit) (amount : UInt64) :
    (m.charge amount).2.Within limit := by
  have hleft := toNat_sub_of_covers (UInt64.le_iff_toNat_le.mp h.2)
  have hlimit := m.gasLimit.toNat_lt
  have hused := UInt64.le_iff_toNat_le.mp h.2
  unfold Meter.charge
  split
  · exact h
  · split
    · exact h
    · split
      · exact ⟨h.1, UInt64.le_refl _⟩
      · next hfits =>
        rw [gt_iff_lt, UInt64.lt_iff_toNat_lt, hleft] at hfits
        have hsum : (m.gasUsed + amount).toNat = m.gasUsed.toNat + amount.toNat := toNat_add_of_fits (by omega)
        refine ⟨h.1, UInt64.le_iff_toNat_le.mpr ?_⟩
        change (m.gasUsed + amount).toNat ≤ m.gasLimit.toNat
        omega

theorem admissible_within (address : String) (limit : UInt64) :
    Admissible address fun i => i.meter.Within limit where
  charge := fun amount hi => hi.charge amount
  budget := fun _ hi => hi
  set := fun hi _ => hi
  delete := fun hi => hi

theorem outcomeOf_gas {α : Type} (ran : Result α × Invocation) : (outcomeOf ran).1 = ran.2.meter.gasUsed := by
  obtain ⟨err | result, i⟩ := ran <;> rfl

theorem within_new (limit : UInt64) : ({ gasLimit := limit } : Meter).Within limit := ⟨rfl, UInt64.zero_le⟩

section Runtime

variable [Primitives]

/-- A call reports no more gas than it was given. -/
theorem callMeteredInTransaction_gas_le (engine : Engine) (store : Store) (address caller method : String)
    (args : Fields) (gasLimit : UInt64) :
    (callMeteredInTransaction engine store address caller method args gasLimit).1 ≤ gasLimit := by
  unfold callMeteredInTransaction
  split
  · exact UInt64.zero_le
  · rw [outcomeOf_gas]
    have hkept := callContract_keeps engine (admissible_within (toLower address) gasLimit) (store.codeID address)
      caller method args { store, meter := { gasLimit } } (within_new gasLimit)
    exact le_of_le_of_eq hkept.2 hkept.1

/-- A deployment reports no more gas than it was given. -/
theorem deployMeteredInTransaction_gas_le (engine : Engine) (store : Store) (creator codeID seed : String)
    (args : Fields) (gasLimit : UInt64) :
    (deployMeteredInTransaction engine store creator codeID seed args gasLimit).1 ≤ gasLimit := by
  unfold deployMeteredInTransaction
  rw [outcomeOf_gas]
  have hkept := deployContract_keeps engine (admissible_within (contractAddress creator codeID seed) gasLimit)
    (admissible_within "" gasLimit).toMetered (fun _ hi => hi) (fun _ hi => hi) args
    { store, meter := { gasLimit } } (within_new gasLimit)
  exact le_of_le_of_eq hkept.2 hkept.1

end Runtime

/-! ### Events -/

/-- Attributes made of named pairs have no blank name. -/
theorem notMem_ofList {entries : List (String × String)} (hkeys : ∀ entry ∈ entries, entry.1 ≠ "") :
    "" ∉ (GoMap.ofList entries : Fields) := by
  have hloop : ∀ (entries : List (String × String)) (m : Fields), "" ∉ m → (∀ entry ∈ entries, entry.1 ≠ "") →
      "" ∉ entries.foldl (fun m e => m.insert e.1 e.2) m := by
    intro entries
    induction entries with
    | nil => exact fun _ hm _ => hm
    | cons entry rest ih =>
      intro m hm hkeys
      refine ih (m.insert entry.1 entry.2) ?_ fun e he => hkeys e (List.mem_cons_of_mem _ he)
      rw [Finmap.mem_insert, not_or]
      exact ⟨fun hsame => hkeys entry List.mem_cons_self hsame.symm, hm⟩
  exact hloop entries ∅ Finmap.notMem_empty hkeys

theorem shaped_ofList {type : String} {entries : List (String × String)} (htype : type ≠ "")
    (hkeys : ∀ entry ∈ entries, entry.1 ≠ "") : Event.Shaped { type, attributes := GoMap.ofList entries } :=
  ⟨htype, notMem_ofList hkeys⟩

/-- What native contracts report is looked at before it is paid for. -/
theorem chargeNativeEvents_shaped {events : List Event} {i i' : Invocation}
    (h : chargeNativeEvents events i = (.ok (), i')) : ∀ event ∈ events, event.Shaped := by
  simp only [chargeNativeEvents, bind_run_ok, lift_run_ok] at h
  obtain ⟨_, _, -, total, _, ⟨hscan, -⟩, -⟩ := h
  intro event hevent
  obtain ⟨_, _, hround⟩ := foldlM_visits events hscan event hevent
  simp only [scanEvent, bind_ok, refuseIf_ok, exists_const, not_or] at hround
  obtain ⟨⟨htype, -⟩, -, hattributes⟩ := hround
  refine ⟨htype, fun hblank => ?_⟩
  obtain ⟨_, _, hkey⟩ := foldlM_visits _ hattributes "" (GoMap.mem_sortedKeys.mpr hblank)
  simp only [scanAttribute, bind_ok, refuseIf_ok, exists_const, not_or] at hkey
  exact hkey.1.1 trivial

/-- The events of a guest were made by its host. -/
theorem hostAdmissible_shaped (address : String) :
    HostAdmissible address fun i => ∀ event ∈ i.events, event.Shaped where
  meter := fun _ _ hi => hi
  write := fun _ hi _ => hi
  emit := fun {i event} _ hi hshaped => by
    intro other hother
    rcases List.mem_append.mp hother with hother | hother
    · exact hi other hother
    · rw [List.mem_singleton.mp hother]
      exact hshaped

theorem settleGuest_events {fuelLimit : UInt64} {ran : Result Unit × WasmInvocation} {events : List Event}
    {i i' : Invocation} (h : settleGuest fuelLimit ran i = (.ok events, i')) : events = ran.2.events := by
  obtain ⟨outcome, hosted⟩ := ran
  simp only [settleGuest, bind_run_ok, lift_run_ok, modify_run_ok, pure_run_ok] at h
  obtain ⟨_, _, -, _, _, -, _, _, -, rfl, -⟩ := h
  rfl

theorem callGuest_shaped {guest : Guest} {resources : WasmModuleResources} {ctx : Context} {args : Fields}
    {events : List Event} {i i' : Invocation} (h : callGuest guest resources ctx args i = (.ok events, i')) :
    ∀ event ∈ events, event.Shaped := by
  simp only [callGuest, bind_run_ok, read_run_ok] at h
  obtain ⟨_, _, -, fuelLimit, _, -, store, _, -, hsettle⟩ := h
  rw [settleGuest_events hsettle]
  exact guest_keeps (hostAdmissible_shaped ctx.address) args guest { store, fuel := fuelLimit }
    fun _ hnone => (nomatch hnone)

theorem guest_call_shaped {engine : Engine} {ctx : Context} {method : String} {args : Fields} {contract : Contract}
    (hguest : contract.isNative = false) {events : List Event} {i i' : Invocation}
    (h : contract.call engine ctx method args i = (.ok events, i')) : ∀ event ∈ events, event.Shaped := by
  cases contract with
  | wasm code resources =>
    simp only [Contract.call] at h
    by_cases hset : method ≠ "set"
    · rw [if_pos hset] at h
      cases h
    · rw [if_neg hset] at h
      exact callGuest_shaped h
  | account | multisig | counter | token => cases hguest

theorem guest_deploy_shaped {engine : Engine} {ctx : Context} {args : Fields} {contract : Contract}
    (hguest : contract.isNative = false) {events : List Event} {i i' : Invocation}
    (h : contract.deploy engine ctx args i = (.ok events, i')) : ∀ event ∈ events, event.Shaped := by
  cases contract with
  | wasm code resources => exact callGuest_shaped h
  | account | multisig | counter | token => cases hguest

section Runtime

variable [Primitives]

/-- A native contract's events were looked at when they were paid for, a guest's were made by its host. -/
theorem callContract_shaped {engine : Engine} {codeID address caller method : String} {args : Fields}
    {events : List Event} {i i' : Invocation}
    (h : callContract engine codeID address caller method args i = (.ok events, i')) :
    ∀ event ∈ events, event.Shaped := by
  simp only [callContract, bind_run_ok] at h
  obtain ⟨contract, _, -, h⟩ := h
  cases hnative : contract.isNative with
  | true =>
    simp only [hnative, if_true, bind_run_ok, pure_run_ok] at h
    obtain ⟨_, _, -, _, _, -, _, _, hpaid, rfl, -⟩ := h
    exact chargeNativeEvents_shaped hpaid
  | false =>
    simp only [hnative, Bool.false_eq_true, if_false, bind_run_ok, pure_run_ok] at h
    obtain ⟨_, _, hcall, rfl, -⟩ := h
    exact guest_call_shaped hnative hcall

theorem deployContract_shaped {engine : Engine} {creator codeID seed address : String} {args : Fields}
    {events : List Event} {i i' : Invocation}
    (h : deployContract engine creator codeID seed args i = (.ok (address, events), i')) :
    ∀ event ∈ events, event.Shaped := by
  simp only [deployContract, bind_run_ok] at h
  obtain ⟨contract, _, -, h⟩ := h
  cases hnative : contract.isNative with
  | true =>
    simp only [hnative, if_true, bind_run_ok, pure_run_ok, Prod.mk.injEq] at h
    obtain ⟨_, _, -, _, _, -, _, _, -, _, _, -, _, _, hpaid, ⟨-, rfl⟩, -⟩ := h
    exact chargeNativeEvents_shaped hpaid
  | false =>
    simp only [hnative, Bool.false_eq_true, if_false, bind_run_ok, pure_run_ok, Prod.mk.injEq] at h
    obtain ⟨_, _, -, _, _, hdeploy, ⟨-, rfl⟩, -⟩ := h
    intro event hevent
    rcases List.mem_cons.mp hevent with rfl | hevent
    · exact shaped_ofList (by decide) (by simp)
    · exact guest_deploy_shaped hnative hdeploy event hevent

theorem callMeteredInTransaction_shaped {engine : Engine} {store store' : Store} {address caller method : String}
    {args : Fields} {gasLimit gasUsed : UInt64} {events : List Event}
    (h : callMeteredInTransaction engine store address caller method args gasLimit =
      (gasUsed, .ok (store', events))) : ∀ event ∈ events, event.Shaped := by
  unfold callMeteredInTransaction at h
  split at h
  · cases h
  · exact callContract_shaped (Prod.ext (outcomeOf_ok h).1 rfl)

theorem deployMeteredInTransaction_shaped {engine : Engine} {store store' : Store}
    {creator codeID seed address : String} {args : Fields} {gasLimit gasUsed : UInt64} {events : List Event}
    (h : deployMeteredInTransaction engine store creator codeID seed args gasLimit =
      (gasUsed, .ok (store', address, events))) :
    address = contractAddress creator codeID seed ∧ ∀ event ∈ events, event.Shaped := by
  have hresult := (outcomeOf_ok h).1
  exact ⟨deployContract_address hresult, deployContract_shaped (Prod.ext hresult rfl)⟩

end Runtime

end ChainLab.Contracts
