import ChainLab.Consensus.Certificates

/-! Merging the finality certificates that a node receives for one block. -/

namespace ChainLab.Node

open ChainLab.Lib ChainLab.Types ChainLab.Crypto ChainLab.Consensus

abbrev Votes := GoMap String FinalitySignature

/-- `sortedFinalitySignatures`. -/
def sortedFinalitySignatures (votes : Votes) : List FinalitySignature :=
  votes.sortedKeys.map fun validator => { GoMap.get votes validator with validator }

/-- One round of the first loop of `mergeFinalityCertificates`. -/
def keepVote (votes : Votes) (vote : FinalitySignature) : Votes := votes.insert vote.validator vote

/-- One round of its second loop: a signer that is there keeps its vote. -/
def addVote (state : Votes × Bool) (vote : FinalitySignature) : Votes × Bool :=
  if vote.validator ∈ state.1 then state else (state.1.insert vote.validator vote, true)

/-- The two loops: the votes of both certificates, and whether the second one had a new signer. -/
def mergedVotes (existing incoming : FinalityCertificate) : Votes × Bool :=
  incoming.signatures.items.foldl addVote (existing.signatures.items.foldl keepVote ∅, false)

/-- `mergeFinalityCertificates`. -/
def mergeFinalityCertificates (existing incoming : Option FinalityCertificate) :
    Option FinalityCertificate × Bool :=
  match existing, incoming with
  | none, incoming => (incoming, incoming.isSome)
  | some existing, none => (some existing, false)
  | some existing, some incoming =>
    let (votes, changed) := mergedVotes existing incoming
    if !changed then (some existing, false)
    else (some { existing with signatures := some (sortedFinalitySignatures votes) }, true)

/-! ### The votes that the loops collect -/

/-- Every vote is kept under its own signer and is one of those given. -/
def DrawnFrom (P : FinalitySignature → Prop) (votes : Votes) : Prop :=
  ∀ validator vote, votes.lookup validator = some vote → P vote ∧ vote.validator = validator

section Collecting

variable {P : FinalitySignature → Prop}

theorem DrawnFrom.insert {votes : Votes} (h : DrawnFrom P votes) {vote : FinalitySignature} (hvote : P vote) :
    DrawnFrom P (votes.insert vote.validator vote) := by
  intro validator found hfound
  rw [GoMap.lookup_insert_if] at hfound
  split at hfound
  · next heq =>
    obtain rfl := Option.some.inj hfound
    exact ⟨hvote, heq.symm⟩
  · exact h validator found hfound

theorem keepVotes_drawn (list : List FinalitySignature) (hlist : ∀ vote ∈ list, P vote) {votes : Votes}
    (h : DrawnFrom P votes) : DrawnFrom P (list.foldl keepVote votes) := by
  induction list generalizing votes with
  | nil => exact h
  | cons vote rest ih =>
    obtain ⟨hvote, hrest⟩ := List.forall_mem_cons.mp hlist
    exact ih hrest (h.insert hvote)

theorem mem_keepVotes (list : List FinalitySignature) (votes : Votes) (validator : String) :
    validator ∈ list.foldl keepVote votes ↔
      validator ∈ list.map FinalitySignature.validator ∨ validator ∈ votes := by
  induction list generalizing votes with
  | nil => simp
  | cons vote rest ih =>
    rw [List.foldl_cons, ih, keepVote, Finmap.mem_insert, List.map_cons, List.mem_cons]
    tauto

theorem addVotes_drawn (list : List FinalitySignature) (hlist : ∀ vote ∈ list, P vote) {state : Votes × Bool}
    (h : DrawnFrom P state.1) : DrawnFrom P (list.foldl addVote state).1 := by
  induction list generalizing state with
  | nil => exact h
  | cons vote rest ih =>
    obtain ⟨hvote, hrest⟩ := List.forall_mem_cons.mp hlist
    refine ih hrest ?_
    unfold addVote
    split
    · exact h
    · exact h.insert hvote

theorem mem_addVotes (list : List FinalitySignature) (state : Votes × Bool) (validator : String) :
    validator ∈ (list.foldl addVote state).1 ↔
      validator ∈ list.map FinalitySignature.validator ∨ validator ∈ state.1 := by
  induction list generalizing state with
  | nil => simp
  | cons vote rest ih =>
    rw [List.foldl_cons, ih, List.map_cons, List.mem_cons]
    unfold addVote
    split
    · next hmem =>
      constructor
      · tauto
      · rintro ((rfl | hrest) | hold)
        · exact .inr hmem
        · exact .inl hrest
        · exact .inr hold
    · rw [Finmap.mem_insert]
      tauto

/-- The loop reports a change exactly when a signer was missing at its start. -/
theorem addVotes_changed (list : List FinalitySignature) (state : Votes × Bool) :
    (list.foldl addVote state).2 = true ↔
      state.2 = true ∨ ∃ validator ∈ list.map FinalitySignature.validator, validator ∉ state.1 := by
  induction list generalizing state with
  | nil => simp
  | cons vote rest ih =>
    rw [List.foldl_cons, ih, List.map_cons]
    unfold addVote
    split
    · next hmem => simp [hmem]
    · next hmem => simp [hmem]

theorem drawnFrom_empty : DrawnFrom P ∅ := by
  intro validator vote hfound
  rw [Finmap.lookup_empty] at hfound
  cases hfound

theorem mergedVotes_drawn {existing incoming : FinalityCertificate} (hexisting : ∀ vote ∈ existing.signatures.items, P vote)
    (hincoming : ∀ vote ∈ incoming.signatures.items, P vote) : DrawnFrom P (mergedVotes existing incoming).1 :=
  addVotes_drawn _ hincoming (keepVotes_drawn _ hexisting drawnFrom_empty)

end Collecting

section Merged

variable (existing incoming : FinalityCertificate)

theorem mem_keptVotes (validator : String) :
    validator ∈ existing.signatures.items.foldl keepVote ∅ ↔ validator ∈ signers existing := by
  rw [mem_keepVotes, signers, List.mem_toFinset, signerList, or_iff_left (Finmap.notMem_empty)]

theorem mem_mergedVotes (validator : String) :
    validator ∈ (mergedVotes existing incoming).1 ↔ validator ∈ signers existing ∪ signers incoming := by
  rw [mergedVotes, mem_addVotes, mem_keptVotes, Finset.mem_union, or_comm, ← signerList, ← List.mem_toFinset, ← signers]

theorem mergedVotes_changed : (mergedVotes existing incoming).2 = true ↔
    ∃ validator ∈ signers incoming, validator ∉ signers existing := by
  rw [mergedVotes, addVotes_changed]
  simp only [Bool.false_eq_true, false_or, mem_keptVotes, signers, signerList, List.mem_toFinset]

/-- The certificate of a merge that changed something. -/
def mergedCertificate : FinalityCertificate :=
  { existing with signatures := some (sortedFinalitySignatures (mergedVotes existing incoming).1) }

theorem mergeFinalityCertificates_present : mergeFinalityCertificates (some existing) (some incoming) =
    if (mergedVotes existing incoming).2 = true then (some (mergedCertificate existing incoming), true)
    else (some existing, false) := by
  change (if (!(mergedVotes existing incoming).2) = true then _ else _) = _
  cases (mergedVotes existing incoming).2 with
  | false => rfl
  | true => rfl

end Merged

theorem validators_sortedFinalitySignatures (votes : Votes) :
    (sortedFinalitySignatures votes).map FinalitySignature.validator = votes.sortedKeys := by
  rw [sortedFinalitySignatures, List.map_map]
  exact List.map_id _

theorem mem_sortedFinalitySignatures {P : FinalitySignature → Prop} {votes : Votes} (h : DrawnFrom P votes)
    {vote : FinalitySignature} (hmem : vote ∈ sortedFinalitySignatures votes) : P vote := by
  obtain ⟨validator, hkey, rfl⟩ := List.mem_map.mp hmem
  obtain ⟨found, hfound⟩ := Finmap.mem_iff.mp (GoMap.mem_sortedKeys.mp hkey)
  obtain ⟨hP, rfl⟩ := h validator found hfound
  rw [GoMap.get, hfound]
  exact hP

theorem signerList_merged (existing incoming : FinalityCertificate) :
    signerList (mergedCertificate existing incoming) = (mergedVotes existing incoming).1.sortedKeys :=
  validators_sortedFinalitySignatures _

theorem signers_merged (existing incoming : FinalityCertificate) :
    signers (mergedCertificate existing incoming) = signers existing ∪ signers incoming := by
  ext validator
  rw [signers, signerList_merged, List.mem_toFinset, GoMap.mem_sortedKeys, mem_mergedVotes]

/-! ### Merging as a join -/

/-- The signers of a certificate that may be absent. -/
def signersOf (certificate : Option FinalityCertificate) : Finset String := certificate.elim ∅ signers

/-- An order in which certificates are merged, with any repetition; an absent one is a leaf too. -/
inductive MergeOrder where
  | given (certificate : Option FinalityCertificate)
  | merge (existing incoming : MergeOrder)

namespace MergeOrder

/-- The certificates that are merged. -/
def certificates : MergeOrder → List FinalityCertificate
  | .given certificate => certificate.toList
  | .merge existing incoming => existing.certificates ++ incoming.certificates

def result : MergeOrder → Option FinalityCertificate
  | .given certificate => certificate
  | .merge existing incoming => (mergeFinalityCertificates existing.result incoming.result).1

/-- The merges that are made on the way, with what each of them is given. -/
def steps : MergeOrder → List (Option FinalityCertificate × Option FinalityCertificate)
  | .given _ => []
  | .merge existing incoming => existing.steps ++ incoming.steps ++ [(existing.result, incoming.result)]

end MergeOrder

section Join

variable [Primitives] {p : POA} {block : Block}

/-- Absent, or accepted for the block. -/
def AcceptedOrAbsent (p : POA) (block : Block) (certificate : Option FinalityCertificate) : Prop :=
  ∀ c ∈ certificate, Accepted p block c

theorem accepted_merged {existing incoming : FinalityCertificate} (hold : Accepted p block existing)
    (hnew : Accepted p block incoming) : Accepted p block (mergedCertificate existing incoming) where
  chainID := hold.chainID
  height := hold.height
  blockHash := hold.blockHash
  endorsed _ hvote := mem_sortedFinalitySignatures (mergedVotes_drawn hold.endorsed hnew.endorsed) hvote
  increasing := by
    rw [signerList_merged]
    exact GoMap.sortedKeys_increasing _
  quorum := by
    -- no signer of the existing certificate is lost
    have hcard : (signers existing).card ≤ (signers (mergedCertificate existing incoming)).card := by
      rw [signers_merged]
      exact Finset.card_le_card Finset.subset_union_left
    have hquorum := hold.quorum
    rw [hold.card_signers, signers, signerList_merged, List.toFinset_card_of_nodup (GoMap.nodup_sortedKeys _)] at hcard
    rw [signerList_merged]
    omega

/-- A merge of accepted certificates: what it returns is accepted, its signers are those of both sides,
and it reports a change exactly when the incoming side has a new one. -/
theorem merge_spec {existing incoming : Option FinalityCertificate} (hexisting : AcceptedOrAbsent p block existing)
    (hincoming : AcceptedOrAbsent p block incoming) :
    AcceptedOrAbsent p block (mergeFinalityCertificates existing incoming).1 ∧
    signersOf (mergeFinalityCertificates existing incoming).1 = signersOf existing ∪ signersOf incoming ∧
    ((mergeFinalityCertificates existing incoming).2 = true ↔
      ∃ validator ∈ signersOf incoming, validator ∉ signersOf existing) := by
  cases existing with
  | none =>
    refine ⟨hincoming, (Finset.empty_union _).symm, ?_⟩
    cases incoming with
    | none => simp [mergeFinalityCertificates, signersOf]
    | some incoming =>
      obtain ⟨validator, hmem⟩ := (hincoming incoming rfl).signers_nonempty
      exact ⟨fun _ => ⟨validator, hmem, Finset.notMem_empty _⟩, fun _ => rfl⟩
  | some existing =>
    cases incoming with
    | none =>
      refine ⟨hexisting, (Finset.union_empty _).symm, ?_⟩
      simp [mergeFinalityCertificates, signersOf]
    | some incoming =>
      have hold := hexisting existing rfl
      have hnew := hincoming incoming rfl
      have hchanged := mergedVotes_changed existing incoming
      rw [mergeFinalityCertificates_present]
      split
      · next hflag =>
        exact ⟨fun c hc => Option.some.inj hc ▸ accepted_merged hold hnew, signers_merged existing incoming,
          fun _ => hchanged.mp hflag, fun _ => rfl⟩
      · next hflag =>
        rw [hchanged, not_exists] at hflag
        have hsubset : signers incoming ⊆ signers existing :=
          fun validator hmem => not_not.mp fun hmissing => hflag validator ⟨hmem, hmissing⟩
        exact ⟨hexisting, (Finset.union_eq_left.mpr hsubset).symm, fun h => (nomatch h),
          fun ⟨validator, hmem⟩ => absurd hmem (hflag validator)⟩

theorem MergeOrder.result_spec (order : MergeOrder) (h : ∀ c ∈ order.certificates, Accepted p block c) :
    AcceptedOrAbsent p block order.result ∧
    signersOf order.result = order.certificates.toFinset.biUnion signers := by
  induction order with
  | given certificate =>
    refine ⟨fun c hc => h c (Option.mem_toList.mpr hc), ?_⟩
    cases certificate with
    | none => rfl
    | some c => simp [result, certificates, signersOf]
  | merge existing incoming ihe ihi =>
    rw [certificates, List.forall_mem_append] at h
    obtain ⟨hae, hse⟩ := ihe h.1
    obtain ⟨hai, hsi⟩ := ihi h.2
    obtain ⟨haccepted, hsigners, _⟩ := merge_spec hae hai
    refine ⟨haccepted, ?_⟩
    rw [result, hsigners, hse, hsi, certificates, List.toFinset_append, Finset.union_biUnion]

theorem MergeOrder.steps_accepted (order : MergeOrder) (h : ∀ c ∈ order.certificates, Accepted p block c) :
    ∀ step ∈ order.steps, AcceptedOrAbsent p block step.1 ∧ AcceptedOrAbsent p block step.2 := by
  induction order with
  | given certificate => exact fun _ hstep => (nomatch hstep)
  | merge existing incoming ihe ihi =>
    rw [certificates, List.forall_mem_append] at h
    intro step hstep
    rw [steps, List.mem_append, List.mem_append, List.mem_singleton] at hstep
    rcases hstep with (hstep | hstep) | rfl
    · exact ihe h.1 step hstep
    · exact ihi h.2 step hstep
    · exact ⟨(existing.result_spec h.1).1, (incoming.result_spec h.2).1⟩

/-- Merging is a join: in any order and with any repetition, accepted certificates merge to an accepted
one whose signers are those of all of them, each listed once and in order; and every merge on the way
reports a change exactly when the incoming certificate has a signer that was not there. -/
theorem mergeFinalityCertificates_join (p : POA) (block : Block) (order : MergeOrder)
    (h : ∀ c ∈ order.certificates, p.validateFinalityCertificate block c = .ok ()) :
    (∀ c, order.result = some c → p.validateFinalityCertificate block c = .ok () ∧
      (signerList c).Pairwise (· < ·) ∧ signers c = order.certificates.toFinset.biUnion signers) ∧
    (order.result = none ↔ order.certificates = []) ∧
    ∀ step ∈ order.steps, (mergeFinalityCertificates step.1 step.2).2 = true ↔
      ∃ validator ∈ signersOf step.2, validator ∉ signersOf step.1 := by
  have haccepted : ∀ c ∈ order.certificates, Accepted p block c :=
    fun c hc => validateFinalityCertificate_ok.mp (h c hc)
  obtain ⟨hresult, hsigners⟩ := order.result_spec haccepted
  refine ⟨?_, ?_, ?_⟩
  · intro c hc
    have hc' := hresult c hc
    rw [hc] at hsigners
    exact ⟨validateFinalityCertificate_ok.mpr hc', hc'.increasing, hsigners⟩
  · constructor
    · intro hnone
      rw [hnone] at hsigners
      refine List.eq_nil_iff_forall_not_mem.mpr fun c hc => ?_
      obtain ⟨validator, hmem⟩ := (haccepted c hc).signers_nonempty
      have : validator ∈ order.certificates.toFinset.biUnion signers :=
        Finset.mem_biUnion.mpr ⟨c, List.mem_toFinset.mpr hc, hmem⟩
      rw [← hsigners] at this
      exact Finset.notMem_empty _ this
    · intro hnil
      rw [hnil] at hsigners
      cases hr : order.result with
      | none => rfl
      | some c =>
        obtain ⟨validator, hmem⟩ := (hresult c hr).signers_nonempty
        rw [hr] at hsigners
        have hempty : signers c = ∅ := hsigners
        rw [hempty] at hmem
        exact absurd hmem (Finset.notMem_empty _)
  · intro step hstep
    obtain ⟨hexisting, hincoming⟩ := order.steps_accepted haccepted step hstep
    exact (merge_spec hexisting hincoming).2.2

end Join

section Committee

attribute [local instance] checksumPrimitives

/-- The certificate of the first three of four validators, merged with that of the last three and itself. -/
def committeeMerge : MergeOrder :=
  .merge (.merge (.given none) (.given (some (committeeCertificate 5 [1, 2, 3]))))
    (.merge (.given (some (committeeCertificate 5 [2, 3, 4]))) (.given (some (committeeCertificate 5 [1, 2, 3]))))

theorem mergeFinalityCertificates_join_committee : ∃ c, committeeMerge.result = some c ∧
    (newPOA committee).validateFinalityCertificate (committeeBlock 5) c = .ok () ∧ signers c = committee.toFinset := by
  have haccepted : ∀ c ∈ committeeMerge.certificates,
      (newPOA committee).validateFinalityCertificate (committeeBlock 5) c = .ok () := by
    obtain ⟨hfirst, hlast, -⟩ := committee_accepts
    intro c hc
    simp only [committeeMerge, MergeOrder.certificates, Option.toList, List.nil_append, List.singleton_append,
      List.mem_cons, List.not_mem_nil, or_false] at hc
    rcases hc with rfl | rfl | rfl
    · exact hfirst
    · exact hlast
    · exact hfirst
  obtain ⟨hresult, hnone, -⟩ := mergeFinalityCertificates_join _ _ committeeMerge haccepted
  obtain ⟨c, hc⟩ := Option.ne_none_iff_exists'.mp fun h => List.cons_ne_nil _ _ (hnone.mp h)
  obtain ⟨hvalid, -, hsigners⟩ := hresult c hc
  exact ⟨c, hc, hvalid, hsigners.trans (by decide +kernel)⟩

end Committee

end ChainLab.Node
