import ChainLab.Node.Bodies

/-! What a call can do to a node, said once: it notes votes and transactions, it puts a produced block on top, it
imports a block, or it counts a vote. Further invariants of runs are proved from these cases. -/

namespace ChainLab.Node

open ChainLab.Lib ChainLab.Types ChainLab.Crypto ChainLab.State ChainLab.Core ChainLab.Consensus
open Relation (ReflTransGen)

variable [Primitives]

/-- What a call can do to a node. -/
inductive Moves (setup : Setup) (world : World) (n : LabNode) : LabNode → Prop
  | rests {heights : GoMap UInt64 Nat} {n' : LabNode} (noted : Noted setup { n with knownBlockHeights := heights } n') :
    Moves setup world n n'
  | produced {block : Block} {working : Store} {mempool queued : List Transaction} {n' : LabNode}
    (drafted : Drafted setup world n block working mempool queued)
    (stalled : Stalled (published n block working mempool queued) n') : Moves setup world n n'
  | imported {block : Block} {n' : LabNode} (imported : Imported setup world n block n') : Moves setup world n n'
  | voted {vote : FinalitySignature} {n' : LabNode} (voted : Voted setup n vote n') : Moves setup world n n'

section Calls

variable {setup : Setup} {world : World} {n : LabNode} {headers : List BlockHeader}

theorem moves_of_noted {n' : LabNode} (h : Noted setup n n') : Moves setup world n n' :=
  @Moves.rests _ setup world n n.knownBlockHeights n' h

theorem call_moves (h : n.OnChain headers) (call : Call)
    (hfree : NoCollision (n.presented setup world call ++ headers)) : Moves setup world n (n.call setup world call) := by
  cases call with
  | submitTx tx =>
    refine (submitAndPersistTx_spec tx).leaves rfl (fun _ s hs => ?_) fun _ s hs => moves_of_noted (.of_stalled hs)
    obtain ⟨pool, hstalled, hpool⟩ := hs
    have hsubmitted : Noted setup n { n with pool } := ⟨⟨_, _, _, _, _, _, _, rfl⟩, .single ⟨tx, hpool⟩⟩
    exact moves_of_noted (hsubmitted.trans (.of_stalled hstalled))
  | produceBlock =>
    refine produceBlock_spec.leaves rfl (fun block s hs => ?_) fun _ s hs => ?_
    · obtain ⟨working, mempool, queued, hdrafted, hstalled⟩ := hs
      exact .produced hdrafted hstalled
    · rcases hs with hstalled | ⟨block, working, mempool, queued, hdrafted, hwithdrawn⟩
      · exact moves_of_noted (.of_stalled hstalled)
      · have hmem := List.mem_append_left headers hdrafted.presented_mem
        have hchain := h.mono (List.subset_append_right (n.presented setup world .produceBlock) headers)
        obtain ⟨heights, hstalled⟩ := hdrafted.withdrawn_unmoved hchain hfree hmem hwithdrawn
        exact .rests (.of_stalled hstalled)
  | importBlock block =>
    refine (importBlock_spec block).leaves rfl (fun _ s hs => .imported hs) fun _ s hs => ?_
    obtain ⟨heights, hstalled, -⟩ := hs
    exact .rests (.of_stalled hstalled)
  | submitFinalityVote vote =>
    have hknown : ∀ block ∈ n.blocks, block.hash ∈ n.knownBlocks :=
      fun block hmem => mem_of_lookup (h.path.mem_known hmem)
    refine (submitFinalityVote_spec hknown vote).leaves rfl (fun _ s hs => .voted hs) fun _ s hs => ?_
    exact moves_of_noted hs.noted

end Calls

section Runs

variable {setup : Setup} {history : History}

/-- What holds of a new node, and is kept by every move between nodes in which the chain and the pool are in order,
holds of every node that calls lead to. -/
theorem Reachable.invariant {P : LabNode → Prop} (hcreated : ∀ start, Created setup start → P start.node)
    (hmoves : ∀ headers world n n', setup.runtime.KeepsFunds → NoCollision headers → n.Sound setup headers →
      n'.Sound setup headers → P n → Moves setup world n n' → P n')
    (h : Reachable setup history) (hfree : NoCollision history.headers) : P history.node := by
  obtain ⟨start, hstart, hrun⟩ := h
  obtain ⟨hsound, hr⟩ := created_sound hstart
  induction hrun with
  | refl => exact hcreated start hstart
  | @tail before _ hrun hcalled ih =>
    cases hcalled with
    | call world call visits =>
      have hbefore := run_sound hr hsound hrun hfree.of_append
      have hmore : before.node.Sound setup (before.node.presented setup world call ++ before.headers) :=
        ⟨hbefore.chain.mono (List.subset_append_right _ _), hbefore.pool⟩
      exact hmoves _ world _ _ hr hfree hmore (call_kept hr hbefore call visits hfree).1 (ih hfree.of_append)
        (call_moves hbefore.chain call hfree)

end Runs

end ChainLab.Node
