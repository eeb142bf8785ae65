import ChainLab.Contracts.WasmModule
import ChainLab.Lib.Paths

/-! The call-depth policy decides what it should: the search accepts a call graph exactly when its calls
are acyclic and no path of calls is too long. -/

namespace ChainLab.Contracts

open ChainLab.Lib ChainLab.Types Relation

/-- The calls of a function; a function outside the graph makes none. -/
def callsOf (graph : List (List UInt32)) (functionIndex : Nat) : List UInt32 := graph.getD functionIndex []

/-- One function calls another directly. -/
def DirectCall (graph : List (List UInt32)) (caller callee : Nat) : Prop :=
  ∃ target ∈ callsOf graph caller, target.toNat = callee

def recursionError : GoError := newError "wasm direct call graph contains recursion"

def callDepthError : GoError := newError "wasm direct call depth exceeds the version-1 limit of 64"

/-- The error that stands for a search whose rounds run out. -/
def unfinishedError : GoError := newError "wasm direct call graph search did not finish"

/-! ### Depths -/

/-- The depth of a function is one more than the largest depth of its callees, which must all be below
the limit. -/
theorem callDepth_outcome (depths calls : List UInt32) :
    (∃ depth, callDepth depths calls = .ok depth ∧ 1 ≤ depth.toNat ∧ depth.toNat ≤ 64 ∧
      (∀ target ∈ calls, (depths.getD target.toNat 0).toNat + 1 ≤ depth.toNat) ∧
      (depth.toNat = 1 ∨ ∃ target ∈ calls, depth.toNat = (depths.getD target.toNat 0).toNat + 1)) ∨
    (callDepth depths calls = .error callDepthError ∧
      ∃ target ∈ calls, 64 ≤ (depths.getD target.toNat 0).toNat) := by
  unfold callDepth
  generalize hround : (fun (depth target : UInt32) => _) = round
  have hlimit : maxWASMCallDepth.toNat = 64 := rfl
  -- the claim for the rest of the loop, from any depth that it can have reached
  suffices hloop : ∀ start : UInt32, 1 ≤ start.toNat → start.toNat ≤ 64 →
      (∃ depth, calls.foldlM round start = .ok depth ∧ start.toNat ≤ depth.toNat ∧ depth.toNat ≤ 64 ∧
        (∀ target ∈ calls, (depths.getD target.toNat 0).toNat + 1 ≤ depth.toNat) ∧
        (depth.toNat = start.toNat ∨ ∃ target ∈ calls, depth.toNat = (depths.getD target.toNat 0).toNat + 1)) ∨
      (calls.foldlM round start = .error callDepthError ∧
        ∃ target ∈ calls, 64 ≤ (depths.getD target.toNat 0).toNat) by
    exact hloop 1 le_rfl (by decide)
  induction calls with
  | nil => exact fun start _ hle => .inl ⟨start, rfl, le_rfl, hle, fun _ h => (nomatch h), .inl rfl⟩
  | cons target rest ih =>
    intro start hpos hle
    rw [List.foldlM_cons]
    by_cases hdeep : 64 ≤ (depths.getD target.toNat 0).toNat
    · right
      refine ⟨?_, target, List.mem_cons_self, hdeep⟩
      have hge : depths.getD target.toNat 0 ≥ maxWASMCallDepth := UInt32.le_iff_toNat_le.mpr hdeep
      rw [← hround]
      simp only [refuseIf, if_pos hge]
      rfl
    · have hnot : ¬depths.getD target.toNat 0 ≥ maxWASMCallDepth := fun h => hdeep (UInt32.le_iff_toNat_le.mp h)
      have hone : (1 : UInt32).toNat = 1 := rfl
      have hadd : (depths.getD target.toNat 0 + 1).toNat = (depths.getD target.toNat 0).toNat + 1 := by
        rw [UInt32.toNat_add, hone]
        exact Nat.mod_eq_of_lt (by omega)
      obtain ⟨next, hnext, hlow, hhigh, hcover, hfrom⟩ : ∃ next, round start target = .ok next ∧
          start.toNat ≤ next.toNat ∧ next.toNat ≤ 64 ∧ (depths.getD target.toNat 0).toNat + 1 ≤ next.toNat ∧
          (next.toNat = start.toNat ∨ next.toNat = (depths.getD target.toNat 0).toNat + 1) := by
        rw [← hround]
        simp only [refuseIf, if_neg hnot]
        by_cases hmore : depths.getD target.toNat 0 + 1 > start
        · refine ⟨depths.getD target.toNat 0 + 1, by rw [if_pos hmore]; rfl, ?_⟩
          have := UInt32.lt_iff_toNat_lt.mp hmore
          omega
        · refine ⟨start, by rw [if_neg hmore]; rfl, ?_⟩
          have := mt UInt32.lt_iff_toNat_lt.mpr hmore
          omega
      rw [hnext]
      rcases ih next (by omega) hhigh with ⟨depth, hdepth, hge, hmax, hall, hat⟩ | ⟨herr, found, hmem, hfound⟩
      · refine .inl ⟨depth, hdepth, by omega, hmax, ?_, ?_⟩
        · rw [List.forall_mem_cons]
          exact ⟨by omega, hall⟩
        · rcases hat with hat | ⟨found, hmem, hat⟩
          · rcases hfrom with hfrom | hfrom
            · exact .inl (hat.trans hfrom)
            · exact .inr ⟨target, List.mem_cons_self, hat.trans hfrom⟩
          · exact .inr ⟨found, List.mem_cons_of_mem _ hmem, hat⟩
      · exact .inr ⟨herr, found, List.mem_cons_of_mem _ hmem, hfound⟩

/-! ### The invariant of the search -/

namespace CallSearch

def stateOf (search : CallSearch) (functionIndex : Nat) : CallState := search.states.getD functionIndex .unvisited

def depthOf (search : CallSearch) (functionIndex : Nat) : UInt32 := search.depths.getD functionIndex 0

/-- The functions that are being searched, the innermost first. -/
def active (search : CallSearch) : List Nat := search.stack.map CallFrame.functionIndex

end CallSearch

/-- The calls that each frame has gone through lead to finished functions, or to a frame above it. -/
def Explored (graph : List (List UInt32)) (visited : Nat → Prop) : List Nat → List CallFrame → Prop
  | _, [] => True
  | above, frame :: below =>
    (∀ target ∈ (callsOf graph frame.functionIndex).take frame.nextCall,
      visited target.toNat ∨ target.toNat ∈ above) ∧
    Explored graph visited (frame.functionIndex :: above) below

theorem Explored.mono {graph : List (List UInt32)} {visited visited' : Nat → Prop} {stack : List CallFrame} :
    ∀ {above above' : List Nat}, (∀ f, visited f ∨ f ∈ above → visited' f ∨ f ∈ above') →
      Explored graph visited above stack → Explored graph visited' above' stack := by
  induction stack with
  | nil => exact fun _ _ => trivial
  | cons frame below ih =>
    intro above above' himp h
    refine ⟨fun target hmem => himp _ (h.1 target hmem), ih (fun f hf => ?_) h.2⟩
    rw [List.mem_cons] at hf ⊢
    rcases hf with hf | rfl | hf
    · rcases himp f (.inl hf) with h | h
      · exact .inl h
      · exact .inr (.inr h)
    · exact .inr (.inl rfl)
    · rcases himp f (.inr hf) with h | h
      · exact .inl h
      · exact .inr (.inr h)

structure Searching (graph : List (List UInt32)) (search : CallSearch) : Prop where
  length_states : search.states.length = graph.length
  length_depths : search.depths.length = graph.length
  visiting_iff : ∀ f, search.stateOf f = .visiting ↔ f ∈ search.active
  nodup : search.active.Nodup
  links : search.active.IsChain fun callee caller => DirectCall graph caller callee
  explored : Explored graph (fun f => search.stateOf f = .visited) [] search.stack
  finished : ∀ f, search.stateOf f = .visited →
    LongestPath (DirectCall graph) f (search.depthOf f).toNat ∧ (search.depthOf f).toNat ≤ 64

/-- The functions that the search has not come to. -/
def CallSearch.pending (graph : List (List UInt32)) (search : CallSearch) : Finset Nat :=
  (Finset.range graph.length).filter (search.stateOf · = .unvisited)

theorem CallSearch.mem_pending {graph : List (List UInt32)} {search : CallSearch} {f : Nat} :
    f ∈ search.pending graph ↔ f < graph.length ∧ search.stateOf f = .unvisited := by
  rw [pending, Finset.mem_filter, Finset.mem_range]

/-- The rounds that are left: one for each call to go through, and one to finish each function. -/
def CallSearch.work (graph : List (List UInt32)) (search : CallSearch) : Nat :=
  (∑ f ∈ search.pending graph, ((callsOf graph f).length + 1)) +
    (search.stack.map fun frame => (callsOf graph frame.functionIndex).length - frame.nextCall + 1).sum

theorem getD_set {α : Type} {list : List α} {i j : Nat} {value default : α} (h : i < list.length) :
    (list.set i value).getD j default = if j = i then value else list.getD j default := by
  rw [List.getD_eq_getElem?_getD, List.getElem?_set]
  by_cases hij : i = j
  · subst hij
    rw [if_pos rfl, if_pos h, if_pos rfl]
    rfl
  · rw [if_neg hij, if_neg (Ne.symm hij), List.getD_eq_getElem?_getD]

section Rounds

variable {graph : List (List UInt32)} {search : CallSearch} {frame : CallFrame} {below : List CallFrame}

/-- A coloured function is one of the graph. -/
theorem Searching.lt_length (h : Searching graph search) {f : Nat} (hf : search.stateOf f ≠ .unvisited) :
    f < graph.length := by
  by_contra hge
  apply hf
  rw [CallSearch.stateOf, List.getD_eq_getElem?_getD, List.getElem?_eq_none (by rw [h.length_states]; omega)]
  rfl

/-- A round that skips a call of the top frame to a finished function. -/
theorem Searching.skip (h : Searching graph search) (hstack : search.stack = frame :: below) {target : UInt32}
    (hcall : (callsOf graph frame.functionIndex)[frame.nextCall]? = some target)
    (hvisited : search.stateOf target.toNat = .visited) :
    Searching graph { search with stack := { frame with nextCall := frame.nextCall + 1 } :: below } where
  length_states := h.length_states
  length_depths := h.length_depths
  visiting_iff f := by
    have := h.visiting_iff f
    rw [CallSearch.active, hstack] at this
    exact this
  nodup := by
    have := h.nodup
    rw [CallSearch.active, hstack] at this
    exact this
  links := by
    have := h.links
    rw [CallSearch.active, hstack] at this
    exact this
  explored := by
    have hexplored := h.explored
    rw [hstack] at hexplored
    refine ⟨fun t hmem => ?_, hexplored.2⟩
    rw [List.take_add_one, hcall, List.mem_append] at hmem
    rcases hmem with hmem | hmem
    · exact hexplored.1 t hmem
    · rw [List.mem_singleton.mp hmem]
      exact .inl hvisited
  finished := h.finished

/-- A round that descends into a new function. -/
theorem Searching.push (h : Searching graph search) (hstack : search.stack = frame :: below) {target : UInt32}
    (hcall : (callsOf graph frame.functionIndex)[frame.nextCall]? = some target)
    (hrange : target.toNat < graph.length) (hunvisited : search.stateOf target.toNat = .unvisited) :
    Searching graph { search with
      states := search.states.set target.toNat .visiting
      stack := { functionIndex := target.toNat } :: { frame with nextCall := frame.nextCall + 1 } :: below } := by
  have hlength : target.toNat < search.states.length := by rw [h.length_states]; exact hrange
  have hactive : search.active = frame.functionIndex :: below.map CallFrame.functionIndex := by
    rw [CallSearch.active, hstack, List.map_cons]
  have hfresh : target.toNat ∉ search.active := by
    rw [← h.visiting_iff, hunvisited]
    exact fun h => (nomatch h)
  have hstate (f : Nat) : (search.states.set target.toNat .visiting).getD f .unvisited =
      if f = target.toNat then .visiting else search.stateOf f := getD_set hlength
  have hedge : DirectCall graph frame.functionIndex target.toNat := ⟨target, List.mem_of_getElem? hcall, rfl⟩
  refine ⟨by rw [List.length_set]; exact h.length_states, h.length_depths, fun f => ?_, ?_, ?_, ?_, fun f hf => ?_⟩
  · change (search.states.set target.toNat .visiting).getD f .unvisited = _ ↔
      f ∈ target.toNat :: frame.functionIndex :: below.map CallFrame.functionIndex
    rw [hstate, ← hactive, List.mem_cons, ← h.visiting_iff]
    by_cases hf : f = target.toNat
    · rw [if_pos hf]
      exact ⟨fun _ => .inl hf, fun _ => rfl⟩
    · rw [if_neg hf, or_iff_right hf]
  · change (target.toNat :: frame.functionIndex :: below.map CallFrame.functionIndex).Nodup
    rw [← hactive]
    exact List.nodup_cons.mpr ⟨hfresh, h.nodup⟩
  · change (target.toNat :: frame.functionIndex :: below.map CallFrame.functionIndex).IsChain _
    have := h.links
    rw [hactive] at this
    exact List.isChain_cons_cons.mpr ⟨hedge, this⟩
  · have hexplored := h.explored
    rw [hstack] at hexplored
    have hkeep (f : Nat) (hf : search.stateOf f = .visited) :
        (search.states.set target.toNat .visiting).getD f .unvisited = .visited := by
      rw [hstate, if_neg]
      · exact hf
      · rintro rfl
        rw [hunvisited] at hf
        cases hf
    refine ⟨fun t hmem => (nomatch hmem), fun t hmem => ?_, hexplored.2.mono fun f hf => ?_⟩
    · rw [List.take_add_one, hcall, List.mem_append] at hmem
      rcases hmem with hmem | hmem
      · exact .inl (hkeep _ ((hexplored.1 t hmem).resolve_right (List.not_mem_nil)))
      · rw [List.mem_singleton.mp hmem]
        exact .inr List.mem_cons_self
    · rcases hf with hf | hf
      · exact .inl (hkeep f hf)
      · rw [List.mem_singleton.mp hf]
        exact .inr List.mem_cons_self
  · have hf : (search.states.set target.toNat .visiting).getD f .unvisited = .visited := hf
    rw [hstate] at hf
    split at hf
    · cases hf
    · exact h.finished f hf

/-- The callees of a frame that has gone through all its calls are finished. -/
theorem Searching.callees_visited (h : Searching graph search) (hstack : search.stack = frame :: below)
    (hdone : (callsOf graph frame.functionIndex)[frame.nextCall]? = none) :
    ∀ target ∈ callsOf graph frame.functionIndex, search.stateOf target.toNat = .visited := by
  intro target hmem
  have hexplored := h.explored
  rw [hstack] at hexplored
  rw [← List.take_of_length_le (List.getElem?_eq_none_iff.mp hdone)] at hmem
  exact (hexplored.1 target hmem).resolve_right List.not_mem_nil

/-- A round that finishes the top frame's function. -/
theorem Searching.pop (h : Searching graph search) (hstack : search.stack = frame :: below)
    {depth : UInt32} (hle : depth.toNat ≤ 64)
    (hlongest : LongestPath (DirectCall graph) frame.functionIndex depth.toNat) :
    Searching graph {
      states := search.states.set frame.functionIndex .visited
      depths := search.depths.set frame.functionIndex depth
      stack := below } := by
  have hactive : search.active = frame.functionIndex :: below.map CallFrame.functionIndex := by
    rw [CallSearch.active, hstack, List.map_cons]
  have hvisiting : search.stateOf frame.functionIndex = .visiting := by
    rw [h.visiting_iff, hactive]
    exact List.mem_cons_self
  have hrange : frame.functionIndex < graph.length := h.lt_length (by rw [hvisiting]; exact fun h => (nomatch h))
  have hnodup := h.nodup
  rw [hactive, List.nodup_cons] at hnodup
  have hstate (f : Nat) : (search.states.set frame.functionIndex .visited).getD f .unvisited =
      if f = frame.functionIndex then .visited else search.stateOf f := getD_set (by rw [h.length_states]; exact hrange)
  have hdepth (f : Nat) : (search.depths.set frame.functionIndex depth).getD f 0 =
      if f = frame.functionIndex then depth else search.depthOf f := getD_set (by rw [h.length_depths]; exact hrange)
  refine ⟨by rw [List.length_set]; exact h.length_states, by rw [List.length_set]; exact h.length_depths,
    fun f => ?_, hnodup.2, ?_, ?_, fun f hf => ?_⟩
  · change (search.states.set frame.functionIndex .visited).getD f .unvisited = _ ↔
      f ∈ below.map CallFrame.functionIndex
    rw [hstate]
    by_cases hf : f = frame.functionIndex
    · rw [if_pos hf, hf]
      exact ⟨fun h => (nomatch h), fun hmem => absurd hmem hnodup.1⟩
    · rw [if_neg hf, h.visiting_iff, hactive, List.mem_cons, or_iff_right hf]
  · have := h.links
    rw [hactive] at this
    exact this.tail
  · have hexplored := h.explored
    rw [hstack] at hexplored
    refine hexplored.2.mono fun f hf => .inl ?_
    change (search.states.set frame.functionIndex .visited).getD f .unvisited = _
    rw [hstate]
    split
    · rfl
    · next hne => exact hf.resolve_right fun hmem => hne (List.mem_singleton.mp hmem)
  · have hf : (search.states.set frame.functionIndex .visited).getD f .unvisited = .visited := hf
    change LongestPath _ f ((search.depths.set frame.functionIndex depth).getD f 0).toNat ∧
      ((search.depths.set frame.functionIndex depth).getD f 0).toNat ≤ 64
    rw [hdepth]
    rw [hstate] at hf
    by_cases heq : f = frame.functionIndex
    · rw [if_pos heq, heq]
      exact ⟨hlongest, hle⟩
    · rw [if_neg heq] at hf ⊢
      exact h.finished f hf

/-! ### Rounds and runs -/

/-- No function loses its colour. -/
def CallSearch.Grows (search next : CallSearch) : Prop :=
  ∀ f, search.stateOf f ≠ .unvisited → next.stateOf f ≠ .unvisited

/-- What a failed search has found: a cycle of calls, or a path of calls that is too long. -/
inductive Violation (graph : List (List UInt32)) : GoError → Prop
  | recursion {f : Nat} (cycle : TransGen (DirectCall graph) f f) : Violation graph recursionError
  | depth {path : List Nat} (chain : path.IsChain (DirectCall graph)) (long : 64 < path.length) :
    Violation graph callDepthError

/-- What a part of the search leads to: a state of the search that satisfies `P`, or a violation. -/
def Leads (graph : List (List UInt32)) (outcome : Result CallSearch) (P : CallSearch → Prop) : Prop :=
  match outcome with
  | .ok next => P next
  | .error err => Violation graph err

theorem work_eq_of_stack (hstack : search.stack = frame :: below) : search.work graph =
    (∑ f ∈ search.pending graph, ((callsOf graph f).length + 1)) +
      ((callsOf graph frame.functionIndex).length - frame.nextCall + 1 +
        (below.map fun frame => (callsOf graph frame.functionIndex).length - frame.nextCall + 1).sum) := by
  rw [CallSearch.work, hstack, List.map_cons, List.sum_cons]

theorem Searching.descend (h : Searching graph search) (hstack : search.stack = frame :: below) {target : UInt32}
    (hcall : (callsOf graph frame.functionIndex)[frame.nextCall]? = some target)
    (hrange : target.toNat < graph.length) :
    Leads graph (search.descend frame below target.toNat) fun next =>
      Searching graph next ∧ next.work graph + 1 = search.work graph ∧ search.Grows next := by
  have hnext : frame.nextCall < (callsOf graph frame.functionIndex).length :=
    (List.getElem?_eq_some_iff.mp hcall).1
  have hwork : search.work graph = _ := work_eq_of_stack hstack
  unfold CallSearch.descend
  cases hstate : search.stateOf target.toNat with
  | visiting =>
    -- the callee is on the stack, from where the calls lead to the frame that calls it
    rw [show search.states.getD target.toNat .unvisited = .visiting from hstate]
    have hmem := (h.visiting_iff _).mp hstate
    have hlinks := h.links
    rw [CallSearch.active, hstack] at hmem hlinks
    exact .recursion (.tail' (reflTransGen_head hlinks hmem) ⟨target, List.mem_of_getElem? hcall, rfl⟩)
  | visited =>
    rw [show search.states.getD target.toNat .unvisited = .visited from hstate]
    refine ⟨h.skip hstack hcall hstate, ?_, fun f hf => hf⟩
    have hsame : CallSearch.pending graph { search with
      stack := { frame with nextCall := frame.nextCall + 1 } :: below } = search.pending graph := rfl
    rw [work_eq_of_stack rfl, hwork, hsame]
    dsimp only
    omega
  | unvisited =>
    rw [show search.states.getD target.toNat .unvisited = .unvisited from hstate]
    have hset (f : Nat) : (search.states.set target.toNat .visiting).getD f .unvisited =
        if f = target.toNat then .visiting else search.stateOf f :=
      getD_set (by rw [h.length_states]; exact hrange)
    refine ⟨h.push hstack hcall hrange hstate, ?_, fun f hf => ?_⟩
    · have herase : CallSearch.pending graph { search with
          states := search.states.set target.toNat .visiting
          stack := { functionIndex := target.toNat } :: { frame with nextCall := frame.nextCall + 1 } :: below } =
          (search.pending graph).erase target.toNat := by
        ext f
        rw [Finset.mem_erase, CallSearch.mem_pending, CallSearch.mem_pending, CallSearch.stateOf, hset]
        by_cases hf : f = target.toNat
        · simp [hf]
        · simp [hf]
      have hsum := Finset.sum_erase_add _ (fun f => (callsOf graph f).length + 1)
        (CallSearch.mem_pending.mpr ⟨hrange, hstate⟩)
      rw [work_eq_of_stack rfl, hwork, herase, List.map_cons, List.sum_cons]
      dsimp only at hsum ⊢
      omega
    · change (search.states.set target.toNat .visiting).getD f .unvisited ≠ .unvisited
      rw [hset]
      split
      · exact fun h => (nomatch h)
      · exact hf

theorem Searching.finish (h : Searching graph search) (hstack : search.stack = frame :: below)
    (hdone : (callsOf graph frame.functionIndex)[frame.nextCall]? = none) :
    Leads graph (search.finish frame below (callsOf graph frame.functionIndex)) fun next =>
      Searching graph next ∧ next.work graph + 1 = search.work graph ∧ search.Grows next := by
  have hvisited := h.callees_visited hstack hdone
  have hvisiting : search.stateOf frame.functionIndex = .visiting := by
    rw [h.visiting_iff, CallSearch.active, hstack]
    exact List.mem_cons_self
  have hrange : frame.functionIndex < graph.length := h.lt_length (by rw [hvisiting]; exact fun h => (nomatch h))
  have hset (f : Nat) : (search.states.set frame.functionIndex .visited).getD f .unvisited =
      if f = frame.functionIndex then .visited else search.stateOf f :=
    getD_set (by rw [h.length_states]; exact hrange)
  unfold CallSearch.finish
  rcases callDepth_outcome search.depths (callsOf graph frame.functionIndex) with
    ⟨depth, hdepth, hpos, hle, hall, hat⟩ | ⟨herr, target, hmem, hdeep⟩
  · rw [hdepth]
    have hlongest : LongestPath (DirectCall graph) frame.functionIndex depth.toNat := by
      refine .of_successors hpos ?_ ?_
      · rintro _ ⟨target, hmem, rfl⟩
        exact ⟨_, (h.finished _ (hvisited target hmem)).1, hall target hmem⟩
      · rcases hat with hat | ⟨target, hmem, hat⟩
        · exact .inl hat
        · exact .inr ⟨target.toNat, _, ⟨target, hmem, rfl⟩, (h.finished _ (hvisited target hmem)).1, hat⟩
    refine ⟨h.pop hstack hle hlongest, ?_, fun f hf => ?_⟩
    · have hsame : CallSearch.pending graph {
          states := search.states.set frame.functionIndex .visited
          depths := search.depths.set frame.functionIndex depth
          stack := below } = search.pending graph := by
        ext f
        rw [CallSearch.mem_pending, CallSearch.mem_pending, CallSearch.stateOf, hset]
        by_cases hf : f = frame.functionIndex
        · simp [hf, hvisiting]
        · simp [hf]
      have hlength := List.getElem?_eq_none_iff.mp hdone
      rw [work_eq_of_stack hstack, CallSearch.work, hsame]
      dsimp only
      omega
    · change (search.states.set frame.functionIndex .visited).getD f .unvisited ≠ .unvisited
      rw [hset]
      split
      · exact fun h => (nomatch h)
      · exact hf
  · rw [herr]
    -- the longest path from the callee, with this function in front of it
    obtain ⟨rest, hchain, hlength⟩ := (h.finished _ (hvisited target hmem)).1.attained
    refine @Violation.depth graph (frame.functionIndex :: target.toNat :: rest)
      (List.isChain_cons_cons.mpr ⟨⟨target, hmem, rfl⟩, hchain⟩) ?_
    have hdeep : 64 ≤ (search.depthOf target.toNat).toNat := hdeep
    simp only [List.length_cons]
    omega

theorem Leads.bind {outcome : Result CallSearch} {P Q : CallSearch → Prop} {continue_ : CallSearch → Result CallSearch}
    (h : Leads graph outcome Q) (hcontinue : ∀ next, Q next → Leads graph (continue_ next) P) :
    Leads graph (outcome >>= continue_) P := by
  cases outcome with
  | ok next => exact hcontinue next h
  | error err => exact h

theorem Leads.imp {outcome : Result CallSearch} {P Q : CallSearch → Prop} (h : Leads graph outcome P)
    (himp : ∀ next, P next → Q next) : Leads graph outcome Q := by
  cases outcome with
  | ok next => exact himp next h
  | error err => exact h

theorem run_nil (rounds : Nat) (hstack : search.stack = []) : CallSearch.run graph rounds search = .ok search := by
  unfold CallSearch.run
  rw [hstack]

theorem run_cons (rounds : Nat) (hstack : search.stack = frame :: below) :
    CallSearch.run graph (rounds + 1) search =
      (match (callsOf graph frame.functionIndex)[frame.nextCall]? with
        | some target => search.descend frame below target.toNat
        | none => search.finish frame below (callsOf graph frame.functionIndex)) >>= CallSearch.run graph rounds := by
  rw [CallSearch.run.eq_def]
  simp only [hstack]
  rfl

/-- With a round for all its work, a search empties its stack or finds a violation. -/
theorem Searching.run (hrange : ∀ f, ∀ target ∈ callsOf graph f, target.toNat < graph.length) (rounds : Nat) :
    ∀ search, Searching graph search → search.work graph ≤ rounds →
      Leads graph (CallSearch.run graph rounds search) fun final =>
        Searching graph final ∧ final.stack = [] ∧ search.Grows final := by
  induction rounds with
  | zero =>
    intro search h hwork
    cases hstack : search.stack with
    | nil =>
      rw [run_nil _ hstack]
      exact ⟨h, hstack, fun f hf => hf⟩
    | cons frame below =>
      rw [work_eq_of_stack hstack] at hwork
      omega
  | succ rounds ih =>
    intro search h hwork
    cases hstack : search.stack with
    | nil =>
      rw [run_nil _ hstack]
      exact ⟨h, hstack, fun f hf => hf⟩
    | cons frame below =>
      have hrest (next : CallSearch)
          (hnext : Searching graph next ∧ next.work graph + 1 = search.work graph ∧ search.Grows next) :
          Leads graph (CallSearch.run graph rounds next) fun final =>
            Searching graph final ∧ final.stack = [] ∧ search.Grows final := by
        obtain ⟨hsearching, hless, hgrows⟩ := hnext
        exact (ih next hsearching (by omega)).imp fun final hfinal =>
          ⟨hfinal.1, hfinal.2.1, fun f hf => hfinal.2.2 f (hgrows f hf)⟩
      rw [run_cons _ hstack]
      refine Leads.bind ?_ hrest
      cases hcall : (callsOf graph frame.functionIndex)[frame.nextCall]? with
      | some target => exact h.descend hstack hcall (hrange _ target (List.mem_of_getElem? hcall))
      | none => exact h.finish hstack hcall

end Rounds

/-! ### The whole search -/

section Search

variable {graph : List (List UInt32)}

theorem sum_length_callsOf (graph : List (List UInt32)) :
    ∑ f ∈ Finset.range graph.length, ((callsOf graph f).length + 1) = graph.flatten.length + graph.length := by
  induction graph with
  | nil => rfl
  | cons calls rest ih =>
    rw [List.length_cons, Finset.sum_range_succ', List.flatten_cons, List.length_append]
    have htail (f : Nat) : callsOf (calls :: rest) (f + 1) = callsOf rest f := rfl
    have hhead : callsOf (calls :: rest) 0 = calls := rfl
    simp only [htail, hhead, ih]
    omega

/-- Between two roots nothing is on the stack. -/
structure Idle (graph : List (List UInt32)) (search : CallSearch) : Prop where
  searching : Searching graph search
  stack : search.stack = []

theorem Idle.visited (h : Idle graph search) {f : Nat} (hf : search.stateOf f ≠ .unvisited) :
    search.stateOf f = .visited := by
  cases hstate : search.stateOf f with
  | unvisited => exact absurd hstate hf
  | visited => rfl
  | visiting =>
    have hmem := (h.searching.visiting_iff f).mp hstate
    rw [CallSearch.active, h.stack] at hmem
    exact (nomatch hmem)

theorem Idle.visit (hrange : ∀ f, ∀ target ∈ callsOf graph f, target.toNat < graph.length) {search : CallSearch}
    (h : Idle graph search) {root : Nat} (hroot : root < graph.length) :
    Leads graph (CallSearch.visit graph search root) fun final =>
      Idle graph final ∧ search.Grows final ∧ final.stateOf root ≠ .unvisited := by
  unfold CallSearch.visit
  by_cases hvisited : search.stateOf root = .visited
  · rw [if_pos (show search.states.getD root .unvisited = .visited from hvisited)]
    exact ⟨h, fun f hf => hf, by rw [hvisited]; exact fun h => (nomatch h)⟩
  · rw [if_neg (show ¬search.states.getD root .unvisited = .visited from hvisited)]
    have hunvisited : search.stateOf root = .unvisited := by
      by_contra hne
      exact hvisited (h.visited hne)
    have hset (f : Nat) : (search.states.set root .visiting).getD f .unvisited =
        if f = root then .visiting else search.stateOf f :=
      getD_set (by rw [h.searching.length_states]; exact hroot)
    have hactive : search.active = [] := by rw [CallSearch.active, h.stack, List.map_nil]
    set start : CallSearch := { search with
      states := search.states.set root .visiting
      stack := [{ functionIndex := root }] } with hstart
    have hstate (f : Nat) : start.stateOf f = if f = root then .visiting else search.stateOf f := hset f
    have hsearching : Searching graph start := by
      refine ⟨by rw [hstart, List.length_set]; exact h.searching.length_states, h.searching.length_depths, fun f => ?_,
        List.nodup_singleton root, .singleton root, ⟨fun t hmem => (nomatch hmem), trivial⟩, fun f hf => ?_⟩
      · change _ ↔ f ∈ [root]
        rw [hstate, List.mem_singleton]
        split
        · next heq => exact ⟨fun _ => heq, fun _ => rfl⟩
        · next hne =>
          rw [h.searching.visiting_iff, hactive]
          exact ⟨fun hmem => (nomatch hmem), fun heq => absurd heq hne⟩
      · rw [hstate] at hf
        split at hf
        · cases hf
        · exact h.searching.finished f hf
    have hgrows : search.Grows start := by
      intro f hf
      rw [hstate]
      split
      · exact fun h => (nomatch h)
      · exact hf
    have hwork : start.work graph ≤ graph.flatten.length + graph.length := by
      have hpending : start.pending graph = (search.pending graph).erase root := by
        ext f
        rw [Finset.mem_erase, CallSearch.mem_pending, CallSearch.mem_pending, hstate]
        by_cases hf : f = root
        · simp [hf]
        · simp [hf]
      have hsum := Finset.sum_erase_add _ (fun f => (callsOf graph f).length + 1)
        (CallSearch.mem_pending.mpr ⟨hroot, hunvisited⟩)
      have htotal : ∑ f ∈ search.pending graph, ((callsOf graph f).length + 1) ≤
          graph.flatten.length + graph.length := by
        rw [← sum_length_callsOf]
        exact Finset.sum_le_sum_of_subset (Finset.filter_subset _ _)
      rw [work_eq_of_stack rfl, hpending, List.map_nil, List.sum_nil]
      dsimp only at hsum ⊢
      omega
    refine (hsearching.run hrange _ _ hwork).imp fun final hfinal => ⟨⟨hfinal.1, hfinal.2.1⟩, ?_, ?_⟩
    · exact fun f hf => hfinal.2.2 f (hgrows f hf)
    · refine hfinal.2.2 root ?_
      rw [hstate, if_pos rfl]
      exact fun h => (nomatch h)

theorem Idle.roots (hrange : ∀ f, ∀ target ∈ callsOf graph f, target.toNat < graph.length) (roots : List Nat)
    (hroots : ∀ root ∈ roots, root < graph.length) :
    ∀ search, Idle graph search → Leads graph (roots.foldlM (CallSearch.visit graph) search) fun final =>
      Idle graph final ∧ search.Grows final ∧ ∀ root ∈ roots, final.stateOf root ≠ .unvisited := by
  induction roots with
  | nil => exact fun search h => ⟨h, fun f hf => hf, fun _ hmem => (nomatch hmem)⟩
  | cons root rest ih =>
    intro search h
    obtain ⟨hroot, hrest⟩ := List.forall_mem_cons.mp hroots
    rw [List.foldlM_cons]
    refine (h.visit hrange hroot).bind fun next hnext => (ih hrest next hnext.1).imp fun final hfinal => ⟨hfinal.1, ?_, ?_⟩
    · exact fun f hf => hfinal.2.1 f (hnext.2.1 f hf)
    · rw [List.forall_mem_cons]
      exact ⟨hfinal.2.1 root hnext.2.2, hfinal.2.2⟩

/-- The state in which the search starts. -/
def CallSearch.initial (graph : List (List UInt32)) : CallSearch where
  states := List.replicate graph.length .unvisited
  depths := List.replicate graph.length 0

theorem idle_initial (graph : List (List UInt32)) : Idle graph (.initial graph) := by
  have hstate (f : Nat) : (CallSearch.initial graph).stateOf f = .unvisited := by
    rw [CallSearch.stateOf, CallSearch.initial, List.getD_eq_getElem?_getD, List.getElem?_replicate]
    split
    · rfl
    · rfl
  refine ⟨⟨List.length_replicate, List.length_replicate, fun f => ?_, List.nodup_nil, .nil, trivial, fun f hf => ?_⟩, rfl⟩
  · rw [hstate]
    exact ⟨fun h => (nomatch h), fun h => (nomatch h)⟩
  · rw [hstate] at hf
    cases hf

/-- What the search decides: no cycle of calls, and no path of calls over more than 64 functions. -/
theorem search_outcome (hrange : ∀ f, ∀ target ∈ callsOf graph f, target.toNat < graph.length) :
    match (List.range graph.length).foldlM (CallSearch.visit graph) (.initial graph) with
    | .ok _ => (∀ f, ¬TransGen (DirectCall graph) f f) ∧
        ∀ path : List Nat, path.IsChain (DirectCall graph) → path.length ≤ 64
    | .error err => Violation graph err := by
  have hroots := Idle.roots hrange (List.range graph.length) (fun root hmem => List.mem_range.mp hmem) _
    (idle_initial graph)
  cases houtcome : (List.range graph.length).foldlM (CallSearch.visit graph) (.initial graph) with
  | error err =>
    rw [houtcome] at hroots
    exact hroots
  | ok final =>
    rw [houtcome] at hroots
    obtain ⟨hidle, _, hall⟩ := hroots
    have hlongest (f : Nat) (hf : f < graph.length) := hidle.searching.finished f
      (hidle.visited (hall f (List.mem_range.mpr hf)))
    have hinside {f g : Nat} (hcall : DirectCall graph f g) : f < graph.length := by
      by_contra hge
      obtain ⟨target, hmem, _⟩ := hcall
      rw [callsOf, List.getD_eq_default _ _ (by omega)] at hmem
      exact (nomatch hmem)
    refine ⟨fun f hcycle => ?_, fun path hchain => ?_⟩
    · obtain ⟨g, hcall, _⟩ := TransGen.head'_iff.mp hcycle
      exact (hlongest f (hinside hcall)).1.no_cycle hcycle
    · match path, hchain with
      | [], _ => exact Nat.zero_le _
      | [f], _ => exact Nat.le_of_ble_eq_true rfl
      | f :: g :: rest, hchain =>
        obtain ⟨hpath, hle⟩ := hlongest f (hinside (List.isChain_cons_cons.mp hchain).1)
        exact (hpath.bound (g :: rest) hchain).trans hle

end Search

/-! ### The policy -/

/-- The error of a call to a function that does not exist. -/
def boundsError (target : UInt32) : GoError :=
  newError ("wasm direct call target " ++ itoa target.toNat ++ " is out of bounds")

theorem boundsError_ne (target : UInt32) : boundsError target ≠ unfinishedError := by
  intro h
  have htext := congrArg (fun err => err.text.toList.take 18) h
  simp only [boundsError, unfinishedError, newError, String.append_assoc, String.toList_append] at htext
  exact absurd htext (by
    rw [List.take_append_of_le_length (by decide)]
    decide)

/-- The calls of one function of the module, when they parse. -/
theorem definedCalls_outcome (total : Nat) (calls : List UInt32) :
    (∀ target ∈ calls, target.toNat < total) ∧
      (calls.forM fun target => refuseIf (target.toNat ≥ total) (boundsError target)) = .ok () ∨
    ∃ target ∈ calls, ¬target.toNat < total ∧
      (calls.forM fun target => refuseIf (target.toNat ≥ total) (boundsError target)) =
        .error (boundsError target) := by
  induction calls with
  | nil => exact .inl ⟨fun _ h => (nomatch h), rfl⟩
  | cons target rest ih =>
    have hcons (check : UInt32 → Result Unit) :
        (target :: rest).forM check = check target >>= fun _ => rest.forM check := rfl
    rw [hcons]
    by_cases hlt : target.toNat < total
    · rw [refuseIf_ok (u := ()) |>.mpr (not_le.mpr hlt)]
      rcases ih with ⟨hall, hok⟩ | ⟨found, hmem, hfound, herr⟩
      · exact .inl ⟨List.forall_mem_cons.mpr ⟨hlt, hall⟩, hok⟩
      · exact .inr ⟨found, List.mem_cons_of_mem _ hmem, hfound, herr⟩
    · refine .inr ⟨target, List.mem_cons_self, hlt, ?_⟩
      rw [refuseIf_err.mpr ⟨not_lt.mp hlt, rfl⟩]
      rfl

section Policy

variable (policy : WasmBinaryPolicy) {calls : List (List UInt32)}

/-- The call graph of a module whose bodies make these calls: imports come first and call nothing. -/
def callGraph (importCount : Nat) (calls : List (List UInt32)) : List (List UInt32) :=
  List.replicate importCount [] ++ calls

theorem forall_callsOf_callGraph {importCount : Nat} {P : UInt32 → Prop} :
    (∀ f, ∀ target ∈ callsOf (callGraph importCount calls) f, P target) ↔ ∀ list ∈ calls, ∀ target ∈ list, P target := by
  constructor
  · intro h list hmem
    obtain ⟨i, hi, rfl⟩ := List.getElem_of_mem hmem
    have := h (importCount + i)
    rw [callsOf, callGraph, List.getD_append_right _ _ _ _ (by simp), List.length_replicate, Nat.add_sub_cancel_left,
      List.getD_eq_getElem _ _ hi] at this
    exact this
  · intro h f target hmem
    rw [callsOf, List.getD_eq_getElem?_getD] at hmem
    cases hf : (callGraph importCount calls)[f]? with
    | none =>
      rw [hf] at hmem
      exact (nomatch hmem)
    | some list =>
      rw [hf] at hmem
      rcases List.mem_append.mp (List.mem_of_getElem? hf) with himport | hdefined
      · rw [List.eq_of_mem_replicate himport] at hmem
        exact (nomatch hmem)
      · exact h list hdefined target hmem

/-- The bodies of the module, gone through from index `k` on. -/
theorem mapM_bodies (total : Nat) (bodies : List (List UInt8)) (k : Nat) (calls : List (List UInt32))
    (hbodies : bodies.map parseWasmDirectCalls = calls.map .ok) :
    let body : List UInt8 × Nat → Result (List UInt32) := fun entry => do
      let calls ← (parseWasmDirectCalls entry.1).mapError
        (GoError.annotate ("wasm function " ++ itoa entry.2 ++ ": "))
      calls.forM fun target => refuseIf (target.toNat ≥ total) (boundsError target)
      return calls
    (∀ list ∈ calls, ∀ target ∈ list, target.toNat < total) ∧ (bodies.zipIdx k).mapM body = .ok calls ∨
    (¬∀ list ∈ calls, ∀ target ∈ list, target.toNat < total) ∧
      ∃ target, (bodies.zipIdx k).mapM body = .error (boundsError target) := by
  intro body
  induction bodies generalizing k calls with
  | nil =>
    obtain rfl : calls = [] := by simpa using hbodies.symm
    exact .inl ⟨fun _ h => (nomatch h), rfl⟩
  | cons bytes rest ih =>
    cases calls with
    | nil => cases hbodies
    | cons list lists =>
      obtain ⟨hparse, hrest⟩ := List.cons.inj hbodies
      rw [List.zipIdx_cons, List.mapM_cons, List.forall_mem_cons]
      have hbody : body (bytes, k) = (list.forM fun target =>
          refuseIf (target.toNat ≥ total) (boundsError target)) >>= fun _ => .ok list := by
        simp only [body, hparse]
        rfl
      rcases definedCalls_outcome total list with ⟨hall, hok⟩ | ⟨target, hmem, hout, herr⟩
      · rw [hbody, hok]
        rcases ih (k + 1) lists hrest with ⟨hlists, hmap⟩ | ⟨hlists, target, hmap⟩
        · exact .inl ⟨⟨hall, hlists⟩, by rw [hmap]; rfl⟩
        · exact .inr ⟨fun h => hlists h.2, target, by rw [hmap]; rfl⟩
      · exact .inr ⟨fun h => hout (h.1 target hmem), target, by rw [hbody, herr]; rfl⟩

/-- The graph is built exactly when every call's target exists. -/
theorem directCallGraph_outcome (hbodies : policy.codeBodies.map parseWasmDirectCalls = calls.map .ok)
    (hcount : policy.functionCount.toNat = calls.length) :
    let total := policy.importedFunctionTypes.length + calls.length
    (∀ list ∈ calls, ∀ target ∈ list, target.toNat < total) ∧
      policy.directCallGraph = .ok (callGraph policy.importedFunctionTypes.length calls) ∨
    (¬∀ list ∈ calls, ∀ target ∈ list, target.toNat < total) ∧
      ∃ target, policy.directCallGraph = .error (boundsError target) := by
  intro total
  have hlength : policy.codeBodies.length = policy.functionCount.toNat := by
    have := congrArg List.length hbodies
    rwa [List.length_map, List.length_map, ← hcount] at this
  unfold WasmBinaryPolicy.directCallGraph
  rw [refuseIf_ok (u := ()) |>.mpr (not_not.mpr hlength), hcount]
  rcases mapM_bodies total policy.codeBodies 0 calls hbodies with ⟨hall, hmap⟩ | ⟨hnot, target, hmap⟩
  · refine .inl ⟨hall, ?_⟩
    exact congrArg (fun outcome : Result (List (List UInt32)) => outcome >>= fun defined =>
      .ok (List.replicate policy.importedFunctionTypes.length [] ++ defined)) hmap
  · refine .inr ⟨hnot, target, ?_⟩
    exact congrArg (fun outcome : Result (List (List UInt32)) => outcome >>= fun defined =>
      .ok (List.replicate policy.importedFunctionTypes.length [] ++ defined)) hmap

/-- The call-depth policy is exact: a module whose bodies make the given calls passes exactly when every
target exists, the calls are acyclic, and every path of calls visits at most 64 functions, imports
included; and the search never runs out of rounds. -/
theorem validateDirectCallGraph_exact (hbodies : policy.codeBodies.map parseWasmDirectCalls = calls.map .ok)
    (hcount : policy.functionCount.toNat = calls.length) :
    let graph := callGraph policy.importedFunctionTypes.length calls
    (policy.validateDirectCallGraph = .ok () ↔
      (∀ list ∈ calls, ∀ target ∈ list, target.toNat < policy.importedFunctionTypes.length + calls.length) ∧
      (∀ f, ¬TransGen (DirectCall graph) f f) ∧
      ∀ path : List Nat, path.IsChain (DirectCall graph) → path.length ≤ maxWASMCallDepth.toNat) ∧
    policy.validateDirectCallGraph ≠ .error unfinishedError := by
  intro graph
  have hlength : graph.length = policy.importedFunctionTypes.length + calls.length := by
    rw [show graph = callGraph _ _ from rfl, callGraph, List.length_append, List.length_replicate]
  unfold WasmBinaryPolicy.validateDirectCallGraph
  rcases directCallGraph_outcome policy hbodies hcount with ⟨hall, hgraph⟩ | ⟨hnot, target, hgraph⟩
  · have hsearch := @search_outcome graph (by rw [hlength]; exact forall_callsOf_callGraph.mpr hall)
    have hrun : (policy.directCallGraph >>= fun graph => do
        let _ ← (List.range graph.length).foldlM (CallSearch.visit graph) (.initial graph)
        return ()) = (List.range graph.length).foldlM (CallSearch.visit graph) (.initial graph) >>= fun _ => .ok () := by
      rw [hgraph]
      rfl
    change ((policy.directCallGraph >>= fun graph => do
        let _ ← (List.range graph.length).foldlM (CallSearch.visit graph) (.initial graph)
        return ()) = .ok () ↔ _) ∧ (policy.directCallGraph >>= fun graph => do
        let _ ← (List.range graph.length).foldlM (CallSearch.visit graph) (.initial graph)
        return ()) ≠ _
    rw [hrun]
    cases houtcome : (List.range graph.length).foldlM (CallSearch.visit graph) (.initial graph) with
    | ok final =>
      rw [houtcome] at hsearch
      exact ⟨⟨fun _ => ⟨hall, hsearch.1, hsearch.2⟩, fun _ => rfl⟩, fun h => (nomatch h)⟩
    | error err =>
      rw [houtcome] at hsearch
      refine ⟨⟨fun h => (nomatch h), fun h => ?_⟩, fun h => ?_⟩
      · cases hsearch with
        | recursion cycle => exact absurd cycle (h.2.1 _)
        | depth chain long =>
          have := h.2.2 _ chain
          exact absurd long (not_lt.mpr this)
      · have herr : err = unfinishedError := Except.error.inj h
        cases hsearch with
        | recursion cycle => exact absurd herr (by decide)
        | depth chain long => exact absurd herr (by decide)
  · rw [hgraph]
    exact ⟨⟨fun h => (nomatch h), fun h => absurd h.1 hnot⟩, fun h => boundsError_ne target (Except.error.inj h)⟩

/-- One import and two functions: the first calls the second, which calls the import. -/
theorem validateDirectCallGraph_chain :
    let policy : WasmBinaryPolicy := {
      importedFunctionTypes := [0], functionCount := 2, codeBodies := [[0x10, 2, 0x0b], [0x10, 0, 0x0b]] }
    policy.validateDirectCallGraph = .ok () ∧
      ∀ path : List Nat, path.IsChain (DirectCall (callGraph 1 [[2], [0]])) → path.length ≤ 64 := by
  intro policy
  have hexact := @validateDirectCallGraph_exact policy [[2], [0]] (by decide) rfl
  have hok : policy.validateDirectCallGraph = .ok () := by decide
  exact ⟨hok, (hexact.1.mp hok).2.2⟩

end Policy

end ChainLab.Contracts
