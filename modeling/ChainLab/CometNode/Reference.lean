import ChainLab.CometNode.PrivValidator

/-! CometBFT's part of signing, written after its documentation: the laws that signing relies on can be met.
The wire format is not protobuf; it writes every message as fields of numbers. -/

namespace ChainLab.CometNode

open ChainLab.Lib ChainLab.Types

/-! ### A format for messages -/

/-- Fields of numbers as bytes: a number is written in unary and ended by a zero, a field is ended by a two. -/
def writeFields (fields : List (List Nat)) : List UInt8 :=
  fields.flatMap fun field => field.flatMap (fun n => List.replicate n 1 ++ [0]) ++ [2]

/-- The reader, within a number of a field. -/
def readFields (n : Nat) (field : List Nat) : List UInt8 → List (List Nat)
  | [] => []
  | b :: rest =>
    if b = 1 then readFields (n + 1) field rest
    else if b = 0 then readFields 0 (field ++ [n]) rest
    else field :: readFields 0 [] rest

theorem readFields_number (n k : Nat) (field : List Nat) (rest : List UInt8) :
    readFields k field (List.replicate n 1 ++ 0 :: rest) = readFields 0 (field ++ [k + n]) rest := by
  induction n generalizing k with
  | zero => simp [readFields]
  | succ n ih =>
    rw [List.replicate_succ, List.cons_append, readFields, if_pos rfl, ih, Nat.add_right_comm, Nat.add_assoc]

theorem readFields_field (numbers field : List Nat) (rest : List UInt8) :
    readFields 0 field (numbers.flatMap (fun n => List.replicate n 1 ++ [0]) ++ 2 :: rest) =
      (field ++ numbers) :: readFields 0 [] rest := by
  induction numbers generalizing field with
  | nil => simp [readFields]
  | cons n numbers ih => simp [readFields_number, ih]

theorem readFields_writeFields (fields : List (List Nat)) : readFields 0 [] (writeFields fields) = fields := by
  induction fields with
  | nil => rfl
  | cons field fields ih =>
    have hfirst := readFields_field field [] (writeFields fields)
    rw [ih] at hfirst
    simpa [writeFields] using hfirst

def intField (i : Int) : List Nat := [i.toNat, (-i).toNat]

def ofIntField : List Nat → Int
  | [positive, negative] => positive - negative
  | _ => 0

@[simp] theorem ofIntField_intField (i : Int) : ofIntField (intField i) = i := Int.toNat_sub_toNat_neg i

def blockFields : Option BlockID → List (List Nat)
  | none => []
  | some id => [[id.partSetHeader.total.toNat], id.hash.map UInt8.toNat, id.partSetHeader.hash.map UInt8.toNat]

def ofBlockFields : List (List Nat) → Option BlockID
  | [[total], hash, parts] => some {
      hash := hash.map UInt8.ofNat, partSetHeader := { total := UInt32.ofNat total, hash := parts.map UInt8.ofNat } }
  | _ => none

@[simp] theorem ofBlockFields_blockFields (id : Option BlockID) : ofBlockFields (blockFields id) = id := by
  cases id with
  | none => rfl
  | some id => simp [ofBlockFields, blockFields, Function.comp_def]

/-- A canonical message, with the field that is its own first. -/
def messageFields (own : Int) (height round : Int64) (blockID : Option BlockID) (time : Timestamp) (chainID : String) :
    List (List Nat) :=
  intField own :: intField height.toInt :: intField round.toInt :: intField time.seconds :: [time.nanos] ::
    (runes chainID).map Char.toNat :: blockFields blockID

def ofMessageFields {α : Type} (make : Int → Int64 → Int64 → Option BlockID → Timestamp → String → α) :
    List (List Nat) → Option α
  | own :: height :: round :: seconds :: [nanos] :: chainID :: block =>
    some (make (ofIntField own) (Int64.ofInt (ofIntField height)) (Int64.ofInt (ofIntField round)) (ofBlockFields block)
      { seconds := ofIntField seconds, nanos } (String.ofList (chainID.map Char.ofNat)))
  | _ => none

theorem ofMessageFields_written {α : Type} (make : Int → Int64 → Int64 → Option BlockID → Timestamp → String → α)
    (own : Int) (height round : Int64) (blockID : Option BlockID) (time : Timestamp) (chainID : String) :
    ofMessageFields make (readFields 0 [] (writeFields (messageFields own height round blockID time chainID))) =
      some (make own height round blockID time chainID) := by
  rw [readFields_writeFields]
  simp [ofMessageFields, messageFields, Function.comp_def]

/-- The number of a message type. -/
def SignedMsgType.number : SignedMsgType → Int
  | .unknown => 0
  | .prevote => 1
  | .precommit => 2
  | .proposal => 32

def SignedMsgType.ofNumber (n : Int) : SignedMsgType :=
  if n = 1 then .prevote else if n = 2 then .precommit else if n = 32 then .proposal else .unknown

theorem SignedMsgType.ofNumber_number (type : SignedMsgType) : ofNumber type.number = type := by
  cases type <;> rfl

/-! ### The functions -/

namespace Reference

def checkHRS (last : LastSignState) (height : Int64) (round : Int32) (step : Int8) : Result Bool := do
  refuseIf (last.height > height) (newError "height regression")
  refuseIf (last.height = height ∧ last.round > round) (newError "round regression")
  refuseIf (last.height = height ∧ last.round = round ∧ last.step > step) (newError "step regression")
  if last.height = height ∧ last.round = round ∧ last.step = step then
    refuseIf (last.signBytes = []) (newError "no SignBytes found")
    refuseIf (last.signature = []) (newError "panic: pv: Signature is nil but SignBytes is not!")
    return true
  else return false

def protoBlockIDIsNil (id : BlockID) : Bool :=
  id.hash.isEmpty && id.partSetHeader.total = 0 && id.partSetHeader.hash.isEmpty

def validateHash (hash : List UInt8) : Bool := hash.isEmpty || hash.length = 32

/-- A malformed identifier is a panic. -/
def canonicalizeBlockID (id : BlockID) : Option (Option BlockID) :=
  if validateHash id.hash && validateHash id.partSetHeader.hash then
    some (if protoBlockIDIsNil id then none else some id)
  else none

end Reference

open Reference

@[reducible] def referenceCometBFT : CometBFT where
  checkHRS
  protoBlockIDIsNil
  canonicalizeVote chainID vote := (canonicalizeBlockID vote.blockID).map fun blockID =>
    { type := vote.type, height := vote.height, round := vote.round.toInt64, blockID
      timestamp := vote.timestamp, chainID }
  canonicalizeProposal chainID proposal := (canonicalizeBlockID proposal.blockID).map fun blockID =>
    { height := proposal.height, round := proposal.round.toInt64, polRound := proposal.polRound.toInt64, blockID
      timestamp := proposal.timestamp, chainID }
  marshalVote v := some (writeFields (messageFields v.type.number v.height v.round v.blockID v.timestamp v.chainID))
  unmarshalVote bytes := ofMessageFields (fun type height round blockID timestamp chainID =>
    { type := .ofNumber type, height, round, blockID, timestamp, chainID }) (readFields 0 [] bytes)
  marshalProposal p :=
    some (writeFields (messageFields p.polRound.toInt p.height p.round p.blockID p.timestamp p.chainID))
  unmarshalProposal bytes := ofMessageFields (fun polRound height round blockID timestamp chainID =>
    { polRound := Int64.ofInt polRound, height, round, blockID, timestamp, chainID }) (readFields 0 [] bytes)
  voteExtensionSignBytes chainID vote :=
    writeFields [vote.ext.map UInt8.toNat, intField vote.height.toInt, (runes chainID).map Char.toNat]

theorem checkHRS_ok {last : LastSignState} {height : Int64} {round : Int32} {step : Int8} {same : Bool}
    (h : checkHRS last height round step = .ok same) :
    if same = true then last.height = height ∧ last.round = round ∧ last.step = step ∧ last.signBytes ≠ []
    else last.height < height ∨
      last.height = height ∧ (last.round < round ∨ last.round = round ∧ last.step < step) := by
  simp only [checkHRS, bind_ok, refuseIf_ok, exists_const] at h
  obtain ⟨hheight, hround, hstep, h⟩ := h
  split at h
  · next heq =>
    simp only [bind_ok, refuseIf_ok, exists_const, pure_eq_ok, Except.ok.injEq] at h
    obtain ⟨hbytes, -, rfl⟩ := h
    exact ⟨heq.1, heq.2.1, heq.2.2, hbytes⟩
  · next hne =>
    cases h
    simp only [Bool.false_eq_true, if_false, gt_iff_lt, Int64.lt_iff_toInt_lt, Int32.lt_iff_toInt_lt,
      Int8.lt_iff_toInt_lt, ← Int64.toInt_inj, ← Int32.toInt_inj, ← Int8.toInt_inj] at *
    omega

theorem referenceCometBFT_lawful : @LawfulCometBFT referenceCometBFT :=
  letI := referenceCometBFT
  { checkHRS_same := checkHRS_ok
    checkHRS_later := checkHRS_ok
    canonicalizeVote_timestamp := by
      intro chainID vote canonical t h
      obtain ⟨id, hid, rfl⟩ := Option.map_eq_some_iff.mp h
      exact Option.map_eq_some_iff.mpr ⟨id, hid, rfl⟩
    canonicalizeProposal_timestamp := by
      intro chainID proposal canonical t h
      obtain ⟨id, hid, rfl⟩ := Option.map_eq_some_iff.mp h
      exact Option.map_eq_some_iff.mpr ⟨id, hid, rfl⟩
    canonicalizeVote_signature _ _ := rfl
    canonicalizeProposal_signature _ := rfl
    unmarshalVote_of_marshalVote := by
      rintro vote bytes ⟨⟩
      exact (ofMessageFields_written _ _ _ _ _ _ _).trans (by rw [SignedMsgType.ofNumber_number])
    unmarshalProposal_of_marshalProposal := by
      rintro proposal bytes ⟨⟩
      exact (ofMessageFields_written _ _ _ _ _ _ _).trans (by rw [Int64.ofInt_toInt]) }

end ChainLab.CometNode
