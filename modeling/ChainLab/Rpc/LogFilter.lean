import ChainLab.Lib.Loops
import ChainLab.Types.Schema

/-! The definition of a log filter: what a request may ask for, and the limits on it. -/

namespace ChainLab.Rpc

open ChainLab.Lib ChainLab.Types

/-- A value that `json.Unmarshal` leaves in an `any`; the keys of an object are distinct. -/
inductive JsonValue where
  | null
  | bool (value : Bool)
  | number (text : String)
  | string (value : String)
  | array (items : List JsonValue)
  | object (fields : List (String × JsonValue))

structure BlockTags where
  latest : UInt64
  safe : UInt64
  finalized : UInt64

/-- `strconv.ParseUint(s, 16, 64)` on runes. -/
def parseHexUint (digits : List Char) : Option UInt64 := do
  let values ← digits.mapM hexDigitValue
  let value := values.foldl (fun n digit => 16 * n + digit) 0
  if digits ≠ [] ∧ value < 2 ^ 64 then some (UInt64.ofNat value) else none

/-- `parseBlockNumber`. -/
def parseBlockNumber (tags : BlockTags) : JsonValue → Result UInt64
  | .string "latest" => pure tags.latest
  | .string "safe" => pure tags.safe
  | .string "finalized" => pure tags.finalized
  | .string "earliest" => pure 0
  | .string raw => do
    refuseIf (!hasPrefix raw "0x") (newError "block number must be hex quantity")
    require (parseHexUint (runes (trimPrefix raw "0x"))) (newError "invalid block number")
  | _ => .error (newError "block number must be a string")

/-- `quantity`. -/
def quantity (value : UInt64) : String := String.ofList ('0' :: 'x' :: Nat.toDigits 16 value.toNat)

def maxLogAddresses : Nat := 256
def maxLogTopics : Nat := 4
def maxLogTopicAlternatives : Nat := 256
def maxLogFilterDefinitionBytes : Nat := 64 * 1024
def logFilterDefinitionBaseBytes : Nat := 64
def logFilterSetBaseBytes : Nat := 64
def logFilterSetEntryBytes : Nat := 32
def logFilterTopicCriterionBytes : Nat := 32

structure TopicCriterion where
  any : Bool := false
  allowed : Option (Finset String) := none
  deriving DecidableEq

structure LogFilter where
  fromBlock : UInt64 := 0
  toBlock : UInt64 := 0
  toBlockLatest : Bool := false
  addresses : Option (Finset String) := none
  topics : List TopicCriterion := []
  deriving DecidableEq

/-- The members of a set that may be nil. -/
def members (set : Option (Finset String)) : Finset String := set.getD ∅

/-- `validateCanonicalLogAddress`. -/
def validateCanonicalLogAddress (address : String) : Result Unit := do
  refuseIf (len address ≠ 42 ∨ !hasPrefix address "0x" ∨ address ≠ toLower address)
    (newError "address filter value is not a canonical 20-byte hex address")
  refuseIf (hexDecode ((runes address).drop 2) = none)
    (newError "address filter value is not a canonical 20-byte hex address")

/-- `validateCanonicalLogTopic`. -/
def validateCanonicalLogTopic (topic : String) : Result Unit := validateCanonicalHash "topic filter value" topic

/-- What the filter is charged for a set that it retains. -/
def setBytes (set : Option (Finset String)) : Nat :=
  (if set.isSome then logFilterSetBaseBytes else 0) + ∑ value ∈ members set, (len value + logFilterSetEntryBytes)

def LogFilter.definitionBytes (filter : LogFilter) : Nat :=
  logFilterDefinitionBaseBytes + setBytes filter.addresses +
    (filter.topics.map fun criterion => logFilterTopicCriterionBytes + setBytes criterion.allowed).sum

def tooManyAddresses : GoError := newError ("address filter exceeds " ++ itoa maxLogAddresses ++ " values")
def tooManyTopics : GoError := newError ("topics filter exceeds " ++ itoa maxLogTopics ++ " positions")
def tooManyAlternatives : GoError :=
  newError ("topic filter position exceeds " ++ itoa maxLogTopicAlternatives ++ " alternatives")

/-- `validateLogFilterDefinition`; all values of a set fail with the same text. -/
def validateLogFilterDefinition (filter : LogFilter) : Result Unit := do
  refuseIf ((members filter.addresses).card > maxLogAddresses) tooManyAddresses
  refuseIf (filter.topics.length > maxLogTopics) tooManyTopics
  refuseIf (∃ address ∈ members filter.addresses, (validateCanonicalLogAddress address).isOk = false)
    (newError "address filter value is not a canonical 20-byte hex address")
  filter.topics.forM fun criterion => do
    refuseIf ((members criterion.allowed).card > maxLogTopicAlternatives) tooManyAlternatives
    refuseIf (∃ topic ∈ members criterion.allowed, (validateCanonicalLogTopic topic).isOk = false)
      (newError "topic filter value is not a canonical 32-byte hash")
  refuseIf (filter.definitionBytes > maxLogFilterDefinitionBytes)
    (newError ("log filter definition exceeds " ++ itoa maxLogFilterDefinitionBytes ++ " bytes"))

/-- One round of the loops over the values of an address or of a topic position. -/
def addValue (validate : String → Result Unit) (mismatch : String) (set : Finset String) :
    JsonValue → Result (Finset String)
  | .string value => do
    validate value
    pure (insert value set)
  | _ => .error (newError mismatch)

/-- `parseLogAddresses`. -/
def parseLogAddresses : JsonValue → Result (Finset String)
  | .string typed => do
    validateCanonicalLogAddress typed
    pure {typed}
  | .array typed => do
    refuseIf (typed.length > maxLogAddresses) tooManyAddresses
    typed.foldlM (addValue validateCanonicalLogAddress "address filter values must be strings") ∅
  | _ => .error (newError "address filter must be a string or array")

/-- One round of the loop of `parseTopicCriteria`. -/
def parseTopicCriterion : JsonValue → Result TopicCriterion
  | .null => pure { any := true }
  | .string typed => do
    validateCanonicalLogTopic typed
    pure { allowed := some {typed} }
  | .array typed => do
    refuseIf (typed.length > maxLogTopicAlternatives) tooManyAlternatives
    if typed.length = 0 then pure { any := true, allowed := some ∅ }
    else
      let allowed ← typed.foldlM (addValue validateCanonicalLogTopic "topic filter values must be strings") ∅
      pure { allowed := some allowed }
  | _ => .error (newError "topic filter entries must be strings, arrays, or null")

/-- `parseTopicCriteria`. -/
def parseTopicCriteria : JsonValue → Result (List TopicCriterion)
  | .array rawTopics => do
    refuseIf (rawTopics.length > maxLogTopics) tooManyTopics
    rawTopics.mapM parseTopicCriterion
  | _ => .error (newError "topics filter must be an array")

/-- A field of a request that may be missing, with what stands for it then. -/
def optionalField {α : Type} (raw : List (String × JsonValue)) (name : String) (missing : α)
    (parse : JsonValue → Result α) : Result α :=
  ((raw.lookup name).map parse).getD (pure missing)

/-- `parseLogFilter`. -/
def parseLogFilter (tags : BlockTags) : JsonValue → Result LogFilter
  | .object raw => do
    let fromBlock ← optionalField raw "fromBlock" 0 (parseBlockNumber tags)
    let toBlock ← optionalField raw "toBlock" tags.latest (parseBlockNumber tags)
    let addresses ← optionalField raw "address" none fun value => some <$> parseLogAddresses value
    let topics ← optionalField raw "topics" [] parseTopicCriteria
    let filter : LogFilter := { fromBlock, toBlock, addresses, topics }
    validateLogFilterDefinition filter
    pure filter
  | _ => .error (newError "filter must be an object")

/-- `eventMatchesLogFilter`. -/
def eventMatchesLogFilter (address : String) (topics : List String) (filter : LogFilter) : Bool :=
  decide ((members filter.addresses).card > 0 → toLower address ∈ members filter.addresses) &&
    filter.topics.zipIdx.all fun entry => entry.1.any ||
      (topics[entry.2]?).any fun topic => toLower topic ∈ members entry.1.allowed

/-! ### Accepted definitions -/

section Accepted

variable {filter : LogFilter} {address topic : String}

theorem toLower_of_validateCanonicalLogAddress (h : validateCanonicalLogAddress address = .ok ()) :
    toLower address = address := by
  simp only [validateCanonicalLogAddress, bind_ok, refuseIf_ok, exists_const, not_or, ne_eq, not_not] at h
  exact h.1.2.2.symm

theorem toLower_of_validateCanonicalHash {field : String} (h : validateCanonicalHash field topic = .ok ()) :
    toLower topic = topic := by
  simp only [validateCanonicalHash, bind_ok, refuseIf_ok, exists_const, not_or, ne_eq, not_not] at h
  exact h.1.2.2.symm

/-- What `validateLogFilterDefinition` accepts. -/
structure LogFilter.Valid (filter : LogFilter) : Prop where
  addresses : (members filter.addresses).card ≤ maxLogAddresses
  positions : filter.topics.length ≤ maxLogTopics
  address : ∀ address ∈ members filter.addresses, validateCanonicalLogAddress address = .ok ()
  alternatives : ∀ criterion ∈ filter.topics, (members criterion.allowed).card ≤ maxLogTopicAlternatives
  topic : ∀ criterion ∈ filter.topics, ∀ topic ∈ members criterion.allowed, validateCanonicalLogTopic topic = .ok ()
  bytes : filter.definitionBytes ≤ maxLogFilterDefinitionBytes

theorem isOk_iff {outcome : Result Unit} : outcome.isOk = true ↔ outcome = .ok () := by
  cases outcome with
  | ok _ => exact ⟨fun _ => rfl, fun _ => rfl⟩
  | error _ => simp [Except.isOk, Except.toBool]

theorem validateLogFilterDefinition_ok : validateLogFilterDefinition filter = .ok () ↔ filter.Valid := by
  simp only [validateLogFilterDefinition, bind_ok, refuseIf_ok, exists_const, forM_ok, not_lt, gt_iff_lt, not_exists, not_and,
    Bool.not_eq_false, isOk_iff]
  constructor
  · rintro ⟨haddresses, hpositions, haddress, htopics, hbytes⟩
    exact ⟨haddresses, hpositions, haddress, fun criterion hmem => (htopics criterion hmem).1,
      fun criterion hmem => (htopics criterion hmem).2, hbytes⟩
  · intro h
    exact ⟨h.addresses, h.positions, h.address, fun criterion hmem => ⟨h.alternatives criterion hmem, h.topic criterion hmem⟩,
      h.bytes⟩

theorem parseLogFilter_valid {tags : BlockTags} {value : JsonValue} (h : parseLogFilter tags value = .ok filter) :
    filter.Valid := by
  cases value with
  | object raw =>
    simp only [parseLogFilter, bind_ok, pure_eq_ok, Except.ok.injEq] at h
    obtain ⟨fromBlock, -, toBlock, -, addresses, -, topics, -, _, hvalid, rfl⟩ := h
    exact validateLogFilterDefinition_ok.mp hvalid
  | _ => cases h

end Accepted

end ChainLab.Rpc
