import AuditGuard.Library.JsonText
import Mathlib.Tactic.NormNum

/-!
# Invitations: the encoder and the decoder

A discovery that `validateDiscoveryPayload` of `orchestrator.js` accepts leads to a job, and `inviteAgents` publishes
an invitation for it, which the agents read with `parseAuctionInvite` of `message-validators.ts`. The payload of a
discovery comes from anybody, so its properties may be values of any kind, or missing.

## Invitations: where the two sides agree

The orchestrator takes whatever `Number` turns into a number; the agents want numbers. It sends an empty text for an
address that is missing; the agents want an address, or nothing. And where it opens the job with zero for a value that
is `null`, the invitation has an older name's value.
-/

namespace AuditGuard.Invitation

section

/-- The properties of a discovery that are read. -/
structure DiscoveryPayload where
  contractAddress : Option Json
  contractType : Option Json
  budget : Option Json
  riskScore : Option Json
  initialRiskScore : Option Json
  estimatedLOC : Option Json
  estimatedLineCount : Option Json
  deployerAddress : Option Json

/-- What the code is run with: `ethers.isAddress`, what `Number` makes of strings, arrays and objects, unless that is
`NaN`, and the budget of a job. -/
structure Runtime where
  isAddress : String → Bool
  numberOf : Json → Option Number
  totalGuard : ℚ

variable (R : Runtime)

/-- `Number(value)`, unless it is `NaN`. -/
def Runtime.toNumber : Option Json → Option Number
  | none => none
  | some .null => some (.finite 0)
  | some (.bool b) => some (.finite (if b = true then 1 else 0))
  | some (.number x) => some x
  | some v => R.numberOf v

/-- `ethers.isAddress` of any value. -/
def Runtime.isAddressValue : Option Json → Bool
  | some (.string s) => R.isAddress s
  | _ => false

/-! ## The orchestrator -/

/-- `validateDiscoveryPayload`, with what its errors begin with. -/
def validateDiscoveryPayload (payload : DiscoveryPayload) : Except String Unit :=
  if R.isAddressValue payload.contractAddress = false then .error "invalid contractAddress"
  else match R.toNumber payload.budget with
    | some (.finite budget) =>
      if budget ≤ 0 then .error "invalid budget"
      else match R.toNumber payload.riskScore with
        | some (.finite riskScore) =>
          if riskScore.den ≠ 1 ∨ riskScore < 0 ∨ 100 < riskScore then .error "invalid riskScore"
          else match R.toNumber payload.estimatedLOC with
            | some (.finite estimatedLOC) => if estimatedLOC < 0 then .error "invalid estimatedLOC" else .ok ()
            | _ => .error "invalid estimatedLOC"
        | _ => .error "invalid riskScore"
    | _ => .error "invalid budget"

/-- A number as a property. -/
def number (x : ℚ) : Option Json := some (.number (.finite x))

/-- A text as a property. -/
def text (s : String) : Option Json := some (.string s)

/-- `budgetGuard` of `handleDiscovery`. -/
def budgetGuard (payload : DiscoveryPayload) : ℚ :=
  match R.toNumber (Json.orElse payload.budget (number R.totalGuard)) with
  | some (.finite x) => if 0 < x then x else R.totalGuard
  | _ => R.totalGuard

/-- A job as the orchestrator has opened it. -/
structure Opened where
  jobId : String
  contractAddress : Option Json
  budget : ℚ
  riskScore : Option Number
  estimatedLOC : Option Number
  auctionDeadlineSec : ℕ
  deadline_pos : 0 < auctionDeadlineSec

/-- The job that is opened for a discovery, under the number and with the deadline that the chain gives it. -/
def openJob (payload : DiscoveryPayload) (jobId : String) (auctionDeadlineSec : ℕ)
    (hdeadline : 0 < auctionDeadlineSec) : Opened where
  jobId := jobId
  contractAddress := payload.contractAddress
  budget := budgetGuard R payload
  riskScore := R.toNumber (Json.orElse payload.riskScore (number 0))
  estimatedLOC := R.toNumber (Json.orElse payload.estimatedLOC (number 0))
  auctionDeadlineSec := auctionDeadlineSec
  deadline_pos := hdeadline

/-- An agent that is invited, with its normalized address. -/
structure Invitee where
  agentId : String
  evmAddress : Option String

/-- The payload of an invitation. -/
def invitePayload (opened : Opened) (agents : List Invitee) (payload : DiscoveryPayload)
    (classifierHints : Option Json) (nowMs : ℕ) : List (String × Option Json) := [
  ("jobId", text opened.jobId),
  ("contractAddress", payload.contractAddress),
  ("deployerAddress", Json.orElse payload.deployerAddress (text "")),
  ("contractType", payload.contractType),
  ("budget", Json.orElse payload.budget (number R.totalGuard)),
  ("riskScore", Json.orElse (Json.orElse payload.riskScore payload.initialRiskScore) (number 0)),
  ("estimatedLOC", Json.orElse (Json.orElse payload.estimatedLOC payload.estimatedLineCount) (number 0)),
  ("estimatedLineCount", Json.orElse (Json.orElse payload.estimatedLineCount payload.estimatedLOC) (number 0)),
  ("auctionDeadlineSec", number opened.auctionDeadlineSec),
  ("classifierHints", classifierHints),
  ("inviteBatchId", text ("invite:" ++ opened.jobId ++ ":" ++ toString nowMs)),
  ("eligibleAgentIds", some (.array (((agents.map Invitee.agentId).filter (· ≠ "")).map .string))),
  ("eligibleEvmAddresses", some (.array ((agents.filterMap Invitee.evmAddress).map .string)))]

/-- `inviteAgents`: the message that is published, if there is anybody to invite. -/
def inviteAgents (opened : Opened) (agents : List Invitee) (payload : DiscoveryPayload)
    (classifierHints : Option Json) (nowMs : ℕ) : Option Json :=
  if agents = [] then none
  else some (Json.fields [
    ("type", text "AUCTION_INVITE"),
    ("agentId", text "orchestrator"),
    ("timestamp", number nowMs),
    ("payload", some (Json.fields (invitePayload R opened agents payload classifierHints nowMs)))])

/-! ## The agents -/

/-- `AuctionInvitePayload`. -/
structure AuctionInvitePayload where
  jobId : Json
  contractAddress : String
  deployerAddress : Option String
  contractType : Option String
  riskScore : Option ℚ
  estimatedLOC : Option ℚ
  estimatedLineCount : Option ℚ
  budget : Option ℚ
  auctionDeadlineSec : Option ℚ
  eligibleAgentIds : Option (List Json)
  eligibleEvmAddresses : Option (List Json)
  minBidCollateralGuard : Option ℚ

/-- `isValidEVMAddress`, with the address. -/
def isValidEVMAddress : Json → Option String
  | .string s => if R.isAddress s = true then some s else none
  | _ => none

/-- `isValidNumber`, with the number. -/
def isValidNumber (min : ℚ) (max : Option ℚ) : Json → Option ℚ
  | .number (.finite x) => if x < min ∨ max.any (· < x) = true then none else some x
  | _ => none

/-- The types of contracts. -/
def validTypes : List String :=
  ["lending", "dex", "staking", "bridge", "vault", "derivatives", "oracle", "governance", "nft", "unknown"]

/-- `isValidContractType`, with the type. -/
def isValidContractType : Json → Option String
  | .string s => if s ∈ validTypes then some s else none
  | _ => none

/-- `Array.isArray`, with the elements. -/
def isArray : Json → Option (List Json)
  | .array elements => some elements
  | _ => none

/-- A property that may be missing, and is checked if it is there. -/
def checked {α : Type} (check : Json → Option α) : Option Json → Option (Option α)
  | none => some none
  | some v => (check v).map some

/-- A property that must be there, and not be `null`. -/
def required : Option Json → Option Json
  | some .null => none
  | v => v

/-- `parseAuctionInvite`, from the payload on. -/
def parsePayload (payload : Json) : Option AuctionInvitePayload := do
  let jobId ← required (payload.get "jobId")
  let contractAddress ← (payload.get "contractAddress").bind (isValidEVMAddress R)
  let deployerAddress ← checked (isValidEVMAddress R) (payload.get "deployerAddress")
  let contractType ← checked isValidContractType (payload.get "contractType")
  let riskScore ← checked (isValidNumber 0 (some 100)) (payload.get "riskScore")
  let estimatedLOC ← checked (isValidNumber 0 (some 10000000)) (payload.get "estimatedLOC")
  let estimatedLineCount ← checked (isValidNumber 0 (some 10000000)) (payload.get "estimatedLineCount")
  let budget ← checked (isValidNumber 0 none) (payload.get "budget")
  let auctionDeadlineSec ← checked (isValidNumber 0 none) (payload.get "auctionDeadlineSec")
  let minBidCollateralGuard ← checked (isValidNumber 0 none) (payload.get "minBidCollateralGuard")
  let eligibleAgentIds ← checked isArray (payload.get "eligibleAgentIds")
  let eligibleEvmAddresses ← checked isArray (payload.get "eligibleEvmAddresses")
  pure ⟨jobId, contractAddress, deployerAddress, contractType, riskScore, estimatedLOC, estimatedLineCount, budget,
    auctionDeadlineSec, eligibleAgentIds, eligibleEvmAddresses, minBidCollateralGuard⟩

/-- `parseAuctionInvite`. Values without properties are refused one way or the other. -/
def parseAuctionInvite (msg : Json) : Option AuctionInvitePayload :=
  match msg.get "type" with
  | some (.string type) => if type = "AUCTION_INVITE" then (msg.get "payload").bind (parsePayload R) else none
  | _ => none

/-! ## Discoveries of the orchestrator itself -/

/-- The discovery of `AutoAuditTriggered`. -/
def autoAuditDiscovery (contractAddress vaultAddress : String) : DiscoveryPayload where
  contractAddress := text contractAddress
  contractType := text "unknown"
  budget := number R.totalGuard
  riskScore := number 50
  initialRiskScore := none
  estimatedLOC := number 1000
  estimatedLineCount := none
  deployerAddress := text vaultAddress

/-- The discovery of `publishScheduledDiscoveryWithEnrichment`, with what the enrichment service has found. -/
def scheduledDiscovery (contractAddress : String) (contractType riskScore estimatedLOC : Option Json) :
    DiscoveryPayload where
  contractAddress := text contractAddress
  contractType := Json.orElse contractType (text "unknown")
  budget := number R.totalGuard
  riskScore := riskScore
  initialRiskScore := none
  estimatedLOC := estimatedLOC
  estimatedLineCount := none
  deployerAddress := text "HSS_SCHEDULE"

end

section

variable {R : Runtime} {payload : DiscoveryPayload} {opened : Opened} {agents : List Invitee}
  {classifierHints : Option Json} {nowMs : ℕ} {v : Option Json}

/-! ## Invitations that agree with the job -/

/-- An invitation says what the job was opened with. -/
structure AuctionInvitePayload.Matches (parsed : AuctionInvitePayload) (opened : Opened) : Prop where
  jobId : parsed.jobId = .string opened.jobId
  contractAddress : text parsed.contractAddress = opened.contractAddress
  budget : parsed.budget = some opened.budget
  riskScore : parsed.riskScore.map .finite = opened.riskScore
  estimatedLOC : parsed.estimatedLOC.map .finite = opened.estimatedLOC
  auctionDeadlineSec : parsed.auctionDeadlineSec = some (opened.auctionDeadlineSec : ℚ)

/-- The invitation that is published is accepted, and says what the job was opened with. -/
def Agrees (R : Runtime) (opened : Opened) (invite : Option Json) : Prop :=
  ∃ msg parsed, invite = some msg ∧ parseAuctionInvite R msg.roundTrip = some parsed ∧ parsed.Matches opened

/-- A property that is a number. -/
def IsNumber (v : Option Json) : Prop := ∃ x, v = number x

/-- A property that counts as missing, or is zero. -/
def Blank (v : Option Json) : Prop := v = none ∨ v = some .null ∨ v = number 0

/-- A discovery with plain properties: the deployer is an address, the type is one of those that there are, numbers
are numbers and not too large, and no other name has a value for what is `null`. -/
structure Plain (R : Runtime) (payload : DiscoveryPayload) : Prop where
  deployerAddress : R.isAddressValue (Json.orElse payload.deployerAddress (text "")) = true
  contractType : payload.contractType = none ∨ ∃ s ∈ validTypes, payload.contractType = text s
  budget : IsNumber payload.budget
  riskScore : IsNumber payload.riskScore ∨ payload.riskScore = some .null ∧ Blank payload.initialRiskScore
  estimatedLOC : (∃ x ≤ 10000000, payload.estimatedLOC = number x) ∨
    payload.estimatedLOC = some .null ∧ Blank payload.estimatedLineCount
  estimatedLineCount : payload.estimatedLineCount = none ∨ payload.estimatedLineCount = some .null ∨
    ∃ x, (0 ≤ x ∧ x ≤ 10000000) ∧ payload.estimatedLineCount = number x

/-! ## What an agent reads -/

theorem parse_invite (hagents : agents ≠ []) {parsed : AuctionInvitePayload} :
    (∃ msg, inviteAgents R opened agents payload classifierHints nowMs = some msg ∧
      parseAuctionInvite R msg.roundTrip = some parsed) ↔
    parsePayload R (Json.fields (invitePayload R opened agents payload classifierHints nowMs)).roundTrip =
      some parsed := by
  unfold inviteAgents
  rw [if_neg hagents]
  simp only [Option.some.injEq, exists_eq_left']
  unfold parseAuctionInvite
  simp [Json.get_roundTrip, Json.get_fields_self, Json.get_fields_of_ne, text, Json.roundTrip]

/-- An address is read as it was written. -/
@[simp]
theorem isValidEVMAddress_roundTrip (v : Json) : isValidEVMAddress R v.roundTrip = isValidEVMAddress R v := by
  cases v with
  | number x => cases x <;> rfl
  | null | bool | string | array | object => rfl

/-- So is a type. -/
@[simp]
theorem isValidContractType_roundTrip (v : Json) : isValidContractType v.roundTrip = isValidContractType v := by
  cases v with
  | number x => cases x <;> rfl
  | null | bool | string | array | object => rfl

/-- So is a number. -/
@[simp]
theorem isValidNumber_roundTrip (min : ℚ) (max : Option ℚ) (v : Json) :
    isValidNumber min max v.roundTrip = isValidNumber min max v := by
  cases v with
  | number x => cases x <;> rfl
  | null | bool | string | array | object => rfl

theorem checked_map_roundTrip {α : Type} {check : Json → Option α} (h : ∀ v : Json, check v.roundTrip = check v)
    (v : Option Json) : checked check (v.map Json.roundTrip) = checked check v := by
  cases v with
  | none => rfl
  | some v =>
    unfold checked
    dsimp only [Option.map_some]
    rw [h]

/-- What an agent reads of an invitation. -/
theorem parsePayload_invite {parsed : AuctionInvitePayload} :
    parsePayload R (Json.fields (invitePayload R opened agents payload classifierHints nowMs)).roundTrip = some parsed ↔
      ∃ contractAddress deployerAddress contractType riskScore estimatedLOC estimatedLineCount budget,
        payload.contractAddress.bind (isValidEVMAddress R) = some contractAddress ∧
        checked (isValidEVMAddress R) (Json.orElse payload.deployerAddress (text "")) = some deployerAddress ∧
        checked isValidContractType payload.contractType = some contractType ∧
        checked (isValidNumber 0 (some 100))
          (Json.orElse (Json.orElse payload.riskScore payload.initialRiskScore) (number 0)) = some riskScore ∧
        checked (isValidNumber 0 (some 10000000))
          (Json.orElse (Json.orElse payload.estimatedLOC payload.estimatedLineCount) (number 0)) = some estimatedLOC ∧
        checked (isValidNumber 0 (some 10000000))
          (Json.orElse (Json.orElse payload.estimatedLineCount payload.estimatedLOC) (number 0)) =
            some estimatedLineCount ∧
        checked (isValidNumber 0 none) (Json.orElse payload.budget (number R.totalGuard)) = some budget ∧
        parsed = {
          jobId := .string opened.jobId
          contractAddress := contractAddress
          deployerAddress := deployerAddress
          contractType := contractType
          riskScore := riskScore
          estimatedLOC := estimatedLOC
          estimatedLineCount := estimatedLineCount
          budget := budget
          auctionDeadlineSec := some opened.auctionDeadlineSec
          eligibleAgentIds := some (Json.roundTripElements (((agents.map Invitee.agentId).filter (· ≠ "")).map .string))
          eligibleEvmAddresses := some (Json.roundTripElements ((agents.filterMap Invitee.evmAddress).map .string))
          minBidCollateralGuard := none } := by
  have hjob : required ((text opened.jobId).map Json.roundTrip) = some (.string opened.jobId) := rfl
  have haddress : (payload.contractAddress.map Json.roundTrip).bind (isValidEVMAddress R) =
      payload.contractAddress.bind (isValidEVMAddress R) := by
    cases payload.contractAddress with
    | none => rfl
    | some v => exact isValidEVMAddress_roundTrip v
  have hdeadline : checked (isValidNumber 0 none) (number (opened.auctionDeadlineSec : ℚ)) =
      some (some (opened.auctionDeadlineSec : ℚ)) := by
    have hnonneg : ¬ ((opened.auctionDeadlineSec : ℚ) < 0) := not_lt.mpr (Nat.cast_nonneg _)
    simp [checked, isValidNumber, number, hnonneg]
  have hcollateral : checked (isValidNumber 0 none) ((Json.fields []).get "minBidCollateralGuard") = some none := rfl
  have harray : ∀ elements, checked isArray (some (Json.array elements).roundTrip) =
      some (some (Json.roundTripElements elements)) := fun _ => rfl
  unfold parsePayload
  -- The properties of the invitation, one by one.
  simp only [Json.get_roundTrip, invitePayload, Option.bind_eq_bind, Option.pure_def]
  simp only [Json.get_fields_self, Json.get_fields_of_ne, ne_eq, String.reduceEq, not_false_eq_true, List.map_cons,
    List.map_nil, List.mem_cons, List.not_mem_nil, or_self, checked_map_roundTrip,
    isValidEVMAddress_roundTrip, isValidContractType_roundTrip, isValidNumber_roundTrip, implies_true,
    Option.map_some, hjob, haddress, hdeadline, hcollateral, harray, Option.bind_some]
  simp only [Option.bind_eq_some_iff, Option.some.injEq, exists_and_left, @eq_comm _ parsed]

/-! ## The properties -/

/-- What the orchestrator has checked of a discovery that it accepts. -/
structure Valid (R : Runtime) (payload : DiscoveryPayload) : Prop where
  contractAddress : ∃ s, payload.contractAddress = text s ∧ R.isAddress s = true
  budget : ∃ x, R.toNumber payload.budget = some (.finite x) ∧ 0 < x
  riskScore : ∃ x, R.toNumber payload.riskScore = some (.finite x) ∧ 0 ≤ x ∧ x ≤ 100
  estimatedLOC : ∃ x, R.toNumber payload.estimatedLOC = some (.finite x) ∧ 0 ≤ x

theorem valid_of_ok (h : validateDiscoveryPayload R payload = .ok ()) : Valid R payload := by
  unfold validateDiscoveryPayload at h
  split_ifs at h with haddress
  split at h
  · rename_i budget hbudget
    split_ifs at h with hpos
    split at h
    · rename_i riskScore hrisk
      split_ifs at h with hrange
      split at h
      · rename_i estimatedLOC hloc
        split_ifs at h with hnonneg
        push Not at hrange
        refine ⟨?_, ⟨budget, hbudget, not_le.mp hpos⟩, ⟨riskScore, hrisk, hrange.2⟩,
          ⟨estimatedLOC, hloc, not_lt.mp hnonneg⟩⟩
        unfold Runtime.isAddressValue at haddress
        split at haddress
        · rename_i s hs
          exact ⟨s, hs, by simpa using haddress⟩
        · exact absurd rfl haddress
      · cases h
    · cases h
  · cases h

theorem checked_address : (∃ a, checked (isValidEVMAddress R) (Json.orElse v (text "")) = some a) ↔
    R.isAddressValue (Json.orElse v (text "")) = true := by
  have hkind : ∀ w : Json, (∃ a, (isValidEVMAddress R w).map some = some a) ↔ R.isAddressValue (some w) = true := by
    intro w
    cases w with
    | string s => simp [isValidEVMAddress, Runtime.isAddressValue]
    | _ => simp [isValidEVMAddress, Runtime.isAddressValue]
  obtain ⟨w, hw⟩ := Json.exists_orElse v (Json.string "")
  rw [text, hw]
  exact hkind w

theorem checked_contractType : (∃ t, checked isValidContractType v = some t) ↔
    v = none ∨ ∃ s ∈ validTypes, v = text s := by
  cases v with
  | none => simp [checked]
  | some v =>
    cases v with
    | string s => simp [checked, isValidContractType, text]
    | _ => simp [checked, isValidContractType, text]

theorem checked_number {min : ℚ} {max : Option ℚ} {x : Option ℚ} {w : Json} :
    checked (isValidNumber min max) (some w) = some x ↔
      ∃ y, x = some y ∧ w = .number (.finite y) ∧ min ≤ y ∧ max.all (y ≤ ·) = true := by
  cases w with
  | number n =>
    cases n with
    | finite y =>
      cases max with
      | none => simp [checked, isValidNumber, eq_comm, and_comm]
      | some m => simp [checked, isValidNumber, eq_comm, and_comm]
    | infinite negative => simp [checked, isValidNumber]
  | _ => simp [checked, isValidNumber]

theorem orElse_eq_zero : Json.orElse v (number 0) = number 0 ↔ Blank v := by
  cases v with
  | none => simp [Json.orElse, Blank]
  | some v =>
    cases v with
    | null => simp [Json.orElse, Blank]
    | _ => simp [Json.orElse, Blank, number]

/-- A number with an older name is read as the job was opened exactly if it is there, and not too large, or if it is
`null` and the older name has nothing else. -/
theorem checked_alias (older : Option Json) {x max : ℚ} (hv : R.toNumber v = some (.finite x)) (hx : 0 ≤ x)
    (hmax : 0 ≤ max) :
    (∃ r, checked (isValidNumber 0 (some max)) (Json.orElse (Json.orElse v older) (number 0)) = some r ∧
      r.map .finite = R.toNumber (Json.orElse v (number 0))) ↔
    (∃ y ≤ max, v = number y) ∨ v = some .null ∧ Blank older := by
  have hother : ∀ w : Json, w ≠ .null → (∀ y, w ≠ .number (.finite y)) →
      ((∃ r, checked (isValidNumber 0 (some max)) (Json.orElse (Json.orElse (some w) older) (number 0)) = some r ∧
        r.map .finite = R.toNumber (Json.orElse (some w) (number 0))) ↔
      (∃ y ≤ max, some w = number y) ∨ some w = some .null ∧ Blank older) := by
    intro w hnull hnumber
    have hsame : Json.orElse (Json.orElse (some w) older) (number 0) = some w := by
      cases w with
      | null => exact absurd rfl hnull
      | _ => rfl
    rw [hsame]
    constructor
    · rintro ⟨r, hr, -⟩
      obtain ⟨y, -, hy, -⟩ := checked_number.mp hr
      exact absurd hy (hnumber y)
    · rintro (⟨y, -, hy⟩ | ⟨hw, -⟩)
      · exact absurd (Option.some.inj hy) (hnumber y)
      · exact absurd (Option.some.inj hw) hnull
  cases v with
  | none => cases hv
  | some w =>
    cases w with
    | null =>
      -- The job is opened with zero, and the invitation has what the older name has.
      have hopened : R.toNumber (Json.orElse (some .null) (number 0)) = some (.finite 0) := rfl
      rw [hopened, ← orElse_eq_zero]
      change (∃ r, checked _ (Json.orElse older (number 0)) = some r ∧ _) ↔ _
      obtain ⟨w, hw⟩ := Json.exists_orElse older (.number (.finite 0))
      change Json.orElse older (number 0) = some w at hw
      rw [hw]
      constructor
      · rintro ⟨r, hr, hzero⟩
        obtain ⟨y, rfl, rfl, -⟩ := checked_number.mp hr
        have hy : y = 0 := by simpa using hzero
        rw [hy]
        exact .inr ⟨rfl, rfl⟩
      · rintro (⟨y, -, hy⟩ | ⟨-, hzero⟩)
        · cases hy
        · refine ⟨some 0, checked_number.mpr ⟨0, rfl, Option.some.inj hzero, le_rfl, ?_⟩, rfl⟩
          simpa using hmax
    | number n =>
      obtain rfl : n = .finite x := Option.some.inj hv
      have hopened : R.toNumber (Json.orElse (number x) (number 0)) = some (.finite x) := rfl
      change (∃ r, checked _ (number x) = some r ∧ _ = R.toNumber (Json.orElse (number x) (number 0))) ↔ _
      rw [hopened]
      constructor
      · rintro ⟨r, hr, -⟩
        obtain ⟨y, -, hy, -, hle⟩ := checked_number.mp hr
        exact .inl ⟨y, by simpa using hle, congrArg some hy⟩
      · rintro (⟨y, hle, hy⟩ | ⟨hnull, -⟩)
        · have hxy : x = y := by simpa [number] using hy
          subst hxy
          exact ⟨some x, checked_number.mpr ⟨x, rfl, rfl, hx, by simpa using hle⟩, rfl⟩
        · cases hnull
    | bool | string | array | object => exact hother _ (by nofun) (by nofun)

theorem checked_estimatedLineCount {loc : Option Json} {max : ℚ} (hmax : 0 ≤ max)
    (hloc : (∃ y, 0 ≤ y ∧ y ≤ max ∧ loc = number y) ∨ loc = some .null) :
    (∃ r, checked (isValidNumber 0 (some max)) (Json.orElse (Json.orElse v loc) (number 0)) = some r) ↔
      v = none ∨ v = some .null ∨ ∃ y, (0 ≤ y ∧ y ≤ max) ∧ v = number y := by
  have hdefault : ∃ r, checked (isValidNumber 0 (some max)) (Json.orElse loc (number 0)) = some r := by
    rcases hloc with ⟨y, hnonneg, hle, rfl⟩ | rfl
    · exact ⟨some y, checked_number.mpr ⟨y, rfl, rfl, hnonneg, by simpa using hle⟩⟩
    · exact ⟨some 0, checked_number.mpr ⟨0, rfl, rfl, le_rfl, by simpa using hmax⟩⟩
  have hother : ∀ w : Json, w ≠ .null → Json.orElse (Json.orElse (some w) loc) (number 0) = some w := by
    intro w hnull
    cases w with
    | null => exact absurd rfl hnull
    | _ => rfl
  cases v with
  | none => exact ⟨fun _ => .inl rfl, fun _ => hdefault⟩
  | some w =>
    by_cases hnull : w = .null
    · subst hnull
      exact ⟨fun _ => .inr (.inl rfl), fun _ => hdefault⟩
    · rw [hother w hnull]
      constructor
      · rintro ⟨r, hr⟩
        obtain ⟨y, -, rfl, hnonneg, hle⟩ := checked_number.mp hr
        exact .inr (.inr ⟨y, ⟨hnonneg, by simpa using hle⟩, rfl⟩)
      · rintro (hw | hw | ⟨y, ⟨hnonneg, hle⟩, hw⟩)
        · cases hw
        · exact absurd (Option.some.inj hw) hnull
        · exact ⟨some y, checked_number.mpr ⟨y, rfl, Option.some.inj hw, hnonneg, by simpa using hle⟩⟩

theorem checked_budget {x : ℚ} (hv : R.toNumber payload.budget = some (.finite x)) (hx : 0 < x) :
    (∃ r, checked (isValidNumber 0 none) (Json.orElse payload.budget (number R.totalGuard)) = some r ∧
      r = some (budgetGuard R payload)) ↔ IsNumber payload.budget := by
  cases hbudget : payload.budget with
  | none =>
    rw [hbudget] at hv
    cases hv
  | some w =>
    rw [hbudget] at hv
    have hnull : w ≠ .null := by
      rintro rfl
      obtain rfl : (0 : ℚ) = x := by simpa [Runtime.toNumber] using hv
      exact lt_irrefl _ hx
    have hsame : Json.orElse (some w) (number R.totalGuard) = some w := by
      cases w with
      | null => exact absurd rfl hnull
      | _ => rfl
    have hguard : budgetGuard R payload = x := by
      unfold budgetGuard
      rw [hbudget, hsame, hv]
      exact if_pos hx
    rw [hsame, hguard]
    constructor
    · rintro ⟨r, hr, -⟩
      obtain ⟨y, -, hy, -⟩ := checked_number.mp hr
      exact ⟨y, congrArg some hy⟩
    · rintro ⟨y, hy⟩
      obtain rfl : w = .number (.finite y) := Option.some.inj hy
      obtain rfl : y = x := by simpa [Runtime.toNumber] using hv
      exact ⟨some y, checked_number.mpr ⟨y, rfl, rfl, hx.le, rfl⟩, rfl⟩

/-! ## The agreement -/

theorem lines_range {v : Option Json} {x max : ℚ} {p : Prop} (hv : R.toNumber v = some (.finite x)) (hx : 0 ≤ x)
    (h : (∃ y ≤ max, v = number y) ∨ v = some .null ∧ p) :
    (∃ y, 0 ≤ y ∧ y ≤ max ∧ v = number y) ∨ v = some .null := by
  rcases h with ⟨y, hle, rfl⟩ | ⟨hnull, -⟩
  · obtain rfl : y = x := by simpa [Runtime.toNumber, number] using hv
    exact .inl ⟨y, hx, hle, rfl⟩
  · exact .inr hnull

section

variable {jobId : String} {auctionDeadlineSec : ℕ} {hdeadline : 0 < auctionDeadlineSec}

theorem plain_of_agrees (hvalid : Valid R payload) (hagents : agents ≠ [])
    (h : Agrees R (openJob R payload jobId auctionDeadlineSec hdeadline)
      (inviteAgents R (openJob R payload jobId auctionDeadlineSec hdeadline) agents payload classifierHints nowMs)) :
    Plain R payload := by
  obtain ⟨-, ⟨x, hbudget, hpos⟩, ⟨risk, hrisk, hrisk0, -⟩, loc, hloc, hloc0⟩ := hvalid
  have hmax : (0 : ℚ) ≤ 10000000 := by norm_num
  obtain ⟨msg, parsed, hmsg, hparsed, hmatches⟩ := h
  obtain ⟨address, deployer, type, score, lines, count, budget, -, hdeployer, htype, hscore, hlines, hcount, hread,
    rfl⟩ := parsePayload_invite.mp ((parse_invite hagents).mp ⟨msg, hmsg, hparsed⟩)
  have hplain : (∃ y ≤ 10000000, payload.estimatedLOC = number y) ∨
      payload.estimatedLOC = some .null ∧ Blank payload.estimatedLineCount :=
    (checked_alias payload.estimatedLineCount hloc hloc0 hmax).mp ⟨lines, hlines, hmatches.estimatedLOC⟩
  have hscored := (checked_alias payload.initialRiskScore hrisk hrisk0 (show (0 : ℚ) ≤ 100 by norm_num)).mp
    ⟨score, hscore, hmatches.riskScore⟩
  exact {
    deployerAddress := checked_address.mp ⟨deployer, hdeployer⟩
    contractType := checked_contractType.mp ⟨type, htype⟩
    budget := (checked_budget hbudget hpos).mp ⟨budget, hread, hmatches.budget⟩
    riskScore := hscored.imp_left fun ⟨y, _, hy⟩ => ⟨y, hy⟩
    estimatedLOC := hplain
    estimatedLineCount := (checked_estimatedLineCount hmax (lines_range hloc hloc0 hplain)).mp ⟨count, hcount⟩ }

theorem agrees_of_plain (hvalid : Valid R payload) (hagents : agents ≠ []) (hplain : Plain R payload) :
    Agrees R (openJob R payload jobId auctionDeadlineSec hdeadline)
      (inviteAgents R (openJob R payload jobId auctionDeadlineSec hdeadline) agents payload classifierHints nowMs) := by
  obtain ⟨⟨address, haddress, haddr⟩, ⟨x, hbudget, hpos⟩, ⟨risk, hrisk, hrisk0, hrisk100⟩, loc, hloc, hloc0⟩ := hvalid
  have hmax : (0 : ℚ) ≤ 10000000 := by norm_num
  have hread : payload.contractAddress.bind (isValidEVMAddress R) = some address := by
    rw [haddress]
    exact if_pos haddr
  have hscored : (∃ y ≤ 100, payload.riskScore = number y) ∨
      payload.riskScore = some .null ∧ Blank payload.initialRiskScore := by
    refine hplain.riskScore.imp_left fun ⟨y, hy⟩ => ⟨y, ?_, hy⟩
    rw [hy] at hrisk
    obtain rfl : y = risk := by simpa [Runtime.toNumber, number] using hrisk
    exact hrisk100
  have hrange := lines_range hloc hloc0 hplain.estimatedLOC
  obtain ⟨deployer, hdeployer⟩ := checked_address.mpr hplain.deployerAddress
  obtain ⟨type, htype⟩ := checked_contractType.mpr hplain.contractType
  obtain ⟨budget, hbudget', hbudgeteq⟩ := (checked_budget hbudget hpos).mpr hplain.budget
  obtain ⟨lines, hlines, hlineseq⟩ :=
    (checked_alias payload.estimatedLineCount hloc hloc0 hmax).mpr hplain.estimatedLOC
  obtain ⟨count, hcount⟩ := (checked_estimatedLineCount hmax hrange).mpr hplain.estimatedLineCount
  obtain ⟨score, hscore, hscoreeq⟩ :=
    (checked_alias payload.initialRiskScore hrisk hrisk0 (show (0 : ℚ) ≤ 100 by norm_num)).mpr hscored
  obtain ⟨msg, hmsg, hparsed⟩ := (parse_invite hagents).mpr (parsePayload_invite.mpr
    ⟨address, deployer, type, score, lines, count, budget, hread, hdeployer, htype, hscore, hlines, hcount, hbudget',
      rfl⟩)
  exact ⟨msg, _, hmsg, hparsed, rfl, haddress.symm, hbudgeteq, hscoreeq, hlineseq, rfl⟩

/-- For a discovery that the orchestrator accepts, the agents read the invitation as the job was opened exactly if its
properties are plain. -/
theorem agrees_iff (hvalid : validateDiscoveryPayload R payload = .ok ()) (hagents : agents ≠ []) :
    Agrees R (openJob R payload jobId auctionDeadlineSec hdeadline)
      (inviteAgents R (openJob R payload jobId auctionDeadlineSec hdeadline) agents payload classifierHints nowMs) ↔
    Plain R payload :=
  ⟨plain_of_agrees (valid_of_ok hvalid) hagents, agrees_of_plain (valid_of_ok hvalid) hagents⟩

end

/-! ## Discoveries of the orchestrator itself -/

theorem autoAudit_plain {contractAddress vaultAddress : String} (hvault : R.isAddress vaultAddress = true) :
    Plain R (autoAuditDiscovery R contractAddress vaultAddress) where
  deployerAddress := hvault
  contractType := .inr ⟨"unknown", by decide, rfl⟩
  budget := ⟨R.totalGuard, rfl⟩
  riskScore := .inl ⟨50, rfl⟩
  estimatedLOC := .inl ⟨1000, by norm_num, rfl⟩
  estimatedLineCount := .inl rfl

theorem scheduled_not_plain {contractAddress : String} {contractType riskScore estimatedLOC : Option Json}
    (hschedule : R.isAddress "HSS_SCHEDULE" = false) :
    ¬ Plain R (scheduledDiscovery R contractAddress contractType riskScore estimatedLOC) := by
  intro hplain
  have haddress : R.isAddress "HSS_SCHEDULE" = true := hplain.deployerAddress
  rw [hschedule] at haddress
  cases haddress

/-! ## Samples -/

/-- A text of forty digits after `0x` is an address. -/
def sampleIsAddress (s : String) : Bool :=
  match s.toList with
  | '0' :: 'x' :: digits => digits.length = 40 ∧ digits.all fun c => c ∈ "0123456789abcdef".toList
  | _ => false

/-- A runtime without texts that are numbers. -/
def sampleRuntime : Runtime := ⟨sampleIsAddress, fun _ => none, 300⟩

/-- The address of a contract. -/
def sampleAddress : String := "0x00000000000000000000000000000000000000aa"

/-- An agent to invite. -/
def sampleAgents : List Invitee := [⟨"fuzzer", some "0x00000000000000000000000000000000000000bb"⟩]

/-- The discovery of `AutoAuditTriggered` is read as its job was opened. -/
theorem agrees_iff_autoAudit :
    Agrees sampleRuntime (openJob sampleRuntime (autoAuditDiscovery sampleRuntime sampleAddress sampleAddress) "7" 1000
      (by decide)) (inviteAgents sampleRuntime (openJob sampleRuntime
        (autoAuditDiscovery sampleRuntime sampleAddress sampleAddress) "7" 1000 (by decide)) sampleAgents
        (autoAuditDiscovery sampleRuntime sampleAddress sampleAddress) none 900) :=
  (agrees_iff (by decide +kernel) (by decide)).mpr (autoAudit_plain (by decide +kernel))

/-- A scheduled discovery is accepted, and no agent reads its invitation. -/
theorem scheduled_invite_refused : ¬ ∀ (R : Runtime) (payload : DiscoveryPayload) (jobId : String)
    (auctionDeadlineSec : ℕ) (hdeadline : 0 < auctionDeadlineSec) (agents : List Invitee)
    (classifierHints : Option Json) (nowMs : ℕ), validateDiscoveryPayload R payload = .ok () → agents ≠ [] →
    Agrees R (openJob R payload jobId auctionDeadlineSec hdeadline)
      (inviteAgents R (openJob R payload jobId auctionDeadlineSec hdeadline) agents payload classifierHints nowMs) := by
  intro hall
  have hvalid : validateDiscoveryPayload sampleRuntime
      (scheduledDiscovery sampleRuntime sampleAddress none (number 40) (number 120)) = .ok () := by decide +kernel
  have hagrees := hall sampleRuntime _ "7" 1000 (by decide) sampleAgents none 900 hvalid (by decide)
  have hplain := plain_of_agrees (valid_of_ok hvalid) (by decide) hagrees
  exact scheduled_not_plain (by decide +kernel) hplain

end

end AuditGuard.Invitation
