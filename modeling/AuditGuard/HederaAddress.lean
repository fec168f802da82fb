import AuditGuard.Library.JsonText
import Mathlib.Data.List.Induction
import Mathlib.Tactic.Ring

/-!
# Hedera accounts as EVM addresses

`hederaContractIdToEvmAddress` of `contract-classifier.ts` writes the shard, the realm and the number of a contract
into an EVM address, and `isHederaEvmMapped` and `hederaEvmMappedToAccountId` of `address-utils.js` recognise such an
address and read them again. The one puts the realm 24 bits above the number, and the shard 40 bits; the other ones
expect them 32 and 64 bits above it. They agree on the shard 0 and the realm 0 only, and there a number from `2^24` on
has the address of another contract, whose realm is not 0.

Texts are lists of characters.
-/

namespace AuditGuard.HederaAddress

open JsonText (hexDigit)

/-- `BigInt`, of a text of decimal digits. -/
def bigInt (text : List Char) : Except String ℕ :=
  if text.all Char.isDigit then .ok (Nat.ofDigitChars 10 text 0)
  else .error ("Cannot convert " ++ String.ofList text ++ " to a BigInt")

/-- `(shard << 40n) | (realm << 24n) | num`. -/
def combined (shard realm num : ℕ) : ℕ := shard <<< 40 ||| realm <<< 24 ||| num

/-- `hederaContractIdToEvmAddress`. -/
def hederaContractIdToEvmAddress (contractId : List Char) : Except String (List Char) :=
  match contractId.splitOn '.' with
  | [shard, realm, num] => do
    let shard ← bigInt shard
    let realm ← bigInt realm
    let num ← bigInt num
    .ok ('0' :: 'x' :: (Nat.toDigits 16 (combined shard realm num)).leftpad 40 '0')
  | _ => .error ("Invalid Hedera contract ID format: " ++ String.ofList contractId)

/-- The character is a hexadecimal digit. -/
def isHexDigit (c : Char) : Bool := (hexDigit c).isSome

/-- `isHederaEvmMapped`: `0x`, 24 zeros and 16 hexadecimal digits. -/
def isHederaEvmMapped : List Char → Bool
  | zero :: x :: digits =>
    zero == '0' && (x == 'x' || x == 'X') && digits.length == 40 && (digits.take 24).all (· == '0') &&
      (digits.drop 24).all isHexDigit
  | _ => false

/-- The number that hexadecimal digits stand for. -/
def hexValue (digits : List Char) : ℕ := digits.foldl (fun value c => 16 * value + (hexDigit c).getD 0) 0

/-- `parseInt(text, 16)`, of a text without blanks, sign and prefix. -/
def parseHex (text : List Char) : Option ℕ :=
  match text.takeWhile isHexDigit with
  | [] => none
  | digits => some (hexValue digits)

/-- A number as it is written into a text. -/
def numberText : Option ℕ → List Char
  | none => ['N', 'a', 'N']
  | some n => Nat.toDigits 10 n

/-- `${shard}.${realm}.${num}`. -/
def accountText (shard realm num : Option ℕ) : List Char :=
  numberText shard ++ '.' :: (numberText realm ++ '.' :: numberText num)

/-- `hederaEvmMappedToAccountId`. -/
def hederaEvmMappedToAccountId (address : List Char) : List Char :=
  let hex := (address.drop 2).map Char.toLower
  accountText (parseHex ((hex.drop 16).take 8)) (parseHex ((hex.drop 24).take 8)) (parseHex ((hex.drop 32).take 8))

/-- `resolveHederaDeployerAddress`, with the accounts that it looks up; the aliases are those of the mirror node. -/
def resolveHederaDeployerAddress (fetchHederaEcdsaAlias : List Char → Option (List Char))
    (rawAddress : List Char) : List (List Char) × List Char :=
  if rawAddress = [] then ([], [])
  else
    let lower := rawAddress.map Char.toLower
    if isHederaEvmMapped lower then
      let accountId := hederaEvmMappedToAccountId lower
      ([accountId], (fetchHederaEcdsaAlias accountId).getD lower)
    else ([], lower)

/-- The account of a shard, a realm and a number. -/
def accountId (shard realm num : ℕ) : List Char := accountText (some shard) (some realm) (some num)

/-- The shard, the realm and the number have an address of 20 bytes that is recognised, read again as the account they
are and looked up as this account, and that no other account has. -/
structure RoundTrips (shard realm num : ℕ) (address : List Char) : Prop where
  encoded : hederaContractIdToEvmAddress (accountId shard realm num) = .ok address
  bytes : ∃ digits, address = '0' :: 'x' :: digits ∧ digits.length = 40 ∧ digits.all isHexDigit = true
  mapped : isHederaEvmMapped address = true
  decoded : hederaEvmMappedToAccountId address = accountId shard realm num
  lookedUp : ∀ aliases, (resolveHederaDeployerAddress aliases address).1 = [accountId shard realm num]
  injective : ∀ shard' realm' num', shard' < 2^32 → realm' < 2^32 → num' < 2^32 →
    hederaContractIdToEvmAddress (accountId shard' realm' num') = .ok address →
    shard' = shard ∧ realm' = realm ∧ num' = num

variable {text : List Char}

/-! ## Hexadecimal digits -/

/-- The text consists of hexadecimal digits as they are written. -/
def Written (text : List Char) : Prop := ∀ c ∈ text, ∃ d < 16, c = Nat.digitChar d

theorem hexDigit_digitChar : ∀ d < 16, hexDigit (Nat.digitChar d) = some d := by decide

theorem toLower_digitChar : ∀ d < 16, (Nat.digitChar d).toLower = Nat.digitChar d := by decide

/-- The digits of a number are hexadecimal digits. -/
theorem written_toDigits (n : ℕ) : Written (Nat.toDigits 16 n) := by
  induction n using Nat.base_induction 16 (by decide) with
  | single m hm =>
    intro c hc
    rw [Nat.toDigits_of_lt_base hm, List.mem_singleton] at hc
    exact ⟨m, hm, hc⟩
  | digit m k hk hm ih =>
    intro c hc
    rw [← Nat.toDigits_append_toDigits (by decide) hm hk, Nat.toDigits_of_lt_base hk] at hc
    rcases List.mem_append.mp hc with hc | hc
    · exact ih c hc
    · exact ⟨k, hk, List.mem_singleton.mp hc⟩

theorem Written.all_isHexDigit (h : Written text) : text.all isHexDigit = true := by
  refine List.all_eq_true.mpr fun c hc => ?_
  obtain ⟨d, hd, rfl⟩ := h c hc
  rw [isHexDigit, hexDigit_digitChar d hd]
  rfl

theorem Written.map_toLower (h : Written text) : text.map Char.toLower = text := by
  have hid : text.map Char.toLower = text.map id := by
    refine List.map_congr_left fun c hc => ?_
    obtain ⟨d, hd, rfl⟩ := h c hc
    exact toLower_digitChar d hd
  rw [hid, List.map_id]

theorem Written.sublist (h : Written text) {part : List Char} (hpart : part.Sublist text) : Written part :=
  fun c hc => h c (hpart.subset hc)

theorem hexValue_append (digits digits' : List Char) :
    hexValue (digits ++ digits') = hexValue digits * 16 ^ digits'.length + hexValue digits' := by
  unfold hexValue
  rw [List.foldl_append]
  generalize List.foldl _ 0 digits = value
  induction digits' using List.reverseRecOn with
  | nil => simp
  | append_singleton digits' c ih =>
    rw [List.foldl_append, List.foldl_append, ih]
    simp only [List.foldl_cons, List.foldl_nil, List.length_append, List.length_singleton]
    ring

theorem Written.hexValue_lt (h : Written text) : hexValue text < 16 ^ text.length := by
  induction text using List.reverseRecOn with
  | nil => decide
  | append_singleton text c ih =>
    have htext := ih (h.sublist (List.sublist_append_left text [c]))
    obtain ⟨d, hd, rfl⟩ := h c (by simp)
    have hdigit : hexValue [Nat.digitChar d] = d := by
      rw [hexValue, List.foldl_cons, List.foldl_nil, hexDigit_digitChar d hd]
      simp
    rw [hexValue_append, hdigit, List.length_append, pow_add]
    simp only [List.length_singleton, pow_one]
    omega

theorem hexValue_toDigits (n : ℕ) : hexValue (Nat.toDigits 16 n) = n := by
  have hdigit : ∀ d < 16, hexValue [Nat.digitChar d] = d := by decide
  induction n using Nat.base_induction 16 (by decide) with
  | single m hm =>
    rw [Nat.toDigits_of_lt_base hm]
    exact hdigit m hm
  | digit m k hk hm ih =>
    rw [← Nat.toDigits_append_toDigits (by decide) hm hk, hexValue_append, ih, Nat.toDigits_of_lt_base hk,
      hdigit k hk, List.length_singleton]
    ring

theorem hexValue_leftpad (width n : ℕ) : hexValue ((Nat.toDigits 16 n).leftpad width '0') = n := by
  have hzeros : ∀ k, hexValue (List.replicate k '0') = 0 := by
    intro k
    induction k with
    | zero => rfl
    | succ k ih => rw [List.replicate_succ', hexValue_append, ih]; rfl
  rw [List.leftpad, hexValue_append, hzeros, hexValue_toDigits]
  omega

theorem written_leftpad (width n : ℕ) : Written ((Nat.toDigits 16 n).leftpad width '0') := by
  intro c hc
  rw [List.leftpad, List.mem_append] at hc
  rcases hc with hc | hc
  · exact ⟨0, by decide, (List.mem_replicate.mp hc).2⟩
  · exact written_toDigits n c hc

theorem Written.parseHex (h : Written text) (hne : text ≠ []) : parseHex text = some (hexValue text) := by
  have htake : text.takeWhile isHexDigit = text := List.takeWhile_eq_self_iff.mpr (List.all_eq_true.mp h.all_isHexDigit)
  unfold HederaAddress.parseHex
  rw [htake]
  split
  · exact absurd rfl hne
  · rfl

theorem middle_digits (a : ℕ) {b c k : ℕ} (hb : b < 16 ^ 8) (hc : c < 16 ^ k) :
    (a * 16 ^ (8 + k) + (b * 16 ^ k + c)) / 16 ^ k % 16 ^ 8 = b := by
  have hpos : 0 < 16 ^ k := Nat.pow_pos (by decide)
  have hsum : a * 16 ^ (8 + k) + (b * 16 ^ k + c) = c + 16 ^ k * (b + 16 ^ 8 * a) := by
    rw [pow_add]
    ring
  rw [hsum, Nat.add_mul_div_left _ _ hpos, Nat.div_eq_of_lt hc, Nat.zero_add, Nat.add_mul_mod_self_left,
    Nat.mod_eq_of_lt hb]

theorem Written.parseHex_slice (h : Written text) (i k : ℕ) (hlength : i + 8 + k = text.length) :
    HederaAddress.parseHex ((text.drop i).take 8) = some (hexValue text / 16 ^ k % 16 ^ 8) := by
  have hslice : Written ((text.drop i).take 8) :=
    h.sublist ((List.take_sublist _ _).trans (List.drop_sublist _ _))
  have hslicelen : ((text.drop i).take 8).length = 8 := by
    rw [List.length_take, List.length_drop]
    omega
  have hrest : Written ((text.drop i).drop 8) :=
    h.sublist ((List.drop_sublist _ _).trans (List.drop_sublist _ _))
  have hrestlen : ((text.drop i).drop 8).length = k := by
    rw [List.length_drop, List.length_drop]
    omega
  have hvalue : hexValue text =
      hexValue (text.take i) * 16 ^ (8 + k) +
        (hexValue ((text.drop i).take 8) * 16 ^ k + hexValue ((text.drop i).drop 8)) := by
    calc hexValue text = hexValue (text.take i ++ ((text.drop i).take 8 ++ (text.drop i).drop 8)) := by
          rw [List.take_append_drop, List.take_append_drop]
      _ = _ := by
          rw [hexValue_append, hexValue_append, List.length_append, hslicelen, hrestlen]
  have hne : (text.drop i).take 8 ≠ [] := by
    intro hnil
    rw [hnil] at hslicelen
    cases hslicelen
  have hlt := hslice.hexValue_lt
  have hrestlt := hrest.hexValue_lt
  rw [hslicelen] at hlt
  rw [hrestlen] at hrestlt
  rw [hslice.parseHex hne, hvalue]
  rw [middle_digits _ hlt hrestlt]

/-! ## Texts of accounts -/

theorem point_notMem_toDigits (n : ℕ) : '.' ∉ Nat.toDigits 10 n := by
  intro hpoint
  exact absurd (Nat.isDigit_of_mem_toDigits (by decide) (by decide) hpoint) (by decide)

theorem splitOn_accountId (shard realm num : ℕ) :
    (accountId shard realm num).splitOn '.' = [Nat.toDigits 10 shard, Nat.toDigits 10 realm, Nat.toDigits 10 num] := by
  unfold accountId accountText numberText
  rw [List.splitOn_append_cons_self, List.splitOn_append_cons_self,
    List.splitOn_eq_singleton (point_notMem_toDigits shard), List.splitOn_eq_singleton (point_notMem_toDigits realm),
    List.splitOn_eq_singleton (point_notMem_toDigits num)]
  rfl

theorem bigInt_toDigits (n : ℕ) : bigInt (Nat.toDigits 10 n) = .ok n := by
  have hdigits : (Nat.toDigits 10 n).all Char.isDigit = true :=
    List.all_eq_true.mpr fun c hc => Nat.isDigit_of_mem_toDigits (by decide) (by decide) hc
  rw [bigInt, if_pos hdigits, Nat.ofDigitChars_ten_toDigits]

/-- Different numbers have different digits. -/
theorem toDigits_inj {n m : ℕ} (h : Nat.toDigits 10 n = Nat.toDigits 10 m) : n = m := by
  rw [← Nat.ofDigitChars_ten_toDigits (n := n), h, Nat.ofDigitChars_ten_toDigits]

/-- Different accounts have different texts. -/
theorem accountId_inj {shard realm num shard' realm' num' : ℕ}
    (h : accountId shard realm num = accountId shard' realm' num') : shard = shard' ∧ realm = realm' ∧ num = num' := by
  have hparts := congrArg (List.splitOn '.') h
  rw [splitOn_accountId, splitOn_accountId] at hparts
  obtain ⟨hshard, hrest⟩ := List.cons.inj hparts
  obtain ⟨hrealm, hrest⟩ := List.cons.inj hrest
  obtain ⟨hnum, -⟩ := List.cons.inj hrest
  exact ⟨toDigits_inj hshard, toDigits_inj hrealm, toDigits_inj hnum⟩

/-! ## The address of an account -/

/-- The digits of an address. -/
def addressDigits (n : ℕ) : List Char := (Nat.toDigits 16 n).leftpad 40 '0'

theorem hederaContractIdToEvmAddress_accountId (shard realm num : ℕ) :
    hederaContractIdToEvmAddress (accountId shard realm num) =
      .ok ('0' :: 'x' :: addressDigits (combined shard realm num)) := by
  unfold hederaContractIdToEvmAddress
  rw [splitOn_accountId]
  simp only [bigInt_toDigits]
  rfl

/-- An address has forty digits. -/
theorem length_addressDigits {n : ℕ} (h : n < 16 ^ 40) : (addressDigits n).length = 40 := by
  have hlength := (Nat.length_toDigits_le_iff (by decide : 1 < 16) (by decide : 0 < 40)).mpr h
  unfold addressDigits
  rw [List.length_leftpad]
  omega

/-- The account is read from the last sixteen digits. -/
theorem hederaEvmMappedToAccountId_address {n : ℕ} (h : n < 16 ^ 40) :
    hederaEvmMappedToAccountId ('0' :: 'x' :: addressDigits n) =
      accountId (n / 2^64 % 2^32) (n / 2^32 % 2^32) (n % 2^32) := by
  have hwritten : Written (addressDigits n) := written_leftpad 40 n
  have hlength := length_addressDigits h
  have hdrop : ('0' :: 'x' :: addressDigits n).drop 2 = addressDigits n := rfl
  have hvalue : hexValue (addressDigits n) = n := hexValue_leftpad 40 n
  unfold hederaEvmMappedToAccountId accountId
  dsimp only
  rw [hdrop, hwritten.map_toLower, hwritten.parseHex_slice 16 16 (by omega), hwritten.parseHex_slice 24 8 (by omega),
    hwritten.parseHex_slice 32 0 (by omega), hvalue]
  norm_num

/-- Different numbers have different addresses. -/
theorem addressDigits_inj {n m : ℕ} (h : addressDigits n = addressDigits m) : n = m := by
  have hvalue := congrArg hexValue h
  unfold addressDigits at hvalue
  rwa [hexValue_leftpad, hexValue_leftpad] at hvalue

theorem isHederaEvmMapped_address {n : ℕ} (h : n < 16 ^ 16) :
    isHederaEvmMapped ('0' :: 'x' :: addressDigits n) = true := by
  have hlength : (addressDigits n).length = 40 := length_addressDigits (h.trans (by decide))
  have hshort := (Nat.length_toDigits_le_iff (by decide : 1 < 16) (by decide : 0 < 16)).mpr h
  have hzeros : (addressDigits n).take 24 = List.replicate 24 '0' := by
    unfold addressDigits
    rw [List.leftpad, List.take_append_of_le_length (by rw [List.length_replicate]; omega), List.take_replicate]
    congr 1
    omega
  have hdigits : ((addressDigits n).drop 24).all isHexDigit = true :=
    ((written_leftpad 40 n).sublist (List.drop_sublist _ _)).all_isHexDigit
  unfold isHederaEvmMapped
  dsimp only
  rw [hlength, hzeros, hdigits]
  decide

/-! ## The fields of an address -/

theorem or_le_add (a b : ℕ) : a ||| b ≤ a + b := by
  induction a using Nat.strong_induction_on generalizing b with
  | h a ih =>
    by_cases hzero : a = 0
    · rw [hzero, Nat.zero_or]
      omega
    · -- The last bit, and the other ones.
      have hhalf := ih (a / 2) (by omega) (b / 2)
      have hdiv : (a ||| b) / 2 = a / 2 ||| b / 2 := Nat.or_div_two
      have hmod : (a ||| b) % 2 = 1 ↔ a % 2 = 1 ∨ b % 2 = 1 := Nat.or_mod_two_eq_one
      omega

theorem combined_le (shard realm num : ℕ) : combined shard realm num ≤ shard * 2^40 + realm * 2^24 + num := by
  unfold combined
  rw [← Nat.shiftLeft_eq, ← Nat.shiftLeft_eq]
  exact (or_le_add _ _).trans (Nat.add_le_add_right (or_le_add _ _) _)

/-- Without shard and realm the number is the account. -/
theorem combined_zero (num : ℕ) : combined 0 0 num = num := by
  unfold combined
  rw [Nat.zero_shiftLeft, Nat.zero_shiftLeft, Nat.or_self, Nat.zero_or]

theorem eq_zero_of_combined_lt {shard realm num : ℕ} (h : combined shard realm num < 2^24) : shard = 0 ∧ realm = 0 := by
  have hshard : shard <<< 40 ≤ combined shard realm num := Nat.left_le_or.trans Nat.left_le_or
  have hrealm : realm <<< 24 ≤ combined shard realm num := Nat.right_le_or.trans Nat.left_le_or
  rw [Nat.shiftLeft_eq] at hshard hrealm
  omega

theorem combined_realm (num : ℕ) : combined 0 (num / 2^24) (num % 2^24) = num := by
  unfold combined
  rw [Nat.zero_shiftLeft, Nat.zero_or, ← Nat.shiftLeft_add_eq_or_of_lt (Nat.mod_lt _ (by decide)), Nat.shiftLeft_eq]
  omega

/-- For every shard, realm and number of 32 bits: their address goes back and forth, is recognised, and belongs to
no other account, if and only if the shard and the realm are 0 and the number is below `2^24`. -/
theorem roundTrips_iff {shard realm num : ℕ} (hshard : shard < 2^32) (hrealm : realm < 2^32) (hnum : num < 2^32) :
    (∃ address, RoundTrips shard realm num address) ↔ shard = 0 ∧ realm = 0 ∧ num < 2^24 := by
  have hle := combined_le shard realm num
  constructor
  · rintro ⟨address, h⟩
    have haddress := h.encoded
    rw [hederaContractIdToEvmAddress_accountId] at haddress
    have heq := Except.ok.inj haddress
    -- The decoder expects the realm and the shard higher than they are, unless they are 0.
    have hzero : shard = 0 ∧ realm = 0 := by
      have hdecoded := h.decoded
      rw [← heq, hederaEvmMappedToAccountId_address (by omega)] at hdecoded
      obtain ⟨hshard', hrealm', hnum'⟩ := accountId_inj hdecoded
      omega
    obtain ⟨rfl, rfl⟩ := hzero
    refine ⟨rfl, rfl, ?_⟩
    -- A number of more than 24 bits has the address of one with a realm.
    by_contra hlarge
    have hother := h.injective 0 (num / 2^24) (num % 2^24) (by decide) (by omega) (by omega) (by
      rw [hederaContractIdToEvmAddress_accountId, combined_realm, ← heq, combined_zero])
    omega
  · rintro ⟨rfl, rfl, hsmall⟩
    have hmapped := isHederaEvmMapped_address (n := num) (by omega)
    have hwritten : Written (addressDigits num) := written_leftpad 40 num
    have hdecoded : hederaEvmMappedToAccountId ('0' :: 'x' :: addressDigits num) = accountId 0 0 num := by
      rw [hederaEvmMappedToAccountId_address (by omega), Nat.div_eq_of_lt (by omega), Nat.div_eq_of_lt (by omega),
        Nat.mod_eq_of_lt hnum]
      rfl
    refine ⟨'0' :: 'x' :: addressDigits num, ?_, ?_, hmapped, hdecoded, ?_, ?_⟩
    · rw [hederaContractIdToEvmAddress_accountId, combined_zero]
    · exact ⟨_, rfl, length_addressDigits (by omega), hwritten.all_isHexDigit⟩
    · intro aliases
      have hlower : ('0' :: 'x' :: addressDigits num).map Char.toLower = '0' :: 'x' :: addressDigits num := by
        rw [List.map_cons, List.map_cons, hwritten.map_toLower]
        rfl
      unfold resolveHederaDeployerAddress
      rw [if_neg (List.cons_ne_nil _ _), hlower]
      dsimp only
      rw [if_pos hmapped, hdecoded]
    · intro shard' realm' num' _ _ _ hsame
      rw [hederaContractIdToEvmAddress_accountId] at hsame
      have hcombined := addressDigits_inj (List.cons.inj (List.cons.inj (Except.ok.inj hsame)).2).2
      obtain ⟨rfl, rfl⟩ := eq_zero_of_combined_lt (hcombined.trans_lt hsmall)
      exact ⟨rfl, rfl, (combined_zero num').symm.trans hcombined⟩

/-- A contract of the testnet. -/
theorem roundTrips_iff_testnet : (∃ address, RoundTrips 0 0 7946509 address) ∧ 7946509 < 2^24 :=
  ⟨(roundTrips_iff (by decide) (by decide) (by decide)).mpr ⟨rfl, rfl, by decide⟩, by decide⟩

/-- The realm 1 is read as a number. -/
theorem not_roundTrips_realm : ¬ ∀ shard realm num, shard < 2^32 → realm < 2^32 → num < 2^32 →
    ∃ address, RoundTrips shard realm num address := by
  intro hall
  obtain ⟨address, h⟩ := hall 0 1 0 (by decide) (by decide) (by decide)
  have haddress := h.encoded
  rw [hederaContractIdToEvmAddress_accountId] at haddress
  have hdecoded := h.decoded
  rw [← Except.ok.inj haddress, hederaEvmMappedToAccountId_address (by decide)] at hdecoded
  exact absurd (accountId_inj hdecoded).2.1 (by decide)

end AuditGuard.HederaAddress
