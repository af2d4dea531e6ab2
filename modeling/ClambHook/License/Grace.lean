import ClambHook.Json.RoundTrip
import ClambHook.License.Rfc3339

/-!
# Marks of failed verifications

A client that cannot verify its license hands the snapshot to
`ch_license_mark_verification_failure_json` and keeps the snapshot of the answer.  The first failure
begins the days of grace; the marks behind it leave it alone.

A failure only counts when it is not before the last verification.  A mark that is made before it,
by a clock that was set back, does not count and does not stop a later mark from counting.
-/

namespace ClambHook.License

open CString List
open Json (Writable)

/-! ## Snapshots as text -/

/-- A `ch_decoded_snapshot`. -/
structure Decoded where
  snapshot : Snapshot
  cachedAt : Timestamp
  transactionsArray : Bool
deriving DecidableEq, Repr

/-- The value is missing or `null`. -/
def isAbsent : Option Json → Bool
  | none | some .null => true
  | _ => false

def decodeOptionalTime (object : Json) (key : String) : Except Error (Option Timestamp) :=
  let value := Json.objectGet (some object) (bytes key)
  if isAbsent value then .ok none
  else
    match Json.stringValue value with
    | none =>
      .error (.set .parse (bytes "license: " ++ bytes key ++
        bytes " must be an RFC3339 string or null"))
    | some text => (parseRfc3339 (untilNul text)).map some

def decodeTrialDuration (value : Option Json) : Except Error (Option Int32) :=
  if isAbsent value then .ok none
  else
    match value with
    | some (.number number _) =>
      if number < 1 ∨ 366 < number ∨ number.den ≠ 1 then
        .error (.set .parse (bytes "license: trialDurationDays must be between 1 and 366"))
      else .ok (some (.ofInt number.num))
    | _ => .error (.set .parse (bytes "license: trialDurationDays must be an integer or null"))

def decodeCachedAt (value : Option Json) : Except Error Timestamp :=
  if isAbsent value then .ok 0
  else
    match Json.stringValue value with
    | none => .error (.set .parse (bytes "license: cachedAt must be an RFC3339 string"))
    | some text => parseRfc3339 (untilNul text)

def decodeTransaction (item : Json) : Except Error Transaction :=
  if item.isObject then do
    let productId := (Json.stringValue (Json.objectGet (some item) (bytes "productID"))).getD []
    let purchaseDate ← decodeOptionalTime item "purchaseDate"
    let revocationDate ← decodeOptionalTime item "revocationDate"
    return ⟨some (untilNul productId), purchaseDate.getD 0, revocationDate⟩
  else .error (.set .parse (bytes "license: transaction must be an object"))

def decodeTransactions (value : Option Json) : Except Error (List Transaction × Bool) :=
  if isAbsent value then .ok ([], false)
  else
    match value with
    | some (.array items) => (items.mapM decodeTransaction).map fun items ↦ (items, true)
    | _ => .error (.set .parse (bytes "license: transactions must be an array or null"))

def decodeObject (root : Json) : Except Error Decoded :=
  if root.isObject then do
    let trialStartDate ← decodeOptionalTime root "trialStartDate"
    let trialDurationDays ←
      decodeTrialDuration (Json.objectGet (some root) (bytes "trialDurationDays"))
    let lastVerifiedAt ← decodeOptionalTime root "lastVerifiedAt"
    let lastVerificationFailedAt ← decodeOptionalTime root "lastVerificationFailedAt"
    let cachedAt ← decodeCachedAt (Json.objectGet (some root) (bytes "cachedAt"))
    let (transactions, array) ←
      decodeTransactions (Json.objectGet (some root) (bytes "transactions"))
    return ⟨⟨trialStartDate, trialDurationDays, transactions, lastVerifiedAt,
      lastVerificationFailedAt⟩, cachedAt, array⟩
  else .error (.set .parse (bytes "license: snapshot must be a JSON object"))

/-- `ch_decode_snapshot`. -/
def decodeSnapshot (text : Bytes) : Except Error Decoded :=
  let text := text.dropWhile isspace
  if text = [] then .ok ⟨⟨none, none, [], none, none⟩, 0, false⟩
  else Json.parse text >>= decodeObject

def timeJson (timestamp : Timestamp) : Json :=
  .string (formatRfc3339 timestamp)

def optionalTimeJson (time : Option Timestamp) : Json :=
  time.elim .null timeJson

def transactionJson (transaction : Transaction) : Json :=
  .object ([(bytes "productID", .string (transaction.productId.getD [])),
    (bytes "purchaseDate", timeJson transaction.purchaseDate)] ++
    (transaction.revocationDate.map fun date ↦ (bytes "revocationDate", timeJson date)).toList)

/-- The value that `ch_append_snapshot` writes. -/
def snapshotJson (decoded : Decoded) : Json :=
  let snapshot := decoded.snapshot
  .object [(bytes "trialStartDate", optionalTimeJson snapshot.trialStartDate),
    (bytes "trialDurationDays",
      snapshot.trialDurationDays.elim .null fun days ↦ Json.newInt64 days.toInt),
    (bytes "transactions",
      if !decoded.transactionsArray && snapshot.transactions.isEmpty then .null
      else .array (snapshot.transactions.map transactionJson)),
    (bytes "lastVerifiedAt", optionalTimeJson snapshot.lastVerifiedAt),
    (bytes "lastVerificationFailedAt", optionalTimeJson snapshot.lastVerificationFailedAt),
    (bytes "cachedAt", timeJson decoded.cachedAt)]

def AccessReason.name : AccessReason → Bytes
  | .trial => bytes "trial"
  | .lifetime => bytes "lifetime"
  | .offlineGrace => bytes "offlineGrace"
  | .locked => bytes "locked"

def SupporterTier.name : SupporterTier → Bytes
  | .copper => bytes "copper"
  | .silver => bytes "silver"
  | .gold => bytes "gold"
  | .none => bytes "none"

/-- The value that `ch_append_decision` writes. -/
def decisionJson (decision : Decision) : Json :=
  .object [(bytes "reason", .string decision.reason.name),
    (bytes "trialStartDate", optionalTimeJson decision.trialStartDate),
    (bytes "trialEndsAt", optionalTimeJson decision.trialEndsAt),
    (bytes "trialDaysRemaining", Json.newInt64 decision.trialDaysRemaining),
    (bytes "hasLifetimeUnlock", .boolean decision.hasLifetimeUnlock),
    (bytes "updateCutoffDate", optionalTimeJson decision.updateCutoffDate),
    (bytes "supporterTier", .string decision.supporterTier.name),
    (bytes "supporterActive", .boolean decision.supporterActive),
    (bytes "offlineGraceEndsAt", optionalTimeJson decision.offlineGraceEndsAt),
    (bytes "unlockedFeatureIDs", .array (decision.unlockedFeatureIds.map .string))]

/-! ## Marks -/

/-- `ch_license_now`: the given time, or else the clock. -/
def licenseNow (clock : Timestamp) (millis : Int) : Timestamp :=
  if 0 < millis ∧ millis ≤ (2 ^ 63 - 1) / 1000000 then .ofInt (millis * 1000000) else clock

/-- The failure that counts, if there is one. -/
def Decoded.failureStands (decoded : Decoded) : Bool :=
  decoded.snapshot.lastVerificationFailedAt.any fun failed ↦
    decoded.snapshot.lastVerifiedAt.all fun verified ↦ verified ≤ failed

/-- What a mark does to a snapshot. -/
def Decoded.mark (decoded : Decoded) (now : Timestamp) : Decoded :=
  { decoded with
    snapshot.lastVerificationFailedAt :=
      if decoded.failureStands then decoded.snapshot.lastVerificationFailedAt else some now
    cachedAt := now }

variable (qsort : Qsort) (clock : Timestamp)

/-- `ch_license_mark_verification_failure_json`. -/
def markVerificationFailure (text : Bytes) (millis : Int) : Except Error Bytes := do
  let decoded ← decodeSnapshot text
  let now := licenseNow clock millis
  let decoded := decoded.mark now
  return Json.appendValue (.object [(bytes "snapshot", snapshotJson decoded),
    (bytes "decision", decisionJson (evaluate qsort decoded.snapshot none now))])

/-- The deadline that an evaluation reports. -/
def graceDeadline (text : Bytes) (now : Timestamp) : Except Error (Option Timestamp) :=
  (decodeSnapshot text).map fun decoded ↦
    (evaluate qsort decoded.snapshot none now).offlineGraceEndsAt

/-- The client keeps the snapshot of the answer, however it spells it. -/
def Marked (text : Bytes) (millis : Int) (text' : Bytes) : Prop :=
  ∃ answer value snapshot, markVerificationFailure qsort clock text millis = .ok answer ∧
    Json.parse answer = .ok value ∧ Json.objectGet (some value) (bytes "snapshot") = some snapshot ∧
    Json.parse (text'.dropWhile isspace) = .ok snapshot

/-- A snapshot after some more marks, at any times. -/
def Later : Bytes → Bytes → Prop :=
  Relation.ReflTransGen fun text text' ↦ ∃ clock millis, Marked qsort clock text millis text'

/-! ## What is written is read -/

variable {n : Nat}

theorem zero_notMem_padded (width k : Nat) : 0 ∉ padded width k := fun h ↦ by
  have hdigit := isdigit_of_mem_padded h
  cases hdigit

theorem zero_notMem_formatRfc3339 (timestamp : Timestamp) : 0 ∉ formatRfc3339 timestamp := by
  have hyear (year : Int) : 0 ∉ paddedYear year := by
    cases year <;> simp [paddedYear, zero_notMem_padded]
  have hfraction (nanoseconds : Int) : 0 ∉ fractionText nanoseconds := by
    rw [fractionText]
    split
    · rw [mem_cons, not_or]
      exact ⟨by decide, fun h ↦ zero_notMem_padded _ _ ((List.rdropWhile_prefix _ _).subset h)⟩
    · simp
  simp [formatRfc3339, hyear, hfraction, zero_notMem_padded]

theorem writable_timeJson (timestamp : Timestamp) : Writable (n + 1) (timeJson timestamp) :=
  .string (zero_notMem_formatRfc3339 timestamp)

theorem writable_optionalTimeJson (time : Option Timestamp) :
    Writable (n + 1) (optionalTimeJson time) := by
  cases time with
  | none => exact .null
  | some timestamp => exact writable_timeJson timestamp

theorem writable_transactionJson {transaction : Transaction}
    (h : ∀ productId ∈ transaction.productId, 0 ∉ productId) :
    Writable (n + 2) (transactionJson transaction) := by
  refine .object fun m hm ↦ ?_
  rw [mem_append, mem_cons, mem_singleton] at hm
  rcases hm with (rfl | rfl) | hm
  · refine ⟨by simp only; decide, .string ?_⟩
    cases hid : transaction.productId with
    | none => simp
    | some productId => exact h productId hid
  · exact ⟨by simp only; decide, writable_timeJson _⟩
  · obtain ⟨date, -, rfl⟩ := Option.map_eq_some_iff.1 (Option.mem_toList.1 hm)
    exact ⟨by simp only; decide, writable_timeJson _⟩

variable {decoded : Decoded}

theorem writable_snapshotJson
    (h : ∀ t ∈ decoded.snapshot.transactions, ∀ productId ∈ t.productId, 0 ∉ productId) :
    Writable 4 (snapshotJson decoded) := by
  refine .object ?_
  simp only [forall_mem_cons, not_mem_nil, false_implies, implies_true, and_true]
  refine ⟨⟨by decide, writable_optionalTimeJson _⟩, ⟨by decide, ?_⟩, ⟨by decide, ?_⟩,
    ⟨by decide, writable_optionalTimeJson _⟩, ⟨by decide, writable_optionalTimeJson _⟩,
    by decide, writable_timeJson _⟩
  · cases decoded.snapshot.trialDurationDays with
    | none => exact .null
    | some days =>
      have hlow := days.le_toInt
      have hhigh := days.toInt_lt
      exact .newInt64 (by rw [longMin]; omega) (by rw [longMax]; omega)
  · split
    · exact .null
    · refine .array fun item hitem ↦ ?_
      obtain ⟨t, ht, rfl⟩ := mem_map.1 hitem
      exact writable_transactionJson (h t ht)

theorem zero_notMem_unlockedFeatureIds (reason : AccessReason) (cutoff : Option Timestamp) :
    ∀ id ∈ unlockedFeatureIds reason cutoff defaultFeatures, 0 ∉ id := by
  have hnames : ∀ feature ∈ defaultFeatures, 0 ∉ feature.unlocked := by decide
  intro id hid
  have hmem : ∃ feature ∈ defaultFeatures, feature.unlocked = id := by
    unfold unlockedFeatureIds at hid
    split at hid
    case h_1 => exact mem_map.1 hid
    case h_2 | h_3 =>
      obtain ⟨feature, hfeature, hname⟩ := mem_map.1 hid
      exact ⟨feature, mem_of_mem_filter hfeature, hname⟩
    case h_4 => cases hid
  obtain ⟨feature, hfeature, rfl⟩ := hmem
  exact hnames feature hfeature

theorem writable_decisionJson (snapshot : Snapshot) (now : Timestamp) :
    Writable 4 (decisionJson (evaluate qsort snapshot none now)) := by
  refine .object ?_
  simp only [forall_mem_cons, not_mem_nil, false_implies, implies_true, and_true]
  refine ⟨⟨by decide, .string ?_⟩, ⟨by decide, writable_optionalTimeJson _⟩,
    ⟨by decide, writable_optionalTimeJson _⟩, ⟨by decide, .newInt64 ?_ ?_⟩, ⟨by decide, .boolean _⟩,
    ⟨by decide, writable_optionalTimeJson _⟩, ⟨by decide, .string ?_⟩, ⟨by decide, .boolean _⟩,
    ⟨by decide, writable_optionalTimeJson _⟩, by decide, .array fun item hitem ↦ ?_⟩
  · generalize (evaluate qsort snapshot none now).reason = reason
    cases reason <;> decide
  · change longMin ≤ trialDaysRemaining snapshot now
    rw [trialDaysRemaining, longMin]
    split <;> omega
  · change trialDaysRemaining snapshot now ≤ longMax
    rw [trialDaysRemaining, longMax]
    split <;> omega
  · generalize (evaluate qsort snapshot none now).supporterTier = tier
    cases tier <;> decide
  · obtain ⟨id, hid, rfl⟩ := mem_map.1 hitem
    exact .string (zero_notMem_unlockedFeatureIds _ _ id hid)

theorem decodeObject_eq_ok {root : Json} (h : decodeObject root = .ok decoded) :
    decodeOptionalTime root "lastVerifiedAt" = .ok decoded.snapshot.lastVerifiedAt ∧
      decodeOptionalTime root "lastVerificationFailedAt" =
        .ok decoded.snapshot.lastVerificationFailedAt ∧
      decodeTransactions (Json.objectGet (some root) (bytes "transactions")) =
        .ok (decoded.snapshot.transactions, decoded.transactionsArray) := by
  rw [decodeObject] at h
  split at h
  · simp only [bind_eq_ok_iff, Prod.exists] at h
    obtain ⟨_, -, _, -, verified, hverified, failed, hfailed, _, -, transactions, array,
      htransactions, h⟩ := h
    cases h
    exact ⟨hverified, hfailed, htransactions⟩
  · cases h

variable {text : Bytes}

theorem decodeSnapshot_eq_ok
    (h : decodeSnapshot text = .ok decoded) : decoded.snapshot.transactions = [] ∨
      ∃ root, Json.parse (text.dropWhile isspace) = .ok root ∧ decodeObject root = .ok decoded := by
  simp only [decodeSnapshot] at h
  split at h
  · cases h
    exact .inl rfl
  · exact .inr (bind_eq_ok_iff.1 h)

theorem zero_notMem_of_decodeTransactions {value : Option Json} {transactions : List Transaction}
    {array : Bool} (h : decodeTransactions value = .ok (transactions, array)) :
    ∀ t ∈ transactions, ∀ productId ∈ t.productId, 0 ∉ productId := by
  intro t ht productId hproductId
  unfold decodeTransactions at h
  split at h
  · cases h
    cases ht
  split at h
  · obtain ⟨found, hitems, heq⟩ := map_eq_ok_iff.1 h
    cases heq
    obtain ⟨item, -, hitem⟩ := (mem_mapM_iff hitems).1 ht
    rw [decodeTransaction] at hitem
    split at hitem
    · simp only [bind_eq_ok_iff] at hitem
      obtain ⟨_, -, _, -, hitem⟩ := hitem
      cases hitem
      cases hproductId
      exact zero_notMem_untilNul _
    · cases hitem
  · cases h

/-- A decoded product has no NUL. -/
theorem zero_notMem_productId (h : decodeSnapshot text = .ok decoded) :
    ∀ t ∈ decoded.snapshot.transactions, ∀ productId ∈ t.productId, 0 ∉ productId := by
  rcases decodeSnapshot_eq_ok h with hnil | ⟨root, -, hroot⟩
  · simp [hnil]
  · exact zero_notMem_of_decodeTransactions (decodeObject_eq_ok hroot).2.2

theorem decodeOptionalTime_eq {root : Json} {key : String} {time found : Option Timestamp}
    (hroot : Json.objectGet (some root) (bytes key) = some (optionalTimeJson time))
    (h : decodeOptionalTime root key = .ok found) : found = time := by
  rw [decodeOptionalTime] at h
  simp only [hroot] at h
  cases time with
  | none =>
    cases h
    rfl
  | some timestamp =>
    obtain ⟨read, hread, heq⟩ := map_eq_ok_iff.1
      (show (parseRfc3339 (untilNul (formatRfc3339 timestamp))).map some = .ok found from h)
    rw [untilNul_eq_self (zero_notMem_formatRfc3339 timestamp)] at hread
    rw [← heq, (eq_of_parse_format hread).1]

theorem decodeSnapshot_of_parse {root : Json}
    (htext : Json.parse (text.dropWhile isspace) = .ok root) :
    decodeSnapshot text = decodeObject root := by
  have hne : text.dropWhile isspace ≠ [] := by
    intro hnil
    rw [hnil] at htext
    obtain ⟨rest, hrest, -⟩ := Json.parse_eq_ok_iff.1 htext
    cases hrest
  simp only [decodeSnapshot, if_neg hne, htext, ok_bind]

theorem decode_snapshotJson {found : Decoded}
    (htext : Json.parse (text.dropWhile isspace) = .ok (snapshotJson decoded))
    (h : decodeSnapshot text = .ok found) :
    found.snapshot.lastVerifiedAt = decoded.snapshot.lastVerifiedAt ∧
      found.snapshot.lastVerificationFailedAt = decoded.snapshot.lastVerificationFailedAt := by
  rw [decodeSnapshot_of_parse htext] at h
  obtain ⟨hverified, hfailed, -⟩ := decodeObject_eq_ok h
  exact ⟨decodeOptionalTime_eq rfl hverified, decodeOptionalTime_eq rfl hfailed⟩

/-! ## The deadline -/

variable {qsort} {clock}

/-- The answer to a mark is read as it was written. -/
theorem writable_answer (h : decodeSnapshot text = .ok decoded) (now : Timestamp) :
    Writable 5 (.object [(bytes "snapshot", snapshotJson (decoded.mark now)),
      (bytes "decision", decisionJson (evaluate qsort (decoded.mark now).snapshot none now))]) := by
  have hproducts := zero_notMem_productId h
  refine .object ?_
  simp only [forall_mem_cons, not_mem_nil, false_implies, implies_true, and_true]
  exact ⟨⟨by decide, writable_snapshotJson hproducts⟩, by decide, writable_decisionJson _ _ _⟩

def textOf (decoded : Decoded) : Bytes := Json.appendValue (snapshotJson decoded)

theorem parse_textOf
    (h : ∀ t ∈ decoded.snapshot.transactions, ∀ productId ∈ t.productId, 0 ∉ productId) :
    Json.parse ((textOf decoded).dropWhile isspace) = .ok (snapshotJson decoded) := by
  have hdrop : (textOf decoded).dropWhile isspace = textOf decoded := by
    rw [textOf, snapshotJson, Json.appendValue]
    rfl
  rw [hdrop]
  exact (writable_snapshotJson h).parse (by decide)

variable {millis : Int} {now : Timestamp}

/-- Every snapshot that is read can be marked. -/
theorem marked_mark (h : decodeSnapshot text = .ok decoded)
    (hnow : licenseNow clock millis = now) :
    Marked qsort clock text millis (textOf (decoded.mark now)) := by
  have hproducts := zero_notMem_productId h
  subst hnow
  exact ⟨_, _, _, bind_eq_ok_iff.2 ⟨decoded, h, rfl⟩, (writable_answer h _).parse (by decide), rfl,
    parse_textOf hproducts⟩

variable {text' : Bytes}

/-- A mark: what the client keeps is read as the marked snapshot. -/
theorem Marked.exists_decoded
    (h : Marked qsort clock text millis text') : ∃ decoded, decodeSnapshot text = .ok decoded ∧
      ∀ found, decodeSnapshot text' = .ok found →
        found.snapshot.lastVerifiedAt = decoded.snapshot.lastVerifiedAt ∧
        found.snapshot.lastVerificationFailedAt =
          (decoded.mark (licenseNow clock millis)).snapshot.lastVerificationFailedAt := by
  obtain ⟨answer, value, snapshot, hanswer, hvalue, hsnapshot, htext'⟩ := h
  obtain ⟨decoded, hdecoded, hanswer⟩ := bind_eq_ok_iff.1 hanswer
  cases hanswer
  cases ((writable_answer hdecoded _).parse (by decide)).symm.trans hvalue
  cases hsnapshot
  exact ⟨decoded, hdecoded, fun found hfound ↦ decode_snapshotJson htext' hfound⟩

/-- The text is read with a failure that counts. -/
def Standing (verified failed : Option Timestamp) (text : Bytes) : Prop :=
  ∀ decoded, decodeSnapshot text = .ok decoded → decoded.failureStands = true ∧
    decoded.snapshot.lastVerifiedAt = verified ∧
    decoded.snapshot.lastVerificationFailedAt = failed

section

variable {verified failed : Option Timestamp} (hstands : Standing verified failed text)

include hstands

/-- A failure that counts stays. -/
theorem Standing.marked (h : Marked qsort clock text millis text') :
    Standing verified failed text' := by
  obtain ⟨decoded, hdecoded, hback⟩ := h.exists_decoded
  obtain ⟨hcounts, rfl, rfl⟩ := hstands decoded hdecoded
  intro found hfound
  obtain ⟨hverified, hfailed⟩ := hback found hfound
  have hkept : (decoded.mark (licenseNow clock millis)).snapshot.lastVerificationFailedAt =
      decoded.snapshot.lastVerificationFailedAt := if_pos hcounts
  rw [hkept] at hfailed
  refine ⟨?_, hverified, hfailed⟩
  rw [Decoded.failureStands, hverified, hfailed]
  exact hcounts

theorem Standing.later (h : Later qsort text text') : Standing verified failed text' := by
  induction h with
  | refl => exact hstands
  | tail _ hstep ih =>
    obtain ⟨clock, millis, hmarked⟩ := hstep
    exact ih.marked hmarked

end

/-- The mark is not made before the last verification, if no failure counts yet. -/
def Timely (text : Bytes) (now : Timestamp) : Prop :=
  ∀ decoded, decodeSnapshot text = .ok decoded → decoded.failureStands = false →
    ∀ verified ∈ decoded.snapshot.lastVerifiedAt, verified ≤ now

theorem Marked.exists_standing
    (h : Marked qsort clock text millis text') (htimely : Timely text (licenseNow clock millis)) :
    ∃ verified failed, Standing verified failed text' := by
  obtain ⟨decoded, hdecoded, hback⟩ := h.exists_decoded
  refine ⟨_, _, fun found hfound ↦ ⟨?_, hback found hfound⟩⟩
  obtain ⟨hverified, hfailed⟩ := hback found hfound
  rw [Decoded.failureStands, hverified, hfailed]
  by_cases hcounts : decoded.failureStands = true
  · rw [show (decoded.mark (licenseNow clock millis)).snapshot.lastVerificationFailedAt =
      decoded.snapshot.lastVerificationFailedAt from if_pos hcounts]
    exact hcounts
  · rw [show (decoded.mark (licenseNow clock millis)).snapshot.lastVerificationFailedAt =
      some (licenseNow clock millis) from if_neg hcounts]
    have hbefore := htimely decoded hdecoded (Bool.eq_false_iff.2 hcounts)
    cases hcase : decoded.snapshot.lastVerifiedAt with
    | none => rfl
    | some verified => exact decide_eq_true (hbefore verified hcase)

theorem graceDeadline_eq_ok_iff {deadline : Option Timestamp} :
    graceDeadline qsort text now = .ok deadline ↔ ∃ decoded, decodeSnapshot text = .ok decoded ∧
      offlineGraceEndsAt decoded.snapshot now = deadline := by
  rw [graceDeadline, map_eq_ok_iff]
  rfl

/-- Grace that is over does not come back. -/
theorem offlineGraceEndsAt_none {snapshot : Snapshot} {now' : Timestamp} (hle : now ≤ now')
    (h : offlineGraceEndsAt snapshot now = none) : offlineGraceEndsAt snapshot now' = none := by
  rw [offlineGraceEndsAt] at h ⊢
  cases hfailed : snapshot.lastVerificationFailedAt with
  | none => rfl
  | some failed =>
    simp only [hfailed] at h ⊢
    split
    · rename_i hcounts
      rw [if_pos hcounts] at h
      split at h
      · cases h
      · rename_i hover
        exact if_neg fun hlt ↦ hover (Int64.lt_of_le_of_lt hle hlt)
    · rfl

/-- The marks behind a snapshot leave the deadline alone, and grace that is over does not come
back. -/
def Unstretched (qsort : Qsort) (text : Bytes) : Prop :=
  ∀ before behind, Later qsort text before → Later qsort before behind →
    (∀ now deadline deadline', graceDeadline qsort before now = .ok deadline →
      graceDeadline qsort behind now = .ok deadline' → deadline' = deadline) ∧
    (∀ now now' deadline', now ≤ now' → graceDeadline qsort before now = .ok none →
      graceDeadline qsort behind now' = .ok deadline' → deadline' = none)

/-- **The days of grace cannot be stretched**, if the first mark is not made before the last
verification. -/
theorem marks_unstretched {text text' : Bytes} {millis : Int}
    (h : Marked qsort clock text millis text') (htimely : Timely text (licenseNow clock millis)) :
    Unstretched qsort text' := by
  obtain ⟨verified, failed, hstands⟩ := h.exists_standing htimely
  intro before behind hbefore hbehind
  have hsame (now : Timestamp) (deadline : Option Timestamp)
      (hdeadline : graceDeadline qsort before now = .ok deadline) (now' : Timestamp)
      (deadline' : Option Timestamp)
      (hdeadline' : graceDeadline qsort behind now' = .ok deadline') :
      ∃ snapshot, offlineGraceEndsAt snapshot now = deadline ∧
        offlineGraceEndsAt snapshot now' = deadline' := by
    obtain ⟨decoded, hdecoded, rfl⟩ := graceDeadline_eq_ok_iff.1 hdeadline
    obtain ⟨decoded', hdecoded', rfl⟩ := graceDeadline_eq_ok_iff.1 hdeadline'
    obtain ⟨-, hverified, hfailed⟩ := hstands.later hbefore decoded hdecoded
    obtain ⟨-, hverified', hfailed'⟩ := (hstands.later hbefore).later hbehind decoded' hdecoded'
    refine ⟨decoded.snapshot, rfl, ?_⟩
    rw [offlineGraceEndsAt, offlineGraceEndsAt, hverified, hfailed, hverified', hfailed']
  refine ⟨fun now deadline deadline' hdeadline hdeadline' ↦ ?_,
    fun now now' deadline' hle hdeadline hdeadline' ↦ ?_⟩
  · obtain ⟨snapshot, rfl, rfl⟩ := hsame now deadline hdeadline now deadline' hdeadline'
    rfl
  · obtain ⟨snapshot, hnone, rfl⟩ := hsame now none hdeadline now' deadline' hdeadline'
    exact offlineGraceEndsAt_none hle hnone

/-- A license that was verified on 10 July 2026, after a mark of 1 July and after one of 11 July. -/
def verified : Decoded := ⟨⟨none, none, [], some (utcDate ⟨2026, 7, 10⟩), none⟩, 0, false⟩
def early : Decoded := verified.mark (utcDate ⟨2026, 7, 1⟩)
def late : Decoded := verified.mark (utcDate ⟨2026, 7, 11⟩)

def someSort : Qsort := Retention.sortBefore _ ⟨none, 0, none⟩

/-- The license after the marks of both days. -/
def both : Decoded := early.mark (utcDate ⟨2026, 7, 11⟩)

theorem decode_verified : decodeSnapshot (textOf verified) = .ok verified := by
  rw [decodeSnapshot_of_parse (parse_textOf (by decide))]
  decide +kernel

theorem decode_early : decodeSnapshot (textOf early) = .ok early := by
  rw [decodeSnapshot_of_parse (parse_textOf (by decide))]
  decide +kernel

theorem decode_late : decodeSnapshot (textOf late) = .ok late ∧
    decodeSnapshot (textOf both) = .ok both := by
  rw [decodeSnapshot_of_parse (parse_textOf (by decide)),
    decodeSnapshot_of_parse (parse_textOf (by decide))]
  decide +kernel

theorem licenseNow_july : licenseNow 0 1782864000000 = utcDate ⟨2026, 7, 1⟩ ∧
    licenseNow 0 1783728000000 = utcDate ⟨2026, 7, 11⟩ := by
  decide +kernel

/-- A mark of 11 July. -/
theorem marks_unstretched_july :
    Marked someSort 0 (textOf verified) 1783728000000 (textOf late) ∧
    Unstretched someSort (textOf late) ∧
    graceDeadline someSort (textOf late) (utcDate ⟨2026, 7, 12⟩) =
      .ok (some (utcDate ⟨2026, 7, 18⟩)) := by
  have hmarked : Marked someSort 0 (textOf verified) 1783728000000 (textOf late) :=
    marked_mark decode_verified licenseNow_july.2
  refine ⟨hmarked, marks_unstretched hmarked fun decoded h hstands ↦ ?_,
    graceDeadline_eq_ok_iff.2 ⟨late, decode_late.1, by decide +kernel⟩⟩
  rw [decode_verified, Except.ok.injEq] at h
  rw [← h, licenseNow_july.2]
  intro time htime
  cases htime
  decide +kernel

/-- By a clock that was set back, the first mark does not count, and the next one does. -/
theorem mark_before_verification : ¬ ∀ text text' millis,
    Marked someSort 0 text millis text' → Unstretched someSort text' := by
  intro h
  have hunstretched := h _ (textOf early) 1782864000000
    (marked_mark decode_verified licenseNow_july.1)
  have hmarked : Marked someSort 0 (textOf early) 1783728000000 (textOf both) :=
    marked_mark decode_early licenseNow_july.2
  have hnone := (hunstretched _ _ .refl (.single ⟨0, 1783728000000, hmarked⟩)).2
    (utcDate ⟨2026, 7, 12⟩) (utcDate ⟨2026, 7, 12⟩) (some (utcDate ⟨2026, 7, 18⟩))
    (by decide +kernel)
    (graceDeadline_eq_ok_iff.2 ⟨early, decode_early, by decide +kernel⟩)
    (graceDeadline_eq_ok_iff.2 ⟨_, decode_late.2, by decide +kernel⟩)
  cases hnone

end ClambHook.License
