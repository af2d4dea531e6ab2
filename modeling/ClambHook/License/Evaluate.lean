import ClambHook.Lib.CString
import ClambHook.Lib.CivilDate
import ClambHook.Lib.Retention

/-!
# Licenses

A license is what `ch_license_evaluate` makes of the transactions of a store: whether the app may be
used and why, until when updates are paid for, and which features are unlocked.

The earliest lifetime unlock that is not revoked begins the first term, of one year.  Every paid
update adds a year behind the term before it, or behind its own purchase if that is later.  A
feature is unlocked when it was released before the last term ends.

Times are `ch_timestamp`s, 64-bit numbers of nanoseconds.  The sums wrap.  Of a snapshot the time of
its storage is left out, and of a feature its name: no decision depends on them.
-/

namespace ClambHook.License

open CString CivilDate

/-- Nanoseconds since 1970. -/
abbrev Timestamp := Int64

def nanosecondsPerDay : Int := 86400 * 1000000000

def includedUpdateYears : Int := 1
def legacyTrialMonths : Int := 1
def offlineGraceDays : Int := 7
def lifetimeUnlockProductId : Bytes := bytes "org.jpfchang.clambhook.unlock.lifetime"
def featureUpdateProductId : Bytes := bytes "org.jpfchang.clambhook.feature_update"

/-- A transaction; its product may be missing. -/
structure Transaction where
  productId : Option Bytes
  purchaseDate : Timestamp
  revocationDate : Option Timestamp
deriving DecidableEq, Repr

/-- What is known about the license. -/
structure Snapshot where
  trialStartDate : Option Timestamp
  trialDurationDays : Option Int32
  transactions : List Transaction
  lastVerifiedAt : Option Timestamp
  lastVerificationFailedAt : Option Timestamp
deriving DecidableEq, Repr

inductive SupporterTier where
  | none
  | copper
  | silver
  | gold
deriving DecidableEq, Repr

structure Feature where
  id : Option Bytes
  releaseDate : Timestamp
deriving DecidableEq, Repr

inductive AccessReason where
  | trial
  | lifetime
  | offlineGrace
  | locked
deriving DecidableEq, Repr

structure Decision where
  reason : AccessReason
  trialStartDate : Option Timestamp
  trialEndsAt : Option Timestamp
  trialDaysRemaining : Int
  hasLifetimeUnlock : Bool
  updateCutoffDate : Option Timestamp
  supporterTier : SupporterTier
  supporterActive : Bool
  offlineGraceEndsAt : Option Timestamp
  unlockedFeatureIds : List Bytes
deriving DecidableEq, Repr

/-! ## Dates -/

/-- Midnight UTC. -/
def utcDate (date : Date) : Timestamp :=
  .ofInt (daysFromCivil date * nanosecondsPerDay)

/-- The same time of the day some months later, with the day cut to the length of the month. -/
def addMonthsClamped (timestamp : Timestamp) (months : Int) : Timestamp :=
  let days := timestamp.toInt / nanosecondsPerDay
  let nanosecondsOfDay := timestamp.toInt - days * nanosecondsPerDay
  utcDate (addMonths (civilFromDays days) months) + .ofInt nanosecondsOfDay

def trialEndDate (start : Timestamp) : Timestamp :=
  addMonthsClamped start legacyTrialMonths

def trialEndForSnapshot (snapshot : Snapshot) (start : Timestamp) : Timestamp :=
  match snapshot.trialDurationDays with
  | some days => start + days.toInt64 * .ofInt nanosecondsPerDay
  | none => trialEndDate start

/-! ## Products -/

def isLifetimeProduct (productId : Option Bytes) : Bool :=
  productId == some lifetimeUnlockProductId

/-- The update itself, or one of its variants behind a dot. -/
def isPaidUpdateProduct : Option Bytes → Bool
  | none => false
  | some productId =>
    productId == featureUpdateProductId ||
      (featureUpdateProductId.isPrefixOf productId &&
        productId[featureUpdateProductId.length]? == some 46)

/-- Is the transaction an update that counts? -/
def Transaction.isUpdate (transaction : Transaction) : Bool :=
  transaction.revocationDate.isNone && isPaidUpdateProduct transaction.productId

/-- Is the transaction a lifetime unlock that counts? -/
def Transaction.isLifetime (transaction : Transaction) : Bool :=
  transaction.revocationDate.isNone && isLifetimeProduct transaction.productId

/-- The library's sort of transactions by the date of their purchase. -/
abbrev Qsort := Retention.KeySort fun transaction : Transaction ↦ transaction.purchaseDate.toInt

/-- A term begins where the one before it ends, or with its purchase if that is later. -/
def extendCutoff (cutoff purchaseDate : Timestamp) : Timestamp :=
  addMonthsClamped (if cutoff < purchaseDate then purchaseDate else cutoff) 12

/-- The end of the last term. -/
def updateCutoff (qsort : Qsort) (purchase : Timestamp) (transactions : List Transaction) :
    Timestamp :=
  let updates := qsort.sort (transactions.filter Transaction.isUpdate)
  updates.foldl (fun cutoff update ↦ extendCutoff cutoff update.purchaseDate)
    (addMonthsClamped purchase (12 * includedUpdateYears))

/-! ## Decisions -/

/-- What the loop over the transactions collects: the date of the first lifetime unlock, and the
number of terms that were paid. -/
@[ext]
structure Terms where
  lifetimePurchase : Option Timestamp
  paidTermCount : Nat
deriving DecidableEq, Repr

/-- The earlier of a date and the one found so far. -/
def earlier (found : Option Timestamp) (date : Timestamp) : Timestamp :=
  match found with
  | none => date
  | some found => if date < found then date else found

def Terms.add (terms : Terms) (transaction : Transaction) : Terms :=
  if transaction.revocationDate.isSome then terms
  else
    { lifetimePurchase :=
        if isLifetimeProduct transaction.productId then
          some (earlier terms.lifetimePurchase transaction.purchaseDate)
        else terms.lifetimePurchase
      paidTermCount :=
        if isLifetimeProduct transaction.productId || isPaidUpdateProduct transaction.productId then
          terms.paidTermCount + 1
        else terms.paidTermCount }

def terms (transactions : List Transaction) : Terms :=
  transactions.foldl Terms.add ⟨none, 0⟩

def supporterTier (paidTermCount : Nat) : SupporterTier :=
  if paidTermCount = 1 then .copper
  else if paidTermCount = 2 then .silver
  else if 3 ≤ paidTermCount then .gold
  else .none

def trialEndsAt (snapshot : Snapshot) : Option Timestamp :=
  snapshot.trialStartDate.map (trialEndForSnapshot snapshot)

def trialActive (snapshot : Snapshot) (now : Timestamp) : Bool :=
  (trialEndsAt snapshot).any fun trialEnd ↦ now < trialEnd

/-- The days that are left, as an `int`. -/
def trialDaysRemaining (snapshot : Snapshot) (now : Timestamp) : Int :=
  match trialEndsAt snapshot with
  | none => 0
  | some trialEnd =>
    min (max (trialEnd.toInt / nanosecondsPerDay - now.toInt / nanosecondsPerDay) 0) (2 ^ 31 - 1)

/-- After a failed verification a license is good for some more days. -/
def offlineGraceEndsAt (snapshot : Snapshot) (now : Timestamp) : Option Timestamp :=
  match snapshot.lastVerificationFailedAt with
  | none => none
  | some failedAt =>
    if snapshot.lastVerifiedAt.all fun verifiedAt ↦ verifiedAt ≤ failedAt then
      let graceEnd := failedAt + .ofInt (offlineGraceDays * nanosecondsPerDay)
      if now < graceEnd then some graceEnd else none
    else none

/-- The features of the program itself. -/
def defaultFeatures : List Feature :=
  let releaseDate := utcDate ⟨2026, 6, 3⟩
  [⟨some (bytes "tunnel.routing"), releaseDate⟩, ⟨some (bytes "profile.management"), releaseDate⟩,
    ⟨some (bytes "routing.rules"), releaseDate⟩, ⟨some (bytes "activity.inspection"), releaseDate⟩,
    ⟨some (bytes "http.metadata"), releaseDate⟩, ⟨some (bytes "widgets"), releaseDate⟩]

/-- The name that a feature is unlocked with. -/
def Feature.unlocked (feature : Feature) : Bytes :=
  feature.id.getD []

/-- Why the app may be used. -/
def accessReason (snapshot : Snapshot) (now : Timestamp) (foundLifetime : Bool) : AccessReason :=
  if trialActive snapshot now then .trial
  else if foundLifetime && (offlineGraceEndsAt snapshot now).isSome then .offlineGrace
  else if foundLifetime then .lifetime
  else .locked

def unlockedFeatureIds (reason : AccessReason) (cutoff : Option Timestamp)
    (features : List Feature) : List Bytes :=
  match reason, cutoff with
  | .trial, _ => features.map Feature.unlocked
  | .lifetime, some cutoff | .offlineGrace, some cutoff =>
    (features.filter fun feature ↦ feature.releaseDate ≤ cutoff).map Feature.unlocked
  | _, _ => []

/-- The decision on the terms that were paid and the end of the last one. -/
def decision (snapshot : Snapshot) (features : List Feature) (now : Timestamp) (terms : Terms)
    (cutoff : Option Timestamp) : Decision :=
  let reason := accessReason snapshot now terms.lifetimePurchase.isSome
  { reason
    trialStartDate := snapshot.trialStartDate
    trialEndsAt := trialEndsAt snapshot
    trialDaysRemaining := trialDaysRemaining snapshot now
    hasLifetimeUnlock := terms.lifetimePurchase.isSome
    updateCutoffDate := cutoff
    supporterTier := supporterTier terms.paidTermCount
    supporterActive := cutoff.any fun cutoff ↦ now ≤ cutoff
    offlineGraceEndsAt := offlineGraceEndsAt snapshot now
    unlockedFeatureIds := unlockedFeatureIds reason cutoff features }

/-- `ch_license_evaluate`.  Without a list of features those of the program itself are used. -/
def evaluate (qsort : Qsort) (snapshot : Snapshot) (features : Option (List Feature))
    (now : Timestamp) : Decision :=
  let terms := terms snapshot.transactions
  decision snapshot (features.getD defaultFeatures) now terms
    (terms.lifetimePurchase.map fun purchase ↦ updateCutoff qsort purchase snapshot.transactions)

def Decision.canUseApp (decision : Decision) : Bool :=
  decision.reason ≠ .locked

def Decision.canUseFeature (decision : Decision) (featureId : Bytes) : Bool :=
  decision.canUseApp && decision.unlockedFeatureIds.contains featureId

/-- May an update be installed that was published at a time, if it is known? -/
def Decision.canInstallUpdate (decision : Decision) (publishedAt : Option Timestamp)
    (now : Timestamp) : Bool :=
  match decision.reason, decision.updateCutoffDate with
  | .trial, _ => true
  | .locked, _ | _, none => false
  | _, some cutoff => publishedAt.getD now ≤ cutoff

end ClambHook.License
