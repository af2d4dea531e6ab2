import ClambHook.License.Evaluate

/-!
# What a transaction changes

The decision on a license does not depend on the order of the transactions, nor on the order that
the library's sort leaves equal dates in (`evaluate_perm`).

A transaction that is added adds to what is granted, with one exception.  The first term begins with
the earliest lifetime unlock, so a lifetime unlock that is earlier than all others moves all terms
to an earlier time.

A term that begins on a leap day ends on the last day of a February, so the order of two times is
not kept by a year in general.  It is kept here, for no term ends on a leap day: a term that begins
on one begins with a purchase, whatever the end of the term before it.
-/

namespace ClambHook.License

open CString CivilDate List Option

/-! ## The order of the transactions -/

theorem toInt_earlier_some (found date : Timestamp) :
    (earlier (some found) date).toInt = min date.toInt found.toInt := by
  rw [earlier]
  by_cases h : date < found
  · rw [if_pos h, min_eq_left (Int64.lt_iff_toInt_lt.1 h).le]
  · rw [if_neg h, min_eq_right (Int64.le_iff_toInt_le.1 (Int64.not_lt.1 h))]

theorem earlier_le (found : Option Timestamp) (date : Timestamp) : earlier found date ≤ date := by
  cases found with
  | none => exact Int64.le_refl _
  | some found =>
    rw [Int64.le_iff_toInt_le, toInt_earlier_some]
    exact min_le_left _ _

theorem earlier_some_le (found date : Timestamp) : earlier (some found) date ≤ found := by
  rw [Int64.le_iff_toInt_le, toInt_earlier_some]
  exact min_le_right _ _

theorem earlier_earlier (found : Option Timestamp) (date date' : Timestamp) :
    earlier (some (earlier found date)) date' = earlier (some (earlier found date')) date := by
  rw [← Int64.toInt_inj, toInt_earlier_some, toInt_earlier_some]
  cases found with
  | none => exact min_comm _ _
  | some found => rw [toInt_earlier_some, toInt_earlier_some, min_left_comm]

theorem Terms.lifetimePurchase_add (terms : Terms) (t : Transaction) :
    (terms.add t).lifetimePurchase =
      if t.isLifetime then some (earlier terms.lifetimePurchase t.purchaseDate)
      else terms.lifetimePurchase := by
  rw [Terms.add, Transaction.isLifetime]
  cases t.revocationDate <;> rfl

theorem Terms.paidTermCount_add (terms : Terms) (t : Transaction) :
    (terms.add t).paidTermCount =
      terms.paidTermCount + if t.isLifetime || t.isUpdate then 1 else 0 := by
  rw [Terms.add, Transaction.isLifetime, Transaction.isUpdate]
  cases t.revocationDate with
  | some date => rfl
  | none =>
    simp only [isSome_none, isNone_none, Bool.false_eq_true, if_false, Bool.true_and]
    split <;> rfl

theorem Terms.add_add (terms : Terms) (t u : Transaction) :
    (terms.add t).add u = (terms.add u).add t := by
  refine Terms.ext ?_ ?_
  · simp only [Terms.lifetimePurchase_add]
    by_cases ht : t.isLifetime <;> by_cases hu : u.isLifetime <;>
      simp only [ht, hu, if_true, if_false, Bool.false_eq_true]
    exact congrArg some (earlier_earlier _ _ _)
  · simp only [Terms.paidTermCount_add]
    omega

variable {transactions transactions' : List Transaction}

theorem terms_perm
    (h : transactions.Perm transactions') : terms transactions = terms transactions' :=
  h.foldl_eq' (fun t _ u _ terms ↦ terms.add_add t u) _

/-- The dates of the updates that count, sorted. -/
def updateDates (qsort : Qsort) (transactions : List Transaction) : List Timestamp :=
  (qsort.sort (transactions.filter Transaction.isUpdate)).map Transaction.purchaseDate

theorem sorted_updateDates (qsort : Qsort) (transactions : List Transaction) :
    (updateDates qsort transactions).Pairwise fun a b ↦ a ≤ b := by
  refine pairwise_map.2 ((qsort.sorted _).imp fun h ↦ ?_)
  exact Int64.le_iff_toInt_le.2 h

theorem updateDates_perm (qsort : Qsort) (transactions : List Transaction) :
    (updateDates qsort transactions).Perm
      ((transactions.filter Transaction.isUpdate).map Transaction.purchaseDate) :=
  (qsort.perm _).map _

/-- Sorted dates are the same when the dates are. -/
theorem eq_of_sorted {dates dates' : List Timestamp} (hsorted : dates.Pairwise fun a b ↦ a ≤ b)
    (hsorted' : dates'.Pairwise fun a b ↦ a ≤ b) (hperm : dates.Perm dates') : dates = dates' :=
  hperm.eq_of_pairwise (fun _ _ _ _ hle hge ↦ Int64.le_antisymm hle hge) hsorted hsorted'

theorem updateDates_eq (qsort qsort' : Qsort)
    (h : transactions.Perm transactions') :
    updateDates qsort transactions = updateDates qsort' transactions' :=
  eq_of_sorted (sorted_updateDates _ _) (sorted_updateDates _ _)
    ((updateDates_perm _ _).trans
      (((h.filter _).map _).trans (updateDates_perm qsort' transactions').symm))

theorem updateCutoff_eq (qsort : Qsort) (purchase : Timestamp) (transactions : List Transaction) :
    updateCutoff qsort purchase transactions =
      (updateDates qsort transactions).foldl extendCutoff (addMonthsClamped purchase 12) := by
  rw [updateDates, foldl_map]
  rfl

/-- **The order of the transactions does not matter.** -/
theorem evaluate_perm (qsort qsort' : Qsort) (snapshot : Snapshot)
    (features : Option (List Feature)) (now : Timestamp)
    (h : transactions.Perm snapshot.transactions) :
    evaluate qsort' { snapshot with transactions } features now =
      evaluate qsort snapshot features now := by
  simp only [evaluate, updateCutoff_eq, terms_perm h, updateDates_eq qsort' qsort h]
  rfl

/-! ## Terms without a bound -/

/-- A year later. -/
def addYear (time : Int) : Int :=
  daysFromCivil (addMonths (civilFromDays (time / nanosecondsPerDay)) 12) * nanosecondsPerDay +
    time % nanosecondsPerDay

/-- The end of a term, as if times had no bound. -/
def termEnd (cutoff purchaseDate : Int) : Int :=
  addYear (max cutoff purchaseDate)

/-- The time is on a leap day. -/
def OnLeapDay (time : Int) : Prop :=
  (civilFromDays (time / nanosecondsPerDay)).LeapDay

theorem lt_addYear (time : Int) : time < addYear time := by
  have hday := @lt_addMonths 12 (by decide) (time / nanosecondsPerDay)
  rw [addYear]
  simp only [nanosecondsPerDay] at *
  omega

theorem addYear_div (time : Int) :
    addYear time / nanosecondsPerDay =
      daysFromCivil (addMonths (civilFromDays (time / nanosecondsPerDay)) 12) := by
  rw [addYear]
  simp only [nanosecondsPerDay] at *
  omega

theorem not_onLeapDay_addYear (time : Int) : ¬ OnLeapDay (addYear time) := by
  have hvalid := (valid_civilFromDays (time / nanosecondsPerDay)).1
  rw [OnLeapDay, addYear_div, (valid_addMonths hvalid 12).civilFromDays_daysFromCivil]
  exact not_leapDay_addMonths_twelve hvalid

theorem addYear_le {time time' : Int} (hle : time ≤ time') (hleap : ¬ OnLeapDay time') :
    addYear time ≤ addYear time' := by
  rcases (Int.ediv_le_ediv (show 0 < nanosecondsPerDay by decide) hle).eq_or_lt with hday | hday
  · rw [addYear, addYear, hday]
    simp only [nanosecondsPerDay] at *
    omega
  · have hlt := addMonths_twelve_lt hday hleap
    rw [addYear, addYear]
    simp only [nanosecondsPerDay] at *
    omega

theorem lt_termEnd (cutoff purchaseDate : Int) : cutoff < termEnd cutoff purchaseDate :=
  (le_max_left _ _).trans_lt (lt_addYear _)

theorem termEnd_le {cutoff cutoff' : Int} (purchaseDate : Int) (hle : cutoff ≤ cutoff')
    (hleap : ¬ OnLeapDay cutoff') : termEnd cutoff purchaseDate ≤ termEnd cutoff' purchaseDate := by
  rw [termEnd, termEnd]
  rcases le_total cutoff' purchaseDate with h | h
  · rw [max_eq_right h, max_eq_right (hle.trans h)]
  · rw [max_eq_left h]
    exact addYear_le (max_le hle h) hleap

/-- The end of the last term. -/
def lastTermEnd (cutoff : Int) (dates : List Int) : Int :=
  dates.foldl termEnd cutoff

theorem lastTermEnd_cons (cutoff date : Int) (dates : List Int) :
    lastTermEnd cutoff (date :: dates) = lastTermEnd (termEnd cutoff date) dates := by
  rw [lastTermEnd, lastTermEnd, foldl_cons]

theorem le_lastTermEnd (dates : List Int) (cutoff : Int) : cutoff ≤ lastTermEnd cutoff dates := by
  induction dates generalizing cutoff with
  | nil => exact le_rfl
  | cons date dates ih => exact (lt_termEnd cutoff date).le.trans (ih _)

theorem lastTermEnd_mono (dates : List Int) {cutoff cutoff' : Int} (hle : cutoff ≤ cutoff')
    (hleap : ¬ OnLeapDay cutoff') : lastTermEnd cutoff dates ≤ lastTermEnd cutoff' dates := by
  induction dates generalizing cutoff cutoff' with
  | nil => exact hle
  | cons date dates ih =>
    exact ih (termEnd_le date hle hleap) (not_onLeapDay_addYear _)

/-- A term more does not move the last one to an earlier time. -/
theorem lastTermEnd_insert (front back : List Int) (date cutoff : Int) :
    lastTermEnd cutoff (front ++ back) ≤ lastTermEnd cutoff (front ++ date :: back) := by
  rw [lastTermEnd, lastTermEnd, foldl_append, foldl_append, foldl_cons]
  exact lastTermEnd_mono back (lt_termEnd _ date).le (not_onLeapDay_addYear _)

/-! ## Terms with timestamps -/

theorem toInt_addMonthsClamped {timestamp : Timestamp} (h : addYear timestamp.toInt < 2 ^ 63) :
    (addMonthsClamped timestamp 12).toInt = addYear timestamp.toInt := by
  have hlower := timestamp.le_toInt
  have hlater := lt_addYear timestamp.toInt
  have hsum : addMonthsClamped timestamp 12 = Int64.ofInt (addYear timestamp.toInt) := by
    rw [addMonthsClamped, utcDate, ← Int64.ofInt_add, addYear]
    congr 2
    simp only [nanosecondsPerDay] at *
    omega
  rw [hsum, Int64.toInt_ofInt_of_le (by omega) h]

theorem toInt_extendCutoff {cutoff date : Timestamp}
    (h : termEnd cutoff.toInt date.toInt < 2 ^ 63) :
    (extendCutoff cutoff date).toInt = termEnd cutoff.toInt date.toInt := by
  rw [extendCutoff]
  rw [termEnd] at h ⊢
  by_cases hlt : cutoff < date
  · have hmax := max_eq_right (Int64.lt_iff_toInt_lt.1 hlt).le
    rw [if_pos hlt]
    rw [hmax] at h ⊢
    exact toInt_addMonthsClamped h
  · have hmax := max_eq_left (Int64.le_iff_toInt_le.1 (Int64.not_lt.1 hlt))
    rw [if_neg hlt]
    rw [hmax] at h ⊢
    exact toInt_addMonthsClamped h

/-- As long as the last term ends in the range of timestamps, no sum wraps. -/
theorem toInt_foldl_extendCutoff {dates : List Timestamp} {cutoff : Timestamp}
    (h : lastTermEnd cutoff.toInt (dates.map Int64.toInt) < 2 ^ 63) :
    (dates.foldl extendCutoff cutoff).toInt = lastTermEnd cutoff.toInt (dates.map Int64.toInt) := by
  induction dates generalizing cutoff with
  | nil => rfl
  | cons date dates ih =>
    rw [map_cons, lastTermEnd_cons] at h ⊢
    have hterm := toInt_extendCutoff ((le_lastTermEnd _ _).trans_lt h)
    rw [← hterm] at h ⊢
    exact ih h

/-- The last term of a license whose first term begins with a purchase. -/
def exactCutoff (qsort : Qsort) (purchase : Timestamp) (transactions : List Transaction) : Int :=
  lastTermEnd (addYear purchase.toInt) ((updateDates qsort transactions).map Int64.toInt)

variable {qsort : Qsort} {purchase : Timestamp}

theorem toInt_updateCutoff (h : exactCutoff qsort purchase transactions < 2 ^ 63) :
    (updateCutoff qsort purchase transactions).toInt = exactCutoff qsort purchase transactions := by
  rw [exactCutoff] at h ⊢
  have hfirst := toInt_addMonthsClamped ((le_lastTermEnd _ _).trans_lt h)
  rw [← hfirst] at h ⊢
  rw [updateCutoff_eq]
  exact toInt_foldl_extendCutoff h

/-- The dates of the updates with one more of them. -/
theorem updateDates_cons (qsort : Qsort) (t : Transaction) (transactions : List Transaction) :
    updateDates qsort (t :: transactions) = updateDates qsort transactions ∨
      ∃ front back, updateDates qsort transactions = front ++ back ∧
        updateDates qsort (t :: transactions) = front ++ t.purchaseDate :: back := by
  have hperm := updateDates_perm qsort (t :: transactions)
  by_cases hupdate : t.isUpdate
  · refine .inr ?_
    rw [filter_cons_of_pos hupdate, map_cons] at hperm
    obtain ⟨front, back, hdates⟩ := append_of_mem (hperm.mem_iff.2 mem_cons_self)
    have hsorted := sorted_updateDates qsort (t :: transactions)
    refine ⟨front, back, ?_, hdates⟩
    rw [hdates] at hperm hsorted
    refine eq_of_sorted (sorted_updateDates _ _) ?_ ((updateDates_perm _ _).trans ?_)
    · exact hsorted.sublist ((sublist_cons_self _ _).append_left front)
    · exact ((perm_middle.symm.trans hperm).cons_inv).symm
  · refine .inl (eq_of_sorted (sorted_updateDates _ _) (sorted_updateDates _ _) (hperm.trans ?_))
    rw [filter_cons_of_neg hupdate]
    exact (updateDates_perm _ _).symm

theorem exactCutoff_cons (qsort : Qsort) (purchase : Timestamp) (t : Transaction)
    (transactions : List Transaction) :
    exactCutoff qsort purchase transactions ≤ exactCutoff qsort purchase (t :: transactions) := by
  rw [exactCutoff, exactCutoff]
  rcases updateDates_cons qsort t transactions with heq | ⟨front, back, heq, heq'⟩
  · rw [heq]
  · rw [heq, heq', map_append, map_append, map_cons]
    exact lastTermEnd_insert _ _ _ _

variable {t : Transaction}

theorem updateCutoff_cons_le
    (h : exactCutoff qsort purchase (t :: transactions) < 2 ^ 63) :
    updateCutoff qsort purchase transactions ≤ updateCutoff qsort purchase (t :: transactions) := by
  have hle := exactCutoff_cons qsort purchase t transactions
  rw [Int64.le_iff_toInt_le, toInt_updateCutoff h, toInt_updateCutoff (hle.trans_lt h)]
  exact hle

/-! ## Decisions -/

/-- The second decision grants what the first one does. -/
structure Decision.Grants (decision more : Decision) : Prop where
  cutoff : ∀ cutoff, decision.updateCutoffDate = some cutoff →
    ∃ later, more.updateCutoffDate = some later ∧ cutoff ≤ later
  features : decision.unlockedFeatureIds ⊆ more.unlockedFeatureIds
  useApp : decision.canUseApp → more.canUseApp
  useFeature : ∀ featureId, decision.canUseFeature featureId → more.canUseFeature featureId
  installUpdate : ∀ publishedAt now,
    decision.canInstallUpdate publishedAt now → more.canInstallUpdate publishedAt now

/-- The second decision gives access if the first one does, and a lifetime unlock if the first one
does. -/
structure Decision.KeepsAccess (decision more : Decision) : Prop where
  useApp : decision.canUseApp → more.canUseApp
  lifetime : decision.hasLifetimeUnlock → more.hasLifetimeUnlock

section

variable {snapshot : Snapshot} {features : List Feature} {now : Timestamp} {first more : Terms}
  {cutoff later : Option Timestamp}

theorem accessReason_of_trialActive (h : trialActive snapshot now = true) (found : Bool) :
    accessReason snapshot now found = .trial :=
  if_pos h

theorem accessReason_of_not_trialActive (h : ¬ trialActive snapshot now = true) :
    accessReason snapshot now false = .locked ∧
      (accessReason snapshot now true = .lifetime ∨
        accessReason snapshot now true = .offlineGrace) := by
  simp only [accessReason, if_neg h, Bool.true_and, Bool.false_and, Bool.false_eq_true, if_false,
    if_true]
  refine ⟨trivial, ?_⟩
  split
  · exact .inr rfl
  · exact .inl rfl

theorem canUseApp_decision :
    (decision snapshot features now first cutoff).canUseApp =
      (trialActive snapshot now || first.lifetimePurchase.isSome) := by
  rw [Decision.canUseApp, decision, accessReason]
  cases trialActive snapshot now <;> cases first.lifetimePurchase <;>
    cases (offlineGraceEndsAt snapshot now) <;> rfl

theorem keepsAccess_decision
    (hlifetime : first.lifetimePurchase.isSome → more.lifetimePurchase.isSome) :
    (decision snapshot features now first cutoff).KeepsAccess
      (decision snapshot features now more later) where
  useApp h := by
    rw [canUseApp_decision, Bool.or_eq_true] at h ⊢
    exact h.imp_right hlifetime
  lifetime := hlifetime

variable {reason : AccessReason} (h : reason = .lifetime ∨ reason = .offlineGrace)

include h

/-- The features that were released by a cutoff. -/
theorem unlockedFeatureIds_paid (cutoff : Timestamp) :
    unlockedFeatureIds reason (some cutoff) features =
      (features.filter fun feature ↦ feature.releaseDate ≤ cutoff).map Feature.unlocked := by
  rcases h with rfl | rfl <;> rfl

theorem unlockedFeatureIds_subset {cutoff later : Timestamp} (hle : cutoff ≤ later) :
    unlockedFeatureIds reason (some cutoff) features ⊆
      unlockedFeatureIds reason (some later) features := by
  rw [unlockedFeatureIds_paid h, unlockedFeatureIds_paid h]
  intro featureId hmem
  obtain ⟨feature, hfeature, rfl⟩ := mem_map.1 hmem
  obtain ⟨hlist, hreleased⟩ := mem_filter.1 hfeature
  refine mem_map_of_mem (mem_filter.2 ⟨hlist, ?_⟩)
  exact decide_eq_true (Int64.le_trans (of_decide_eq_true hreleased) hle)

theorem canInstallUpdate_paid {decision : Decision} (hreason : decision.reason = reason)
    {cutoff : Timestamp} (hcutoff : decision.updateCutoffDate = some cutoff)
    (publishedAt : Option Timestamp) (now : Timestamp) :
    decision.canInstallUpdate publishedAt now = decide (publishedAt.getD now ≤ cutoff) := by
  rw [Decision.canInstallUpdate, hcutoff, hreason]
  rcases h with rfl | rfl <;> rfl

omit h

theorem Decision.canUseFeature_mono {decision more : Decision}
    (hfeatures : decision.unlockedFeatureIds ⊆ more.unlockedFeatureIds)
    (happ : decision.canUseApp → more.canUseApp) {featureId : Bytes}
    (h : decision.canUseFeature featureId) : more.canUseFeature featureId := by
  rw [Decision.canUseFeature, Bool.and_eq_true, contains_iff_mem] at h ⊢
  exact ⟨happ h.1, hfeatures h.2⟩

/-- **What is granted grows with the cutoff.** -/
theorem grants_decision (hfirst : first.lifetimePurchase.isSome = cutoff.isSome)
    (hmore : more.lifetimePurchase.isSome = later.isSome)
    (hle : ∀ c, cutoff = some c → ∃ l, later = some l ∧ c ≤ l) :
    (decision snapshot features now first cutoff).Grants
      (decision snapshot features now more later) := by
  have happ : (decision snapshot features now first cutoff).canUseApp →
      (decision snapshot features now more later).canUseApp := by
    refine (keepsAccess_decision fun hsome ↦ ?_).useApp
    obtain ⟨c, hc⟩ := isSome_iff_exists.1 (hfirst ▸ hsome)
    obtain ⟨l, hl, -⟩ := hle c hc
    rw [hmore, hl]
    rfl
  suffices h : (decision snapshot features now first cutoff).unlockedFeatureIds ⊆
      (decision snapshot features now more later).unlockedFeatureIds ∧ ∀ publishedAt time,
      (decision snapshot features now first cutoff).canInstallUpdate publishedAt time →
        (decision snapshot features now more later).canInstallUpdate publishedAt time from
    ⟨hle, h.1, happ, fun _ ↦ Decision.canUseFeature_mono h.1 happ, h.2⟩
  by_cases htrial : trialActive snapshot now = true
  · simp only [decision, Decision.canInstallUpdate, accessReason_of_trialActive htrial]
    exact ⟨Subset.refl _, fun _ _ _ ↦ trivial⟩
  obtain ⟨hlocked, hpaid⟩ := accessReason_of_not_trialActive htrial
  cases cutoff with
  | none =>
    simp only [decision, Decision.canInstallUpdate, hfirst, isSome_none, hlocked,
      Bool.false_eq_true]
    exact ⟨nil_subset _, fun _ _ ↦ False.elim⟩
  | some c =>
    obtain ⟨l, rfl, hcl⟩ := hle c rfl
    have hreason : ∀ (terms : Terms) (cutoff : Option Timestamp),
        terms.lifetimePurchase.isSome = true →
        (decision snapshot features now terms cutoff).reason = accessReason snapshot now true := by
      intro terms cutoff hsome
      rw [decision, hsome]
    refine ⟨?_, fun publishedAt time h ↦ ?_⟩
    · simp only [decision, hfirst, hmore, isSome_some]
      exact unlockedFeatureIds_subset hpaid hcl
    · rw [canInstallUpdate_paid hpaid (hreason _ _ hfirst) rfl] at h
      rw [canInstallUpdate_paid hpaid (hreason _ _ hmore) rfl]
      exact decide_eq_true (Int64.le_trans (of_decide_eq_true h) hcl)

end

/-! ## A transaction more -/

/-- The transaction is a lifetime unlock that is earlier than all others, of which there are
some. -/
def MovesFirstTerm (t : Transaction) (transactions : List Transaction) : Prop :=
  t.isLifetime ∧ (∃ u ∈ transactions, u.isLifetime) ∧
    ∀ u ∈ transactions, u.isLifetime → t.purchaseDate < u.purchaseDate

/-- The last term ends in the range of timestamps. -/
def InRange (qsort : Qsort) (transactions : List Transaction) : Prop :=
  ∀ purchase, (terms transactions).lifetimePurchase = some purchase →
    exactCutoff qsort purchase transactions < 2 ^ 63

/-- The range is exact: outside of it the cutoff is not the end of the last term, because a sum has
wrapped.  One update of the year 2261 is enough for that. -/
theorem inRange_iff : InRange qsort transactions ↔
    ∀ purchase, (terms transactions).lifetimePurchase = some purchase →
      (updateCutoff qsort purchase transactions).toInt = exactCutoff qsort purchase transactions :=
  forall₂_congr fun _ _ ↦ ⟨toInt_updateCutoff, fun h ↦ h ▸ Int64.toInt_lt _⟩

theorem terms_cons (t : Transaction) (transactions : List Transaction) :
    terms (t :: transactions) = (terms transactions).add t := by
  rw [terms_perm (perm_append_singleton t transactions).symm, terms, foldl_append]
  rfl

/-- The first term begins with no later lifetime unlock. -/
theorem exists_lifetimePurchase {u : Transaction}
    (hu : u ∈ transactions) (hlifetime : u.isLifetime) :
    ∃ purchase, (terms transactions).lifetimePurchase = some purchase ∧
      purchase ≤ u.purchaseDate := by
  induction transactions with
  | nil => cases hu
  | cons t transactions ih =>
    rw [terms_cons, Terms.lifetimePurchase_add]
    rcases mem_cons.1 hu with rfl | hu
    · rw [if_pos hlifetime]
      exact ⟨_, rfl, earlier_le _ _⟩
    obtain ⟨purchase, hpurchase, hle⟩ := ih hu
    rw [hpurchase]
    split
    · exact ⟨_, rfl, Int64.le_trans (earlier_some_le _ _) hle⟩
    · exact ⟨_, rfl, hle⟩

variable (h : (terms transactions).lifetimePurchase = some purchase)

include h

theorem exists_mem_of_lifetimePurchase :
    ∃ u ∈ transactions, u.isLifetime := by
  induction transactions with
  | nil => cases h
  | cons t transactions ih =>
    by_cases ht : t.isLifetime
    · exact ⟨t, mem_cons_self, ht⟩
    · rw [terms_cons, Terms.lifetimePurchase_add, if_neg ht] at h
      obtain ⟨u, hu, hlifetime⟩ := ih h
      exact ⟨u, mem_cons_of_mem t hu, hlifetime⟩

/-- The first term stays where it is. -/
theorem lifetimePurchase_cons (hfirst : ¬ MovesFirstTerm t transactions) :
    (terms (t :: transactions)).lifetimePurchase = some purchase := by
  rw [terms_cons, Terms.lifetimePurchase_add, h]
  by_cases ht : t.isLifetime
  · rw [if_pos ht, earlier]
    by_cases hlt : t.purchaseDate < purchase
    · refine absurd ⟨ht, exists_mem_of_lifetimePurchase h, fun u hu hlifetime ↦ ?_⟩ hfirst
      obtain ⟨purchase', hpurchase', hle⟩ := exists_lifetimePurchase hu hlifetime
      cases h.symm.trans hpurchase'
      exact Int64.lt_of_lt_of_le hlt hle
    · rw [if_neg hlt]
  · rw [if_neg ht]

omit h

theorem isSome_lifetimePurchase_cons (h : (terms transactions).lifetimePurchase.isSome) :
    (terms (t :: transactions)).lifetimePurchase.isSome := by
  rw [terms_cons, Terms.lifetimePurchase_add]
  split
  · rfl
  · exact h

/-- The decision with some transactions. -/
def Snapshot.decide (snapshot : Snapshot) (qsort : Qsort) (features : Option (List Feature))
    (now : Timestamp) (transactions : List Transaction) : Decision :=
  evaluate qsort { snapshot with transactions } features now

section

variable (qsort : Qsort) (snapshot : Snapshot) (features : Option (List Feature)) (now : Timestamp)
  {t : Transaction} {transactions : List Transaction}

theorem keepsAccess_cons :
    (snapshot.decide qsort features now transactions).KeepsAccess
      (snapshot.decide qsort features now (t :: transactions)) :=
  keepsAccess_decision isSome_lifetimePurchase_cons

theorem grants_cons (hfirst : ¬ MovesFirstTerm t transactions)
    (hrange : InRange qsort (t :: transactions)) :
    (snapshot.decide qsort features now transactions).Grants
      (snapshot.decide qsort features now (t :: transactions)) := by
  refine grants_decision (isSome_map ..).symm (isSome_map ..).symm fun cutoff h ↦ ?_
  obtain ⟨purchase, hpurchase, rfl⟩ := map_eq_some_iff.1 h
  have hsame := lifetimePurchase_cons hpurchase hfirst
  refine ⟨_, map_eq_some_iff.2 ⟨purchase, hsame, rfl⟩, ?_⟩
  exact updateCutoff_cons_le (hrange purchase hsame)

theorem decide_perm (qsort' : Qsort) {transactions' : List Transaction}
    (h : transactions.Perm transactions') :
    snapshot.decide qsort features now transactions =
      snapshot.decide qsort' features now transactions' :=
  evaluate_perm qsort' qsort { snapshot with transactions := transactions' } features now h

/-- A transaction that is revoked does not count. -/
theorem decide_cons_of_revoked (h : t.revocationDate.isSome) :
    snapshot.decide qsort features now (t :: transactions) =
      snapshot.decide qsort features now transactions := by
  have hterms : terms (t :: transactions) = terms transactions := by
    rw [terms_cons, Terms.add, if_pos h]
  have hupdate : ¬ t.isUpdate := by
    obtain ⟨date, hdate⟩ := isSome_iff_exists.1 h
    rw [Transaction.isUpdate, hdate]
    exact Bool.false_ne_true
  simp only [Snapshot.decide, evaluate, updateCutoff, hterms, filter_cons_of_neg hupdate]
  rfl

end

/-- The range does not depend on the order either. -/
theorem inRange_perm (h : transactions.Perm transactions') (hrange : InRange qsort transactions) :
    InRange qsort transactions' := by
  intro purchase hpurchase
  rw [← terms_perm h] at hpurchase
  have hlt := hrange purchase hpurchase
  rw [exactCutoff] at hlt ⊢
  rwa [← updateDates_eq qsort qsort h]

/-- The transaction with a date of its revocation. -/
def Transaction.revoke (t : Transaction) (date : Timestamp) : Transaction :=
  { t with revocationDate := some date }

/-- **The decision does not depend on the order of the transactions, and grows with them.**  A
transaction that is added takes nothing away, and one that is revoked adds nothing, unless it is the
lifetime unlock that the first term begins with instead of a later one. -/
theorem entitlements_grow (qsort qsort' : Qsort) (snapshot : Snapshot)
    (features : Option (List Feature)) (now : Timestamp) (front back : List Transaction)
    (t : Transaction) (date : Timestamp) (transactions : List Transaction)
    (hperm : transactions.Perm (front ++ back)) :
    snapshot.decide qsort' features now transactions =
        snapshot.decide qsort features now (front ++ back) ∧
      (snapshot.decide qsort features now (front ++ back)).KeepsAccess
        (snapshot.decide qsort features now (front ++ t :: back)) ∧
      (snapshot.decide qsort features now (front ++ t.revoke date :: back)).KeepsAccess
        (snapshot.decide qsort features now (front ++ t :: back)) ∧
      (¬ MovesFirstTerm t (front ++ back) → InRange qsort (front ++ t :: back) →
        (snapshot.decide qsort features now (front ++ back)).Grants
            (snapshot.decide qsort features now (front ++ t :: back)) ∧
          (snapshot.decide qsort features now (front ++ t.revoke date :: back)).Grants
            (snapshot.decide qsort features now (front ++ t :: back))) := by
  have hmore := decide_perm qsort snapshot features now qsort
    (@perm_middle _ t front back)
  have hrevoked := decide_perm qsort snapshot features now qsort
    (@perm_middle _ (t.revoke date) front back)
  rw [decide_cons_of_revoked qsort snapshot features now rfl] at hrevoked
  rw [hmore, hrevoked]
  refine ⟨decide_perm qsort' snapshot features now qsort hperm, keepsAccess_cons ..,
    keepsAccess_cons .., fun hfirst hrange ↦ ?_⟩
  have hgrants := grants_cons qsort snapshot features now hfirst (inRange_perm perm_middle hrange)
  exact ⟨hgrants, hgrants⟩

/-! A license that was bought on the day of the release, an update one month later, and a lifetime
unlock from a time before both. -/

def releaseUnlock : Transaction := ⟨some lifetimeUnlockProductId, utcDate ⟨2026, 6, 3⟩, none⟩
def laterUpdate : Transaction := ⟨some featureUpdateProductId, utcDate ⟨2026, 7, 1⟩, none⟩
def earlierUnlock : Transaction := ⟨some lifetimeUnlockProductId, utcDate ⟨2025, 1, 1⟩, none⟩

def emptySnapshot : Snapshot := ⟨none, none, [], none, none⟩

/-- The decision of July 2026. -/
def julyDecision (transactions : List Transaction) : Decision :=
  emptySnapshot.decide (Retention.sortBefore _ releaseUnlock) none (utcDate ⟨2026, 7, 15⟩)
    transactions

theorem update_grows :
    (julyDecision [releaseUnlock]).Grants (julyDecision [laterUpdate, releaseUnlock]) ∧
      (julyDecision [releaseUnlock]).updateCutoffDate = some (utcDate ⟨2027, 6, 3⟩) ∧
      (julyDecision [laterUpdate, releaseUnlock]).updateCutoffDate =
        some (utcDate ⟨2028, 6, 3⟩) := by
  have hrange : InRange (Retention.sortBefore _ releaseUnlock) [laterUpdate, releaseUnlock] := by
    intro purchase hpurchase
    have hfirst : (terms [laterUpdate, releaseUnlock]).lifetimePurchase =
        some (utcDate ⟨2026, 6, 3⟩) := by decide +kernel
    cases hfirst.symm.trans hpurchase
    decide +kernel
  have hgrow := entitlements_grow (Retention.sortBefore _ releaseUnlock)
    (Retention.sortBefore _ releaseUnlock) emptySnapshot none (utcDate ⟨2026, 7, 15⟩) []
    [releaseUnlock]
    laterUpdate 0 [releaseUnlock] (Perm.refl _)
  refine ⟨(hgrow.2.2.2 (fun h ↦ absurd h.1 (by decide +kernel)) hrange).1, ?_, ?_⟩
  · decide +kernel
  · decide +kernel

/-- An earlier lifetime unlock takes a feature away, and its revocation gives it back. -/
theorem earlier_unlock_takes_feature :
    earlierUnlock.revocationDate = none ∧
      (julyDecision [releaseUnlock]).updateCutoffDate = some (utcDate ⟨2027, 6, 3⟩) ∧
      (julyDecision [earlierUnlock, releaseUnlock]).updateCutoffDate =
        some (utcDate ⟨2026, 1, 1⟩) ∧
      (julyDecision [releaseUnlock]).canUseFeature (bytes "widgets") = true ∧
      (julyDecision [earlierUnlock, releaseUnlock]).canUseFeature (bytes "widgets") = false ∧
      julyDecision [earlierUnlock.revoke (utcDate ⟨2026, 7, 1⟩), releaseUnlock] =
        julyDecision [releaseUnlock] := by
  decide +kernel

end ClambHook.License
