import ClambHook.Json.RoundTrip
import ClambHook.RuleFeed.Cache

/-!
# The search for the timestamp

`feed_decode_cache` does not take the timestamp from the parsed document: it searches the text for
`"fetched_ts_ns"` and reads what stands behind the next colon.  The text in front of the timestamp
has strings from the configuration and the server in it.  The search finds the closing end of such a
string if the string is `fetched_ts_ns` or ends in `"fetched_ts_ns`, and the next colon may then be
anywhere.

`readFound_members` says what is read, for all strings: the timestamp, unless `stray` gives another
number.
-/

namespace ClambHook.RuleFeed

open CString Json List Option

/-! ## Specification -/

/-- The characters of the key. -/
def marker : Bytes := bytes "fetched_ts_ns"

/-- Does the text of a string end like the key of the timestamp? -/
def isMarker (s : Bytes) : Bool :=
  s == marker || (34 :: marker).isSuffixOf s

/-- A member in front of the timestamp: a string or a list of strings. -/
inductive Front where
  | text (key s : Bytes)
  | texts (key : Bytes) (strings : List Bytes)

def Front.key : Front → Bytes
  | .text key _ => key
  | .texts key _ => key

def Front.value : Front → Bytes
  | .text _ s => appendString s
  | .texts _ strings => appendStrings strings

/-- A member in the document. -/
def Front.encode (front : Front) : Bytes :=
  44 :: appendString front.key ++ 58 :: front.value

/-- The number that is read behind the first colon of a string. -/
def numberBehindColon (s : Bytes) : Int :=
  ((splitFirst 58 s).map fun p ↦ readTimestamp (p.2.flatMap escapeChar ++ [34])).getD 0

/-- The number that is read in the place of the timestamp, if the search ends at a string in front
of it.  The string that stands last is harmless, since the next colon is the right one. -/
def stray : List Front → Option Int
  | [] => none
  | .text _ s :: rest => if isMarker s then (if rest.isEmpty then none else some 0) else stray rest
  | .texts _ strings :: rest =>
    match strings.dropWhile fun s ↦ !isMarker s with
    | [] => stray rest
    | _ :: behind =>
      match behind.find? fun s ↦ decide (58 ∈ s) with
      | some s => some (numberBehindColon s)
      | none => if rest.isEmpty then none else some 0

/-! ## Searching -/

/-- The text behind the first colon. -/
def behindColon (text : Bytes) : Option Bytes :=
  (splitFirst 58 text).map (·.2)

/-- The text in which the timestamp is read. -/
def search (text : Bytes) : Option Bytes :=
  (strstr timestampKey text).bind fun p ↦ behindColon p.2

theorem fetchedTimestamp_eq (json : Bytes) :
    fetchedTimestamp json = ((search json).map readTimestamp).getD 0 := by
  rw [fetchedTimestamp, search]
  cases strstr timestampKey json with
  | none => rfl
  | some p =>
    obtain ⟨before, found⟩ := p
    simp only [bind_some, behindColon]
    cases splitFirst 58 found <;> rfl

variable {c : UInt8} {text : Bytes}

theorem behindColon_cons (h : c ≠ 58) : behindColon (c :: text) = behindColon text := by
  rw [behindColon, behindColon, splitFirst, if_neg h, Option.map_map]
  rfl

theorem behindColon_append {u : Bytes} (hu : 58 ∉ u) (text : Bytes) :
    behindColon (u ++ text) = behindColon text := by
  induction u with
  | nil => rfl
  | cons c u ih =>
    rw [mem_cons, not_or] at hu
    rw [cons_append, behindColon_cons (Ne.symm hu.1), ih hu.2]

theorem behindColon_colon (text : Bytes) : behindColon (58 :: text) = some text := by
  rw [behindColon, splitFirst, if_pos rfl]
  rfl

/-- A position at which the key does not begin is passed over. -/
theorem search_cons
    (h : timestampKey.isPrefixOf (c :: text) = false) : search (c :: text) = search text := by
  rw [search, search, strstr, if_neg (by simp [h]), bind_map]
  rfl

theorem search_of_key (h : timestampKey.isPrefixOf text = true) :
    search text = behindColon (text.drop timestampKey.length) := by
  obtain ⟨rest, rfl⟩ := isPrefixOf_iff_prefix.1 h
  have hcolon : 58 ∉ timestampKey := by decide
  rw [drop_left, ← behindColon_append hcolon rest]
  cases htext : timestampKey ++ rest with
  | nil => cases htext
  | cons c text =>
    rw [search, strstr, if_pos (by rw [← htext]; exact h), bind_some]

theorem timestampKey_eq : timestampKey = 34 :: (marker ++ [34]) := by
  decide

theorem isPrefixOf_cons_of_ne {a : UInt8} (h : a ≠ c) (m text : Bytes) :
    (a :: m).isPrefixOf (c :: text) = false := by
  rw [isPrefixOf_cons_cons, beq_eq_false_iff_ne.2 h, Bool.false_and]

theorem search_cons_of_ne (h : c ≠ 34) : search (c :: text) = search text :=
  search_cons (timestampKey_eq ▸ isPrefixOf_cons_of_ne h.symm _ _)

theorem search_append {u : Bytes} (hu : 34 ∉ u) (text : Bytes) :
    search (u ++ text) = search text := by
  induction u with
  | nil => rfl
  | cons c u ih =>
    rw [mem_cons, not_or] at hu
    rw [cons_append, search_cons_of_ne (Ne.symm hu.1), ih hu.2]

/-! ## Strings -/

/-- How a character stands in a string: as itself, as an escaped quote, or behind a backslash
without one. -/
theorem escapeChar_cases : ∀ c : UInt8,
    (escapeChar c = [c] ∧ c ≠ 34 ∧ c ≠ 92) ∨ (c = 34 ∧ escapeChar c = [92, 34]) ∨
      (c ≠ 34 ∧ ∃ more ∈ (escapeChar c).tail?, escapeChar c = 92 :: more ∧ 34 ∉ more) := by
  decide +kernel

/-- A text of plain characters with the closing quote begins a string iff it is the string. -/
theorem isPrefixOf_string {m : Bytes} (hm : ∀ c ∈ m, escapeChar c = [c] ∧ c ≠ 34 ∧ c ≠ 92)
    (s text : Bytes) :
    (m ++ [34]).isPrefixOf (s.flatMap escapeChar ++ 34 :: text) = decide (s = m) := by
  induction m generalizing s with
  | nil =>
    cases s with
    | nil => simp
    | cons c s =>
      rw [flatMap_cons, append_assoc]
      obtain ⟨hc, hne, -⟩ | ⟨-, hc⟩ | ⟨-, more, -, hc, -⟩ := escapeChar_cases c
      · simp [hc, isPrefixOf_cons_of_ne (Ne.symm hne)]
      · simp [hc, isPrefixOf_cons_of_ne]
      · simp [hc, isPrefixOf_cons_of_ne]
  | cons a m ih =>
    obtain ⟨⟨ha, ha34, ha92⟩, hm⟩ := forall_mem_cons.1 hm
    cases s with
    | nil => simp [isPrefixOf_cons_of_ne ha34]
    | cons c s =>
      rw [flatMap_cons, append_assoc]
      obtain ⟨hc, -, -⟩ | ⟨rfl, hc⟩ | ⟨-, more, -, hc, -⟩ := escapeChar_cases c
      · rw [hc, cons_append, singleton_append, isPrefixOf_cons_cons, ih hm]
        by_cases hca : c = a
        · simp [hca]
        · simp [hca, Ne.symm hca]
      · simp [hc, isPrefixOf_cons_of_ne ha92, Ne.symm ha34]
      have hca : c ≠ a := by
        rintro rfl
        rw [ha] at hc
        cases hc
        exact ha92 rfl
      simp [hc, isPrefixOf_cons_of_ne ha92, hca]

theorem marker_plain : ∀ c ∈ marker, escapeChar c = [c] ∧ c ≠ 34 ∧ c ≠ 92 := by
  decide +kernel

theorem isPrefixOf_key (s text : Bytes) :
    timestampKey.isPrefixOf (34 :: (s.flatMap escapeChar ++ 34 :: text)) = decide (s = marker) := by
  rw [timestampKey_eq, isPrefixOf_cons_cons, isPrefixOf_string marker_plain]
  simp

/-- The search at a quote: the key begins there, or the search goes on behind the quote. -/
theorem search_quote (s text : Bytes) : search (34 :: (s.flatMap escapeChar ++ 34 :: text)) =
    if s = marker then behindColon text else search (s.flatMap escapeChar ++ 34 :: text) := by
  split
  · next hs =>
    rw [search_of_key (by rw [isPrefixOf_key]; simpa using hs), hs]
    rfl
  · next hs => rw [search_cons (by rw [isPrefixOf_key]; simpa using hs)]

/-- The search inside a string. -/
theorem search_inside (htext : text.head? ≠ some 102) (s : Bytes) :
    search (s.flatMap escapeChar ++ 34 :: text) =
      if (34 :: marker).isSuffixOf s then behindColon text else search text := by
  induction s with
  | nil =>
    rw [if_neg (by decide), flatMap_nil, nil_append, search_cons]
    rw [timestampKey_eq, isPrefixOf_cons_cons]
    cases text with
    | nil => decide
    | cons c text =>
      have hc : c ≠ 102 := by simpa using htext
      have hmarker : marker ++ [34] = 102 :: (marker ++ [34]).tail := by decide
      rw [hmarker, isPrefixOf_cons_of_ne (Ne.symm hc), Bool.and_false]
  | cons c s ih =>
    have hsuffix : (34 :: marker).isSuffixOf (c :: s) =
        (decide (c = 34 ∧ s = marker) || (34 :: marker).isSuffixOf s) := by
      rw [Bool.eq_iff_iff]
      simp only [isSuffixOf_iff_suffix, Bool.or_eq_true, decide_eq_true_eq,
        suffix_cons_iff, List.cons.injEq]
      exact or_congr_left ⟨fun h ↦ ⟨h.1.symm, h.2.symm⟩, fun h ↦ ⟨h.1.symm, h.2.symm⟩⟩
    rw [flatMap_cons, append_assoc]
    obtain ⟨hc, hne, -⟩ | ⟨rfl, hc⟩ | ⟨hne, more, -, hc, hmore⟩ := escapeChar_cases c
    · rw [hc, search_append (by simpa using Ne.symm hne), ih, hsuffix]
      simp [hne]
    · rw [hc, cons_append, singleton_append, search_cons rfl, search_quote, ih, hsuffix]
      by_cases hs : s = marker
      · simp [hs]
      · simp [hs]
    · rw [hc, search_append (by simpa using hmore), ih, hsuffix]
      simp [hne]

theorem appendString_append (s text : Bytes) :
    appendString s ++ text = 34 :: s.flatMap escapeChar ++ 34 :: text := by
  simp [appendString]

/-- **The search in a string**: it ends there iff the string is like the key. -/
theorem search_appendString (htext : text.head? ≠ some 102) (s : Bytes) :
    search (appendString s ++ text) = if isMarker s then behindColon text else search text := by
  rw [appendString_append, cons_append, search_quote, search_inside htext]
  by_cases hs : s = marker
  · simp [isMarker, hs]
  · simp [isMarker, hs]

variable {s : Bytes}

/-- The escaped text of a string has a colon where the string has one. -/
theorem colon_notMem_escape (h : 58 ∉ s) : 58 ∉ s.flatMap escapeChar := by
  have hchar : ∀ c : UInt8, 58 ∈ escapeChar c → c = 58 := by decide +kernel
  rw [mem_flatMap]
  rintro ⟨c, hc, hmem⟩
  exact h (hchar c hmem ▸ hc)

theorem behindColon_string (h : 58 ∉ s) (text : Bytes) :
    behindColon (appendString s ++ text) = behindColon text := by
  have hcolon : 58 ∉ appendString s := by
    rw [appendString, mem_append, mem_cons, not_or, not_or]
    exact ⟨⟨by decide, colon_notMem_escape h⟩, by decide⟩
  exact behindColon_append hcolon text

theorem behindColon_string_of_split {front back : Bytes} (h : splitFirst 58 s = some (front, back))
    (text : Bytes) :
    behindColon (appendString s ++ text) = some (back.flatMap escapeChar ++ 34 :: text) := by
  obtain ⟨rfl, hfront⟩ := splitFirst_eq_some_iff.1 h
  have hescape : escapeChar 58 = [58] := by decide
  have hsplit : appendString (front ++ 58 :: back) ++ text =
      34 :: front.flatMap escapeChar ++ 58 :: (back.flatMap escapeChar ++ 34 :: text) := by
    simp [appendString_append, flatMap_append, flatMap_cons, hescape]
  have hcolon : 58 ∉ 34 :: front.flatMap escapeChar := by
    rw [mem_cons, not_or]
    exact ⟨by decide, colon_notMem_escape hfront⟩
  rw [hsplit, behindColon_append hcolon, behindColon_colon]

/-! ## Numbers -/

theorem readTimestamp_append (hc : EndsNumber c) (s text : Bytes) :
    readTimestamp (s ++ c :: text) = readTimestamp (s ++ [c]) := by
  have hrest : ∀ u : Bytes, u ++ text = trimLeft s ++ c :: text ↔ u = trimLeft s ++ [c] := by
    intro u
    rw [← append_cancel_right_eq u text, append_assoc, singleton_append]
  simp only [readTimestamp, trimLeft_append_cons hc.1]
  rw [strtol_append hc]
  simp only [hrest]

variable (text : Bytes)

theorem readTimestamp_cons (hc : EndsNumber c) : readTimestamp (c :: text) = 0 := by
  obtain ⟨hspace, hdigit, hminus, hplus⟩ := hc
  have htrim : trimLeft (c :: text) = c :: text :=
    trimLeft_eq_self_iff.2 (by simpa using hspace)
  simp [readTimestamp, htrim, strtol, hminus, hplus, hdigit]

theorem readTimestamp_decimalInt {i : Int} (hmin : longMin ≤ i) (hmax : i ≤ longMax) :
    readTimestamp (decimalInt i ++ 44 :: text) = i := by
  obtain ⟨c, s, heq, hc⟩ := exists_cons_decimalInt i
  have hstrtol : strtol (decimalInt i ++ 44 :: text) = ⟨i, 44 :: text, false⟩ :=
    strtol_decimalInt rfl hmin hmax (by decide)
  have htrim : trimLeft (decimalInt i ++ 44 :: text) = decimalInt i ++ 44 :: text := by
    rw [trimLeft_eq_self_iff, heq]
    simpa using (digit_cases hc).1
  simp only [readTimestamp, htrim, hstrtol]
  rw [if_neg]
  rintro (h | h)
  · cases h
  rw [heq] at h
  have hlength := congrArg List.length h
  simp only [cons_append, length_cons, length_append] at hlength
  omega

/-! ## Members -/

/-- The number that the search in a text ends at. -/
def readFound (text : Bytes) : Int :=
  ((search text).map readTimestamp).getD 0

/-- The number behind the next colon. -/
def readNext (text : Bytes) : Int :=
  ((behindColon text).map readTimestamp).getD 0

/-- A key of a member in front of the timestamp. -/
def IsFrontKey (key : Bytes) : Prop :=
  isMarker key = false ∧ 58 ∉ key

instance (key : Bytes) : Decidable (IsFrontKey key) :=
  inferInstanceAs (Decidable (_ ∧ _))

/-- The search in a key, with its comma and its colon. -/
theorem search_key {key : Bytes} (hkey : IsFrontKey key) :
    search (44 :: (appendString key ++ 58 :: text)) = search text := by
  rw [search_cons_of_ne (by decide), search_appendString (by simp), hkey.1, if_neg (by decide),
    search_cons_of_ne (by decide)]

theorem behindColon_key {key : Bytes} (hkey : IsFrontKey key) :
    behindColon (44 :: (appendString key ++ 58 :: text)) = some text := by
  rw [behindColon_cons (by decide), behindColon_string hkey.2, behindColon_colon]

theorem encode_append (front : Front) :
    front.encode ++ text = 44 :: (appendString front.key ++ 58 :: (front.value ++ text)) := by
  simp [Front.encode]

/-- The colon of a member has no number behind it. -/
theorem readNext_encode {front : Front} (hkey : IsFrontKey front.key) :
    readNext (front.encode ++ text) = 0 := by
  rw [readNext, encode_append, behindColon_key _ hkey]
  cases front with
  | text key s | texts key strings => exact readTimestamp_cons _ (by decide)

/-- The strings of a list with a comma in front of each, up to the closing bracket. -/
def itemsText (strings : List Bytes) (text : Bytes) : Bytes :=
  strings.flatMap (fun s ↦ 44 :: appendString s) ++ 93 :: text

theorem itemsText_cons (s : Bytes) (strings : List Bytes) :
    itemsText (s :: strings) text = 44 :: (appendString s ++ itemsText strings text) := by
  simp [itemsText]

variable (strings : List Bytes)

theorem head?_itemsText : (itemsText strings text).head? ≠ some 102 := by
  cases strings with
  | nil => simp [itemsText]
  | cons s strings => simp [itemsText_cons]

theorem search_appendStrings :
    search (appendStrings strings ++ text) = search (itemsText strings text) := by
  cases strings with
  | nil => exact search_cons_of_ne (by decide)
  | cons s strings =>
    have htext : appendStrings (s :: strings) ++ text =
        91 :: (appendString s ++ itemsText strings text) := by
      rw [appendStrings, map_cons, intercalate_eq_flatMap, flatMap_map, itemsText]
      simp [bytes]
    rw [htext, search_cons_of_ne (by decide), itemsText_cons, search_cons_of_ne (by decide)]

/-- The search ends in the first string of a list that is like the key. -/
theorem search_itemsText : search (itemsText strings text) =
    if strings.dropWhile (!isMarker ·) = [] then search text
    else behindColon (itemsText (strings.dropWhile (!isMarker ·)).tail text) := by
  induction strings with
  | nil => exact search_cons_of_ne (by decide)
  | cons s strings ih =>
    rw [itemsText_cons, search_cons_of_ne (by decide), search_appendString (head?_itemsText _ _),
      dropWhile_cons]
    cases isMarker s with
    | false => exact ih
    | true => rfl

/-- The next colon behind a string of a list. -/
theorem readNext_itemsText :
    readNext (itemsText strings text) =
      ((strings.find? fun s ↦ decide (58 ∈ s)).map numberBehindColon).getD (readNext text) := by
  induction strings with
  | nil =>
    rw [readNext, itemsText, flatMap_nil, nil_append, behindColon_cons (by decide)]
    rfl
  | cons s strings ih =>
    rw [itemsText_cons, readNext, behindColon_cons (by decide)]
    by_cases hcolon : 58 ∈ s
    · obtain ⟨⟨front, back⟩, hsplit⟩ : ∃ p, splitFirst 58 s = some p := by
        rw [← isSome_iff_exists, isSome_iff_ne_none, Ne, splitFirst_eq_none_iff]
        exact not_not.2 hcolon
      rw [behindColon_string_of_split hsplit, List.find?_cons_of_pos (by simpa using hcolon),
        map_some, getD_some, map_some, getD_some, numberBehindColon,
        hsplit, readTimestamp_append (by decide)]
      rfl
    · rw [behindColon_string hcolon, List.find?_cons_of_neg (by simpa using hcolon)]
      exact ih

variable {text}

/-- **What is read in the place of the timestamp**, in a text that has it behind some members. -/
theorem readFound_members {fronts : List Front} (hkeys : ∀ front ∈ fronts, IsFrontKey front.key)
    {i : Int} (hhead : text.head? = some 44) (hfound : readFound text = i)
    (hnext : readNext text = i) :
    readFound (fronts.flatMap Front.encode ++ text) = (stray fronts).getD i := by
  induction fronts with
  | nil => exact hfound
  | cons front rest ih =>
    obtain ⟨hkey, hrest⟩ := forall_mem_cons.1 hkeys
    have htext : (rest.flatMap Front.encode ++ text).head? ≠ some 102 := by
      cases rest with
      | nil => simp [hhead]
      | cons next rest => simp [Front.encode]
    -- the colon behind this member is that of the next one, or that of the timestamp
    have hbehind : readNext (rest.flatMap Front.encode ++ text) =
        (if rest.isEmpty then none else some 0).getD i := by
      cases rest with
      | nil => exact hnext
      | cons next rest =>
        rw [flatMap_cons, append_assoc, readNext_encode _ (hrest next mem_cons_self)]
        rfl
    rw [flatMap_cons, append_assoc, readFound, encode_append, search_key _ hkey]
    cases front with
    | text key s =>
      rw [Front.value, search_appendString htext, stray]
      split
      · exact hbehind
      · exact ih hrest
    | texts key strings =>
      rw [Front.value, search_appendStrings, search_itemsText, stray]
      cases strings.dropWhile (!isMarker ·) with
      | nil => exact ih hrest
      | cons s behind =>
        refine (readNext_itemsText _ behind).trans ?_
        dsimp only
        rw [hbehind]
        cases behind.find? fun s ↦ decide (58 ∈ s) <;> rfl

end ClambHook.RuleFeed
