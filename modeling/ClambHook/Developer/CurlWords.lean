import ClambHook.Developer.Curl

/-!
# Words of a shell

A command of a shell is a list of words, and each word may be written in many ways: its characters
as they are, behind a backslash, or in single or double quotes.  A backslash in front of a line feed
is not there at all, neither between words nor inside of one.

`developer_curl_tokenize` takes the line feed behind a backslash as a character of the word.  It
also ends a word at a carriage return, a vertical tab and a form feed, which are no blanks of the
shell.  Without these, a command of at most 4096 words and 1 MiB is read as its words
(`curlTokenize_render`).
-/

namespace ClambHook.Developer.Shell

open CString List

/-! ## Commands -/

/-- What stands in double quotes. -/
inductive Inner where
  | plain (c : UInt8)
  /-- A character that loses its meaning behind the backslash. -/
  | escaped (c : UInt8)
  /-- A backslash in front of any other character, which means itself. -/
  | literal (c : UInt8)
  | continuation

/-- A part of a word. -/
inductive Piece where
  | plain (c : UInt8)
  | escaped (c : UInt8)
  | single (s : Bytes)
  | double (inner : List Inner)
  | continuation

/-- What stands between words. -/
inductive Gap where
  | space
  | tab
  | continuation
deriving DecidableEq

def Inner.render : Inner → Bytes
  | .plain c => [c]
  | .escaped c | .literal c => [92, c]
  | .continuation => [92, 10]

def Inner.text : Inner → Bytes
  | .plain c | .escaped c => [c]
  | .literal c => [92, c]
  | .continuation => []

def Inner.Valid : Inner → Prop
  | .plain c => c = 10 ∨ escapable c = false
  | .escaped c => c ≠ 10 ∧ escapable c = true
  | .literal c => escapable c = false
  | .continuation => True

def Piece.render : Piece → Bytes
  | .plain c => [c]
  | .escaped c => [92, c]
  | .single s => 39 :: s ++ [39]
  | .double inner => 34 :: inner.flatMap Inner.render ++ [34]
  | .continuation => [92, 10]

def Piece.text : Piece → Bytes
  | .plain c | .escaped c => [c]
  | .single s => s
  | .double inner => inner.flatMap Inner.text
  | .continuation => []

/-- The characters that do not mean themselves. -/
def special : Bytes := bytes "|&;<>()$`\\\"' \t\n"

def Piece.Valid : Piece → Prop
  | .plain c => c ∉ special
  | .escaped c => c ≠ 10
  | .single s => 39 ∉ s
  | .double inner => ∀ i ∈ inner, i.Valid
  | .continuation => True

def Gap.render : Gap → Bytes
  | .space => [32]
  | .tab => [9]
  | .continuation => [92, 10]

/-- A word, and what stands behind it. -/
structure Word where
  pieces : List Piece
  gap : List Gap

def Word.text (w : Word) : Bytes := w.pieces.flatMap Piece.text

def Word.render (w : Word) : Bytes := w.pieces.flatMap Piece.render ++ w.gap.flatMap Gap.render

/-- A word is there if more than continuations is. -/
structure Word.Valid (w : Word) : Prop where
  pieces : ∀ p ∈ w.pieces, p.Valid
  nonempty : ∃ p ∈ w.pieces, p ≠ .continuation

/-- A blank ends every word but the last. -/
def Separated : List Word → Prop
  | [] | [_] => True
  | w :: words => (∃ g ∈ w.gap, g ≠ .continuation) ∧ Separated words

/-- A command, and the blanks in front of it. -/
structure Command where
  front : List Gap
  words : List Word

structure Command.Valid (command : Command) : Prop where
  words : ∀ w ∈ command.words, w.Valid
  separated : Separated command.words

def Command.render (command : Command) : Bytes :=
  command.front.flatMap Gap.render ++ command.words.flatMap Word.render

def Command.texts (command : Command) : List Bytes :=
  command.words.map Word.text

/-! ## What is read as the shell does -/

/-- Neither a continuation nor a control character that is taken for a blank. -/
def Piece.Unbroken : Piece → Prop
  | .plain c => isspace c = false
  | .double inner => .continuation ∉ inner
  | .continuation => False
  | _ => True

structure Word.Unbroken (w : Word) : Prop where
  pieces : ∀ p ∈ w.pieces, p.Unbroken
  gap : .continuation ∉ w.gap

structure Command.Unbroken (command : Command) : Prop where
  front : .continuation ∉ command.front
  words : ∀ w ∈ command.words, w.Unbroken

/-! ## Scanning -/

/-- The scanner between two pieces. -/
def within (tokens : List Bytes) (current : Bytes) (hasToken : Bool) : Scan where
  current := current
  hasToken := hasToken
  tokens := tokens

/-- The scanner inside of quotes. -/
def quoted (mode : Mode) (tokens : List Bytes) (current : Bytes) : Scan where
  mode := mode
  current := current
  hasToken := true
  tokens := tokens

variable (tokens : List Bytes)

/-- Pieces that are read one by one are read together. -/
theorem foldlM_flatMap {α : Type} {render text : α → Bytes} (s : Bytes → Scan) {l : List α}
    (h : ∀ x ∈ l, ∀ current, (render x).foldlM scanStep (s current) = .ok (s (current ++ text x)))
    (current : Bytes) :
    (l.flatMap render).foldlM scanStep (s current) = .ok (s (current ++ l.flatMap text)) := by
  induction l generalizing current with
  | nil => simp [pure, Except.pure]
  | cons x l ih =>
    rw [flatMap_cons, foldlM_append, h x mem_cons_self, ok_bind,
      ih fun y hy ↦ h y (mem_cons_of_mem x hy), append_assoc, flatMap_cons]

theorem foldlM_inner {i : Inner} (hvalid : i.Valid) (hne : i ≠ .continuation) (current : Bytes) :
    i.render.foldlM scanStep (quoted .double tokens current) =
      .ok (quoted .double tokens (current ++ i.text)) := by
  cases i with
  | plain c =>
    have hc : c ≠ 34 ∧ c ≠ 92 := by
      rcases hvalid with rfl | hc
      · decide
      · constructor <;> (rintro rfl; cases hc)
    simp [Inner.render, Inner.text, scanStep, quoted, hc, Scan.push, bind, Except.bind, pure,
      Except.pure]
  | escaped c =>
    simp [Inner.render, Inner.text, scanStep, quoted, hvalid.2, Scan.push, bind, Except.bind, pure,
      Except.pure]
  | literal c =>
    have hc : escapable c = false := hvalid
    simp [Inner.render, Inner.text, scanStep, quoted, hc, Scan.push, bind, Except.bind, pure,
      Except.pure]
  | continuation => exact absurd rfl hne

theorem foldlM_single {s : Bytes} (hs : 39 ∉ s) (current : Bytes) :
    s.foldlM scanStep (quoted .single tokens current) =
      .ok (quoted .single tokens (current ++ s)) := by
  have hchars := @foldlM_flatMap _ (fun c ↦ [c]) (fun c ↦ [c]) (quoted .single tokens) s
    (fun c hc current ↦ ?_) current
  · simpa using hchars
  · have hne : c ≠ 39 := fun h ↦ hs (h ▸ hc)
    simp [scanStep, quoted, hne, Scan.push, bind, Except.bind, pure, Except.pure]

theorem foldlM_piece {p : Piece} (hvalid : p.Valid) (hunbroken : p.Unbroken) (current : Bytes)
    (hasToken : Bool) : p.render.foldlM scanStep (within tokens current hasToken) =
      .ok (within tokens (current ++ p.text) true) := by
  cases p with
  | plain c =>
    have hspace : isspace c = false := hunbroken
    have hc : c ≠ 39 ∧ c ≠ 34 ∧ c ≠ 92 := by
      refine ⟨?_, ?_, ?_⟩ <;> (rintro rfl; exact hvalid (by decide))
    simp [Piece.render, Piece.text, scanStep, within, hc, hspace, Scan.push, bind, Except.bind,
      pure, Except.pure]
  | escaped c => rfl
  | single s =>
    have hopen : scanStep (within tokens current hasToken) 39 =
        .ok (quoted .single tokens current) :=
      rfl
    rw [Piece.render, foldlM_append, foldlM_cons, hopen, ok_bind,
      foldlM_single tokens hvalid, ok_bind]
    rfl
  | double inner =>
    have hopen : scanStep (within tokens current hasToken) 34 =
        .ok (quoted .double tokens current) :=
      rfl
    rw [Piece.render, foldlM_append, foldlM_cons, hopen, ok_bind,
      foldlM_flatMap (quoted .double tokens) fun i hi ↦ foldlM_inner tokens (hvalid i hi)
        (fun h ↦ hunbroken (h ▸ hi)), ok_bind]
    rfl
  | continuation => exact absurd hunbroken id

theorem foldlM_pieces {pieces : List Piece} (hvalid : ∀ p ∈ pieces, p.Valid)
    (hunbroken : ∀ p ∈ pieces, p.Unbroken) (hne : pieces ≠ []) :
    (pieces.flatMap Piece.render).foldlM scanStep (within tokens [] false) =
      .ok (within tokens (pieces.flatMap Piece.text) true) := by
  obtain ⟨p, pieces, rfl⟩ := exists_cons_of_ne_nil hne
  rw [flatMap_cons, foldlM_append, foldlM_piece tokens (hvalid p mem_cons_self)
    (hunbroken p mem_cons_self), ok_bind, nil_append,
    foldlM_flatMap (within tokens · true) fun q hq current ↦ foldlM_piece tokens
      (hvalid q (mem_cons_of_mem p hq)) (hunbroken q (mem_cons_of_mem p hq)) current true]
  rfl

/-- Blanks before a word change nothing. -/
theorem foldlM_gap {gap : List Gap} (h : .continuation ∉ gap) :
    (gap.flatMap Gap.render).foldlM scanStep (within tokens [] false) =
      .ok (within tokens [] false) := by
  have hgap := @foldlM_flatMap _ Gap.render (fun _ ↦ []) (fun _ ↦ within tokens [] false) gap
    (fun g hg _ ↦ ?_) []
  · exact hgap
  cases g with
  | space => rfl
  | tab => rfl
  | continuation => exact absurd hg h

/-- The first blank behind a word ends it. -/
theorem foldlM_gap_behind {gap : List Gap} (h : .continuation ∉ gap) (hne : gap ≠ [])
    (current : Bytes) : (gap.flatMap Gap.render).foldlM scanStep (within tokens current true) =
      if maxTokens ≤ tokens.length then .error tooManyArguments
      else .ok (within (tokens ++ [current]) [] false) := by
  obtain ⟨g, gap, rfl⟩ := exists_cons_of_ne_nil hne
  have hfirst : g.render.foldlM scanStep (within tokens current true) =
      if maxTokens ≤ tokens.length then .error tooManyArguments
      else .ok (within (tokens ++ [current]) [] false) := by
    cases g with
    | space | tab => exact bind_pure (finishToken (within tokens current true))
    | continuation => exact absurd mem_cons_self h
  rw [flatMap_cons, foldlM_append, hfirst]
  split
  · rfl
  · exact foldlM_gap _ fun hmem ↦ h (mem_cons_of_mem g hmem)

theorem endScan_within (current : Bytes) : endScan (within tokens current true) =
    if maxTokens ≤ tokens.length then .error tooManyArguments else .ok (tokens ++ [current]) := by
  by_cases hfull : maxTokens ≤ tokens.length <;>
    simp [endScan, within, finishToken, hfull, Except.map]

theorem Word.Valid.ne_nil {w : Word} (h : w.Valid) : w.pieces ≠ [] := by
  obtain ⟨p, hp, -⟩ := h.nonempty
  exact ne_nil_of_mem hp

/-- The words are read one after the other. -/
theorem foldlM_words {words : List Word} (hvalid : ∀ w ∈ words, w.Valid)
    (hseparated : Separated words) (hunbroken : ∀ w ∈ words, w.Unbroken)
    (hroom : tokens.length ≤ maxTokens) :
    ((words.flatMap Word.render).foldlM scanStep (within tokens [] false) >>= endScan) =
      if tokens.length + words.length ≤ maxTokens then .ok (tokens ++ words.map Word.text)
      else .error tooManyArguments := by
  induction words generalizing tokens with
  | nil =>
    rw [length_nil, Nat.add_zero, if_pos hroom]
    simp [within, endScan, finishToken, pure, Except.pure, bind, Except.bind, Except.map]
  | cons w words ih =>
    have hw := hvalid w mem_cons_self
    have hbroken := hunbroken w mem_cons_self
    rw [flatMap_cons, foldlM_append, Word.render, foldlM_append,
      foldlM_pieces tokens hw.pieces hbroken.pieces hw.ne_nil, ok_bind]
    by_cases hlast : w.gap = []
    · cases words with
      | cons v words =>
        obtain ⟨g, hg, -⟩ := hseparated.1
        rw [hlast] at hg
        cases hg
      | nil =>
        rw [hlast]
        refine (endScan_within tokens (w.pieces.flatMap Piece.text)).trans ?_
        by_cases hfull : maxTokens ≤ tokens.length
        · rw [if_pos hfull, if_neg (by simpa using hfull)]
        · rw [if_neg hfull, if_pos (by simpa using hfull)]
          rfl
    · rw [foldlM_gap_behind tokens hbroken.gap hlast]
      by_cases hfull : maxTokens ≤ tokens.length
      · rw [if_pos hfull, if_neg (by rw [length_cons]; omega)]
        rfl
      have hrest : Separated words := by
        cases words with
        | nil => trivial
        | cons v words => exact hseparated.2
      have hcount : (tokens ++ [w.text]).length + words.length =
          tokens.length + (w :: words).length := by simp; omega
      have hwords := ih (tokens ++ [w.text]) (fun v hv ↦ hvalid v (mem_cons_of_mem w hv)) hrest
        (fun v hv ↦ hunbroken v (mem_cons_of_mem w hv)) (by simp; omega)
      rw [hcount, append_assoc] at hwords
      rw [if_neg hfull, ok_bind]
      exact hwords

/-- A command without continuations is read as its words, within the limits. -/
theorem curlTokenize_render {command : Command} (hvalid : command.Valid)
    (hunbroken : command.Unbroken) : curlTokenize command.render =
      if maxCommandBytes < command.render.length then .error commandTooLong
      else if command.words.length ≤ maxTokens then .ok command.texts
      else .error tooManyArguments := by
  rw [curlTokenize]
  refine if_congr Iff.rfl rfl ?_
  have hwords := foldlM_words [] hvalid.words hvalid.separated hunbroken.words (by decide)
  rw [length_nil, Nat.zero_add, nil_append] at hwords
  refine Eq.trans ?_ hwords
  rw [Command.render, foldlM_append, show ({} : Scan) = within [] [] false from rfl,
    foldlM_gap [] hunbroken.front, ok_bind]

/-- The name of the program in front of a word in all kinds of quotes. -/
def mixed : Command where
  front := [.tab]
  words := [⟨[.plain 99], [.space, .tab]⟩, ⟨[.single [], .escaped 32, .double [.literal 97]], []⟩]

/-- Two words on two lines. -/
def continued : Command := ⟨[], [⟨[.plain 97], [.space, .continuation]⟩, ⟨[.plain 98], []⟩]⟩

end ClambHook.Developer.Shell
