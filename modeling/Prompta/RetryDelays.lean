import Prompta.Binary64
import Prompta.ResponseCapture

/-!
The delay that a rate-limit message states. Pairs of a number and a unit are read off the text
behind the retry phrase and summed; a pair that is not recognised as such is passed over in
silence.
-/
namespace Prompta.RetryDelays

open Texts Binary64
open ResponseCapture (decimalValue)

/-- `\w` and the case folding of the language, as far as the ASCII letters and the digits go. -/
structure CharClasses where
  isWord : Char → Bool
  fold : Char → Text
  word_decimal : ∀ c, isDecimal c = true → isWord c = true
  word_lower : ∀ c : Char, 'a' ≤ c → c ≤ 'z' → isWord c = true
  word_blank : isWord ' ' = false
  fold_lower : ∀ c : Char, 'a' ≤ c → c ≤ 'z' → fold c = [c]
  fold_digit : ∀ c, isDigit c = true → fold c = [c]
  fold_blank : fold ' ' = [' ']

def defaultRetryAfter : ℕ := 5 * 60

def maxRetryAfter : ℕ := 365 * 86400

/-- The units of `_DURATION_TOKEN`. -/
def spellings : List Text :=
  ["week", "weeks", "w", "day", "days", "d", "hour", "hours", "hr", "hrs", "h", "minute", "minutes",
    "min", "mins", "m", "second", "seconds", "sec", "secs", "s"].map String.toList

def startsWithAny (unit : Text) (stems : List String) : Bool :=
  stems.any fun stem => stem.toList.isPrefixOf unit

def multiplier (unit : Text) : ℕ :=
  if startsWithAny unit ["week", "w"] then 7 * 86400
  else if startsWithAny unit ["day", "d"] then 86400
  else if startsWithAny unit ["hour", "hr", "h"] then 3600
  else if startsWithAny unit ["min", "m"] then 60
  else 1

structure Token where
  value : ℚ
  multiplier : ℕ

def digitsNumber (digits : Text) : ℕ := digits.foldl (fun n c => 10 * n + decimalValue c) 0

/-- The number that a decimal text stands for, before it is rounded. -/
def decimalNumber (whole fraction : Text) : ℚ :=
  digitsNumber (whole ++ fraction) / 10 ^ fraction.length

section Reading

variable (u : CharClasses)

/-- `(?:\.\d+)?` -/
def readFraction : Text → Text
  | '.' :: rest => rest.takeWhile isDecimal
  | _ => []

/-- What follows the number. -/
def afterNumber (t fraction : Text) : Text := if fraction = [] then t else t.drop
    (fraction.length + 1)

/-- `_DURATION_TOKEN` at a position, with the length of the match. The digits are not preceded by a
word or a point, and the unit is a whole word. -/
def matchToken (before : Option Char) (t : Text) : Option (Token × ℕ) :=
  if before.any (fun c => u.isWord c || decide (c = '.')) then none
  else
    let whole := t.takeWhile isDecimal
    if whole = [] then none
    else
      let fraction := readFraction (t.drop whole.length)
      let spaced := afterNumber (t.drop whole.length) fraction
      let unit := (spaced.dropWhile isSpace).takeWhile u.isWord
      if unit ∈ spellings then
        some (⟨decimalNumber whole fraction, multiplier unit⟩,
          t.length - ((spaced.dropWhile isSpace).dropWhile u.isWord).length)
      else none

/-- `_DURATION_TOKEN.finditer`, where some characters of the last match are still to be passed. -/
def tokens (before : Option Char) (inside : ℕ) : Text → List Token
  | [] => []
  | c :: rest =>
    if 0 < inside then tokens (some c) (inside - 1) rest
    else
      match matchToken u before (c :: rest) with
      | some (token, length) => token :: tokens (some c) (length - 1) rest
      | none => tokens (some c) 0 rest

def afterWord (words : List String) (t : Text) : Option Text :=
  if String.ofList (t.takeWhile u.isWord) ∈ words then some (t.dropWhile u.isWord) else none

def afterSpaces (t : Text) : Option Text :=
  if t.takeWhile isSpace = [] then none else some (t.dropWhile isSpace)

/-- `_RETRY_PHRASE` at a position: what follows it. -/
def matchPhrase (before : Option Char) (t : Text) : Option Text :=
  if before.any u.isWord then none
  else
    let again := ((afterWord u ["try"] t).bind afterSpaces).bind (afterWord u ["again"])
    let verb := again.orElse fun _ =>
      afterWord u ["retry", "available", "reset", "resets", "wait"] t
    (verb.bind afterSpaces).bind (afterWord u ["in", "after", "for"])

/-- `a few minutes` at a position. The article may be left out. -/
def matchFew (before : Option Char) (t : Text) : Option Text :=
  if before.any u.isWord then none
  else
    ((afterWord u ["few"] t).bind afterSpaces).bind
    (afterWord u ["minute", "minutes", "min", "mins"])

def search (test : Option Char → Text → Option Text) (before : Option Char) : Text → Option Text
  | [] => test before []
  | c :: rest =>
    match test before (c :: rest) with
    | some found => some found
    | none => search test (some c) rest

/-- The sum of the recognised pairs, in floating point. -/
def sumTokens (ts : List Token) : Option ℚ :=
  ts.foldl (fun seconds token => add seconds (scale (round token.value) token.multiplier)) (some 0)

def parseRetryAfter (text : Text) : ℕ :=
  let lowered := (text.take 2048).flatMap u.fold
  let durationText := (search (matchPhrase u) none lowered).getD lowered
  let seconds := (sumTokens (tokens u none 0 durationText)).filter fun s => decide (0 < s)
  match seconds with
  | some s => ⌈min s maxRetryAfter⌉₊
  | none =>
    if (search (matchFew u) none durationText).isSome then 5 * 60 else defaultRetryAfter

end Reading

/-- A stated number and unit, with what stands between them and behind them. -/
structure Pair (u : CharClasses) where
  digits : Text
  gap : Text
  unit : Text
  tail : Text
  digits_ne : digits ≠ []
  digits_digit : ∀ c ∈ digits, isDigit c = true
  gap_separator : ∀ c ∈ gap, u.isWord c = false ∧ u.fold c = [c]
  unit_spelling : unit ∈ spellings
  tail_plain : ∀ c ∈ tail, isDecimal c = false ∧ u.fold c = [c]

section Stated

variable {u : CharClasses}

def Pair.text (p : Pair u) : Text := p.digits ++ (p.gap ++ (p.unit ++ p.tail))

def pairsText (pairs : List (Pair u)) : Text := pairs.flatMap Pair.text

def stated (pairs : List (Pair u)) : Text := "try again in ".toList ++ pairsText pairs

def Pair.seconds (p : Pair u) : ℕ := digitsNumber p.digits * multiplier p.unit

def total (pairs : List (Pair u)) : ℕ := (pairs.map Pair.seconds).sum

/-- The last character of a text that follows another one. -/
def lastOf : Option Char → Text → Option Char
  | before, [] => before
  | _, c :: rest => lastOf (some c) rest

/-- The number starts a word, only space stands before the unit, and the word that starts with the
unit is a unit. -/
def Recognised (before : Option Char) (p : Pair u) (rest : Text) : Prop :=
  before.any (fun c => u.isWord c || decide (c = '.')) = false ∧ p.gap.all isSpace = true ∧
    (p.unit ++ (p.tail ++ rest)).takeWhile u.isWord ∈ spellings

instance (before : Option Char) (p : Pair u) (rest : Text) : Decidable (Recognised before p rest) :=
  inferInstanceAs (Decidable (_ ∧ _))

def recognised (before : Option Char) : List (Pair u) → List (Pair u)
  | [] => []
  | p :: rest =>
    let others := recognised (lastOf before p.text) rest
    if Recognised before p (pairsText rest) then p :: others else others

def Pair.token (p : Pair u) : Token := ⟨(digitsNumber p.digits : ℚ), multiplier p.unit⟩

def NoOverflow (pairs : List (Pair u)) : Prop := sumTokens (pairs.map Pair.token) ≠ none

instance (pairs : List (Pair u)) : Decidable (NoOverflow pairs) :=
  inferInstanceAs (Decidable (¬_ = none))

/-- Nothing is lost: the recognised pairs do not overflow and have the whole sum, or 365 days; or
the default happens to be the stated delay. -/
def Honoured (pairs : List (Pair u)) : Prop :=
  let kept := recognised (some ' ') pairs
  NoOverflow kept ∧
    if 0 < total kept then total kept = total pairs ∨ maxRetryAfter ≤ total kept
    else total pairs = defaultRetryAfter

theorem isDecimal_of_digit {c : Char} (h : isDigit c = true) : isDecimal c = true := by
  simp only [isDigit, Bool.and_eq_true, decide_eq_true_eq] at h
  apply List.any_eq_true.mpr
  refine ⟨0x30, List.mem_cons_self, ?_⟩
  have hlow : ('0' : Char).toNat ≤ c.toNat := h.1
  have hhigh : c.toNat ≤ ('9' : Char).toNat := h.2
  have hzero : ('0' : Char).toNat = 48 := rfl
  have hnine : ('9' : Char).toNat = 57 := rfl
  rw [Bool.and_eq_true, decide_eq_true_eq, decide_eq_true_eq]
  omega

/-- The letters of the units: lower-case, and neither space nor digits. -/
def isUnitLetter (c : Char) : Bool := 'a' ≤ c && c ≤ 'z' && !isSpace c && !isDecimal c

theorem spelling_letters {unit : Text} (h : unit ∈ spellings) :
    unit ≠ [] ∧ unit.all isUnitLetter = true := by
  have hall : (spellings.all fun unit => unit ≠ [] && unit.all isUnitLetter) =
      true := by decide +kernel
  have hunit := List.all_eq_true.mp hall unit h
  rw [Bool.and_eq_true, decide_eq_true_eq] at hunit
  exact hunit

/-- A unit that starts with another one means the same. -/
theorem multiplier_prefix {a b : Text} (ha : a ∈ spellings) (hb : b ∈ spellings)
    (h : a <+: b) : multiplier b = multiplier a := by
  have hall : (spellings.all fun a => spellings.all fun b =>
      !a.isPrefixOf b || multiplier b == multiplier a) = true := by decide +kernel
  have hpair := List.all_eq_true.mp (List.all_eq_true.mp hall a ha) b hb
  rw [List.isPrefixOf_iff_prefix.mpr h] at hpair
  exact beq_iff_eq.mp hpair

theorem multiplier_pos (unit : Text) : 0 < multiplier unit := by
  unfold multiplier
  split_ifs <;> omega

theorem unitLetter_facts {c : Char} (h : isUnitLetter c = true) :
    u.isWord c = true ∧ isSpace c = false ∧ isDecimal c = false ∧ u.fold c = [c] := by
  simp only [isUnitLetter, Bool.and_eq_true, decide_eq_true_eq, Bool.not_eq_true'] at h
  obtain ⟨⟨⟨hlow, hhigh⟩, hspace⟩, hdecimal⟩ := h
  exact ⟨u.word_lower c hlow hhigh, hspace, hdecimal, u.fold_lower c hlow hhigh⟩

section Scan

theorem lastOf_append (before : Option Char) (t t' : Text) :
    lastOf before (t ++ t') = lastOf (lastOf before t) t' := by
  induction t generalizing before with
  | nil => rfl
  | cons c rest ih => exact ih (some c)

/-- The rest of a match is passed over. -/
theorem tokens_inside (before : Option Char) (t rest : Text) :
    tokens u before t.length (t ++ rest) = tokens u (lastOf before t) 0 rest := by
  induction t generalizing before with
  | nil => rfl
  | cons c t ih =>
    rw [List.cons_append, tokens, if_pos (by rw [List.length_cons]; omega)]
    exact ih (some c)

theorem matchToken_undecimal {before : Option Char} {c : Char} {rest : Text}
    (h : isDecimal c = false) :
    matchToken u before (c :: rest) = none := by
  have hwhole : (c :: rest).takeWhile isDecimal = [] :=
    List.takeWhile_cons_of_neg (by rw [h]; exact Bool.false_ne_true)
  unfold matchToken
  dsimp only
  rw [hwhole, if_pos rfl]
  split_ifs <;> rfl

theorem tokens_missed {before : Option Char} {c : Char} {rest : Text}
    (h : matchToken u before (c :: rest) = none) :
    tokens u before 0 (c :: rest) = tokens u (some c) 0 rest := by
  rw [tokens, if_neg (Nat.lt_irrefl 0), h]

/-- No number starts in a text without digits. -/
theorem tokens_plain {t : Text} (before : Option Char) (rest : Text)
    (h : ∀ c ∈ t, isDecimal c = false) :
    tokens u before 0 (t ++ rest) = tokens u (lastOf before t) 0 rest := by
  induction t generalizing before with
  | nil => rfl
  | cons c t ih =>
    rw [List.cons_append, tokens_missed (matchToken_undecimal (h c List.mem_cons_self))]
    exact ih (some c) fun d hd => h d (List.mem_cons_of_mem c hd)

theorem matchToken_behind {before : Option Char} {t : Text}
    (h : before.any (fun c => u.isWord c || decide (c = '.')) = true) :
    matchToken u before t = none := by
  unfold matchToken
  rw [if_pos h]

/-- No number starts inside of a number. -/
theorem tokens_digits {t : Text} {c : Char} (rest : Text) (hc : isDecimal c = true)
    (h : ∀ d ∈ t, isDecimal d = true) :
    tokens u (some c) 0 (t ++ rest) = tokens u (lastOf (some c) t) 0 rest := by
  induction t generalizing c with
  | nil => rfl
  | cons d t ih =>
    have hbehind : (some c).any (fun c => u.isWord c || decide (c = '.')) = true := by
      rw [Option.any_some, u.word_decimal c hc, Bool.true_or]
    rw [List.cons_append, tokens_missed (matchToken_behind hbehind)]
    exact ih (h d List.mem_cons_self) fun e he => h e (List.mem_cons_of_mem d he)

end Scan

theorem takeWhile_append_stop {p : Char → Bool} {t rest : Text} (ht : ∀ c ∈ t, p c = true)
    (hrest : ∀ c ∈ rest.head?, p c = false) :
    (t ++ rest).takeWhile p = t ∧ (t ++ rest).dropWhile p = rest := by
  have hnone : rest.takeWhile p = [] ∧ rest.dropWhile p = rest := by
    cases rest with
    | nil => exact ⟨rfl, rfl⟩
    | cons c rest =>
      have hc : ¬p c = true := by
        rw [hrest c rfl]
        exact Bool.false_ne_true
      exact ⟨List.takeWhile_cons_of_neg hc, List.dropWhile_cons_of_neg hc⟩
  rw [List.takeWhile_append_of_pos ht, List.dropWhile_append_of_pos ht, hnone.1, hnone.2,
    List.append_nil]
  exact ⟨rfl, rfl⟩

section Pairs

variable (p : Pair u)

theorem Pair.digits_decimal : ∀ c ∈ p.digits, isDecimal c = true :=
  fun c hc => isDecimal_of_digit (p.digits_digit c hc)

theorem Pair.unit_ne : p.unit ≠ [] := (spelling_letters p.unit_spelling).1

theorem Pair.unit_letters : ∀ c ∈ p.unit, isUnitLetter c = true :=
  List.all_eq_true.mp (spelling_letters p.unit_spelling).2

theorem Pair.gap_undecimal : ∀ c ∈ p.gap, isDecimal c = false := by
  intro c hc
  apply Bool.eq_false_iff.mpr
  intro hdecimal
  have hword := u.word_decimal c hdecimal
  rw [(p.gap_separator c hc).1] at hword
  exact Bool.false_ne_true hword

theorem Pair.unit_head (rest : Text) : ∀ c ∈ (p.unit ++ rest).head?, isUnitLetter c = true := by
  intro c hc
  cases hunit : p.unit with
  | nil => exact absurd hunit p.unit_ne
  | cons d unit =>
    rw [hunit] at hc
    obtain rfl := Option.some.inj hc
    apply p.unit_letters
    rw [hunit]
    exact List.mem_cons_self

/-- Behind the digits comes none. -/
theorem Pair.undecimal_head {t : Text} (ht : ∀ c ∈ t, isDecimal c = false) (rest : Text) :
    ∀ c ∈ (t ++ (p.unit ++ rest)).head?, isDecimal c = false := by
  intro c hc
  cases t with
  | nil => exact (unitLetter_facts (u := u) (p.unit_head rest c hc)).2.2.1
  | cons d t =>
    obtain rfl := Option.some.inj hc
    exact ht _ List.mem_cons_self

/-- A point behind the digits does not start a fraction. -/
theorem Pair.no_fraction (rest : Text) : readFraction (p.gap ++ (p.unit ++ rest)) = [] := by
  cases hgap : p.gap with
  | nil =>
    cases hunit : p.unit with
    | nil => exact absurd hunit p.unit_ne
    | cons d unit =>
      have hletter : isUnitLetter d = true :=
        p.unit_letters d (by rw [hunit]; exact List.mem_cons_self)
      show readFraction (d :: (unit ++ rest)) = []
      unfold readFraction
      split
      · rename_i heq
        rw [(List.cons.inj heq).1] at hletter
        exact absurd hletter (by decide)
      · rfl
  | cons d gap =>
    show readFraction (d :: (gap ++ (p.unit ++ rest))) = []
    unfold readFraction
    split
    · rename_i more heq
      have hgap' : ∀ c ∈ gap, isDecimal c = false :=
        fun c hc => p.gap_undecimal c (by rw [hgap]; exact List.mem_cons_of_mem d hc)
      rw [← (List.cons.inj heq).2]
      exact (takeWhile_append_stop (t := []) (fun _ hc => absurd hc List.not_mem_nil)
        (p.undecimal_head hgap' rest)).1
    · rfl

theorem not_spelling_nil : ([] : Text) ∉ spellings := fun h => (spelling_letters h).1 rfl

theorem Pair.text_append (rest : Text) :
    p.text ++ rest = p.digits ++ (p.gap ++ (p.unit ++ (p.tail ++ rest))) := by
  rw [Pair.text, List.append_assoc, List.append_assoc, List.append_assoc]

/-- What the token expression reads at the digits of a pair that do not follow a word. -/
theorem Pair.matchToken_eq {before : Option Char} (rest : Text)
    (hbefore : before.any (fun c => u.isWord c || decide (c = '.')) = false) :
    matchToken u before (p.text ++ rest) =
      if p.gap.all isSpace = true ∧ (p.unit ++ (p.tail ++ rest)).takeWhile u.isWord ∈ spellings then
        some (⟨decimalNumber p.digits [],
          multiplier ((p.unit ++ (p.tail ++ rest)).takeWhile u.isWord)⟩,
          (p.text ++ rest).length - ((p.unit ++ (p.tail ++ rest)).dropWhile u.isWord).length)
      else none := by
  have hwhole : (p.text ++ rest).takeWhile isDecimal = p.digits := by
    rw [p.text_append]
    exact (takeWhile_append_stop p.digits_decimal (p.undecimal_head p.gap_undecimal _)).1
  have hdrop : (p.text ++ rest).drop p.digits.length = p.gap ++ (p.unit ++ (p.tail ++ rest)) := by
    rw [p.text_append]
    exact List.drop_left
  unfold matchToken
  rw [if_neg (by rw [hbefore]; exact Bool.false_ne_true)]
  dsimp only
  rw [hwhole, if_neg p.digits_ne, hdrop, p.no_fraction, afterNumber, if_pos rfl]
  by_cases hgap : p.gap.all isSpace = true
  · have hspaces : (p.gap ++ (p.unit ++ (p.tail ++ rest))).dropWhile isSpace =
        p.unit ++ (p.tail ++ rest) := by
      apply (takeWhile_append_stop (List.all_eq_true.mp hgap) _).2
      intro c hc
      exact (unitLetter_facts (u := u) (p.unit_head _ c hc)).2.1
    rw [hspaces]
    simp only [hgap, true_and]
  · have hword : ((p.gap ++ (p.unit ++ (p.tail ++ rest))).dropWhile isSpace).takeWhile
        u.isWord = [] := by
      cases hdropped : p.gap.dropWhile isSpace with
      | nil =>
        exfalso
        apply hgap
        apply List.all_eq_true.mpr
        exact List.dropWhile_eq_nil_iff.mp hdropped
      | cons d gap =>
        have hmem : d ∈ p.gap := (List.dropWhile_suffix isSpace).subset (by
          rw [hdropped]
          exact List.mem_cons_self)
        rw [List.dropWhile_append, hdropped]
        show List.takeWhile u.isWord (d :: _) = []
        apply List.takeWhile_cons_of_neg
        rw [(p.gap_separator d hmem).1]
        exact Bool.false_ne_true
    rw [hword, if_neg not_spelling_nil, if_neg (fun h => hgap h.1)]

/-- The word that starts with the unit ends within the tail. -/
theorem Pair.run_within {rest : Text} (hrest : ∀ c ∈ rest.head?, isDecimal c = true)
    (hrun : (p.unit ++ (p.tail ++ rest)).takeWhile u.isWord ∈ spellings) :
    ∃ x y, p.tail = x ++ y ∧ (p.unit ++ (p.tail ++ rest)).takeWhile u.isWord = p.unit ++ x ∧
      (p.unit ++ (p.tail ++ rest)).dropWhile u.isWord = y ++ rest := by
  have hunit : ∀ c ∈ p.unit, u.isWord c = true :=
    fun c hc => (unitLetter_facts (p.unit_letters c hc)).1
  rw [List.takeWhile_append_of_pos hunit] at hrun ⊢
  rw [List.dropWhile_append_of_pos hunit]
  by_cases hword : ∀ c ∈ p.tail, u.isWord c = true
  · rw [List.takeWhile_append_of_pos hword] at hrun ⊢
    rw [List.dropWhile_append_of_pos hword]
    cases rest with
    | nil => exact ⟨p.tail, [], (List.append_nil _).symm, by rw [List.takeWhile_nil,
      List.append_nil], rfl⟩
    | cons c rest =>
      exfalso
      have hdecimal := hrest c rfl
      have hmem : c ∈ p.unit ++ (p.tail ++ (c :: rest).takeWhile u.isWord) := by
        rw [List.takeWhile_cons_of_pos (u.word_decimal c hdecimal)]
        exact List.mem_append_right _ (List.mem_append_right _ List.mem_cons_self)
      have hletter := List.all_eq_true.mp (spelling_letters hrun).2 c hmem
      rw [(unitLetter_facts (u := u) hletter).2.2.1] at hdecimal
      exact Bool.false_ne_true hdecimal
  · have hdropped : p.tail.dropWhile u.isWord ≠ [] :=
      fun hnil => hword (List.dropWhile_eq_nil_iff.mp hnil)
    refine ⟨p.tail.takeWhile u.isWord, p.tail.dropWhile u.isWord,
      List.takeWhile_append_dropWhile.symm, ?_, ?_⟩
    · rw [List.takeWhile_append, if_neg]
      intro hlength
      apply hdropped
      have hsplit := congrArg List.length
          (List.takeWhile_append_dropWhile (p := u.isWord) (l := p.tail))
      rw [List.length_append, hlength] at hsplit
      exact List.length_eq_zero_iff.mp (by omega)
    · rw [List.dropWhile_append, if_neg (by rw [List.isEmpty_iff]; exact hdropped)]

/-- A pair is read where it is found, and the search goes on behind it. -/
theorem tokens_found {before : Option Char} {found : Text} {rest : Text} {token : Token}
    (hne : found ≠ [])
    (h : matchToken u before (found ++ rest) = some (token, found.length)) :
    tokens u before 0 (found ++ rest) = token :: tokens u (lastOf before found) 0 rest := by
  cases found with
  | nil => exact absurd rfl hne
  | cons c found =>
    rw [List.cons_append, tokens, if_neg (Nat.lt_irrefl 0), ← List.cons_append, h]
    show token :: tokens u (some c) (found.length + 1 - 1) (found ++ rest) = _
    rw [Nat.add_sub_cancel, tokens_inside]
    rfl

theorem Pair.token_eq : p.token = ⟨decimalNumber p.digits [], multiplier p.unit⟩ := by
  rw [Pair.token, decimalNumber, List.append_nil, List.length_nil, pow_zero, div_one]

/-- A pair gives its token when it is recognised, and nothing else. -/
theorem Pair.tokens_eq (before : Option Char) {rest : Text}
    (hrest : ∀ c ∈ rest.head?, isDecimal c = true) :
    tokens u before 0 (p.text ++ rest) =
      (if Recognised before p rest then [p.token] else []) ++ tokens u
      (lastOf before p.text) 0 rest := by
  by_cases hrecognised : Recognised before p rest
  · obtain ⟨hbefore, hgap, hrun⟩ := hrecognised
    obtain ⟨x, y, htail, htake, hdrop⟩ := p.run_within hrest hrun
    have hsplit : p.text = (p.digits ++ (p.gap ++ (p.unit ++ x))) ++ y := by
      rw [Pair.text, htail]
      simp only [List.append_assoc]
    have hy : ∀ c ∈ y, isDecimal c = false := by
      intro c hc
      apply (p.tail_plain c _).1
      rw [htail]
      exact List.mem_append_right x hc
    have hmatch := p.matchToken_eq rest hbefore
    rw [if_pos ⟨hgap, hrun⟩, hdrop, htake] at hmatch
    have hmultiplier : multiplier (p.unit ++ x) = multiplier p.unit := by
      rw [htake] at hrun
      exact multiplier_prefix p.unit_spelling hrun (List.prefix_append _ _)
    have hlength : (p.text ++ rest).length - (y ++ rest).length =
        (p.digits ++ (p.gap ++ (p.unit ++ x))).length := by
      rw [hsplit]
      simp only [List.length_append]
      omega
    rw [hmultiplier, ← p.token_eq, hlength, hsplit, List.append_assoc] at hmatch
    have hfound : p.digits ++ (p.gap ++ (p.unit ++ x)) ≠ [] :=
      List.append_ne_nil_of_left_ne_nil p.digits_ne _
    rw [if_pos ⟨hbefore, hgap, hrun⟩, hsplit, List.append_assoc, tokens_found hfound hmatch,
      tokens_plain _ _ hy, ← lastOf_append]
    rfl
  · have hnone : matchToken u before (p.text ++ rest) = none := by
      cases hbefore : before.any fun c => u.isWord c || decide (c = '.') with
      | true => exact matchToken_behind hbefore
      | false =>
        rw [p.matchToken_eq rest hbefore, if_neg]
        intro h
        exact hrecognised ⟨hbefore, h⟩
    rw [if_neg hrecognised, List.nil_append]
    have hplain : ∀ c ∈ p.gap ++ (p.unit ++ p.tail), isDecimal c = false := by
      intro c hc
      rcases List.mem_append.mp hc with hgap | hc
      · exact p.gap_undecimal c hgap
      · rcases List.mem_append.mp hc with hunit | htail
        · exact (unitLetter_facts (u := u) (p.unit_letters c hunit)).2.2.1
        · exact (p.tail_plain c htail).1
    have hdecimal := p.digits_decimal
    have htext : p.text = p.digits ++ (p.gap ++ (p.unit ++ p.tail)) := rfl
    cases hdigits : p.digits with
    | nil => exact absurd hdigits p.digits_ne
    | cons c digits =>
      rw [hdigits] at htext hdecimal
      rw [htext, List.cons_append, List.cons_append] at hnone
      rw [htext, List.cons_append, List.cons_append, tokens_missed hnone, List.append_assoc,
        tokens_digits _ (hdecimal c List.mem_cons_self) fun d hd =>
          hdecimal d (List.mem_cons_of_mem c hd),
        tokens_plain _ _ hplain, ← lastOf_append]
      rfl

end Pairs

theorem pairsText_head (pairs : List (Pair u)) :
    ∀ c ∈ (pairsText pairs).head?, isDecimal c = true := by
  cases pairs with
  | nil => exact fun c hc => by cases hc
  | cons p rest =>
    intro c hc
    have hdecimal := p.digits_decimal
    rw [pairsText, List.flatMap_cons, p.text_append] at hc
    cases hdigits : p.digits with
    | nil => exact absurd hdigits p.digits_ne
    | cons d digits =>
      rw [hdigits] at hc hdecimal
      obtain rfl := Option.some.inj hc
      exact hdecimal _ List.mem_cons_self

/-- The tokens of the message are the recognised pairs. -/
theorem tokens_pairs (before : Option Char) (pairs : List (Pair u)) :
    tokens u before 0 (pairsText pairs) = (recognised before pairs).map Pair.token := by
  induction pairs generalizing before with
  | nil => rfl
  | cons p rest ih =>
    rw [show pairsText (p :: rest) = p.text ++ pairsText rest from List.flatMap_cons,
      p.tokens_eq before (pairsText_head rest), ih, recognised]
    split_ifs <;> rfl

section Sums

theorem approximates_sum (pairs : List (Pair u)) :
    Approximates (sumTokens (pairs.map Pair.token)) (total pairs) := by
  have hfold : ∀ (pairs : List (Pair u)) (x : Option ℚ) (n : ℕ), Approximates x n →
      Approximates ((pairs.map Pair.token).foldl
        (fun seconds token => add seconds (scale (round token.value) token.multiplier)) x)
        (n + total pairs) := by
    intro pairs
    induction pairs with
    | nil => exact fun x n hx => hx
    | cons p rest ih =>
      intro x n hx
      have hp : Approximates (scale (round p.token.value) p.token.multiplier) p.seconds :=
        (approximates_round _).scale (multiplier_pos p.unit)
      have htotal : n + total (p :: rest) = n + p.seconds + total rest := by
        rw [total, List.map_cons, List.sum_cons, Nat.add_assoc]
        rfl
      rw [List.map_cons, List.foldl_cons, htotal]
      exact ih _ _ (hx.add hp)
  have hzero : Approximates (some 0) 0 := by
    constructor
    · intro _
      rw [Nat.cast_zero]
    · intro h
      omega
  have hsum := hfold pairs (some 0) 0 hzero
  rw [Nat.zero_add] at hsum
  exact hsum

theorem recognised_total (before : Option Char) (pairs : List (Pair u)) :
    total (recognised before pairs) ≤ total pairs := by
  induction pairs generalizing before with
  | nil => exact Nat.le_refl _
  | cons p rest ih =>
    have hrest := ih (lastOf before p.text)
    have hcons : ∀ pairs : List (Pair u), total (p :: pairs) = p.seconds + total pairs :=
      fun pairs => by rw [total, List.map_cons, List.sum_cons]; rfl
    rw [recognised]
    split_ifs
    · rw [hcons, hcons]
      omega
    · rw [hcons]
      omega

end Sums

section Messages

variable (u)

/-- A unit is read up to the end of its word. -/
theorem afterWord_letters {words : List String} {word : Text} {rest : Text}
    (hword : String.ofList word ∈ words) (hletters : word.all isUnitLetter = true)
    (hrest : ∀ c ∈ rest.head?, u.isWord c = false) :
    afterWord u words (word ++ rest) = some rest := by
  obtain ⟨htake, hdrop⟩ := takeWhile_append_stop (t := word)
    (fun c hc => (unitLetter_facts (u := u) (List.all_eq_true.mp hletters c hc)).1) hrest
  unfold afterWord
  rw [htake, hdrop, if_pos hword]

theorem afterSpaces_blank {rest : Text} (hrest : ∀ c ∈ rest.head?, isSpace c = false) :
    afterSpaces (' ' :: rest) = some rest := by
  obtain ⟨htake, hdrop⟩ := @takeWhile_append_stop isSpace [' '] rest
    (fun c hc => by rw [List.mem_singleton.mp hc]; decide) hrest
  rw [List.singleton_append] at htake hdrop
  unfold afterSpaces
  rw [htake, hdrop, if_neg (List.cons_ne_nil _ _)]

theorem blank_word (rest : Text) : ∀ c ∈ (' ' :: rest).head?, u.isWord c = false := by
  intro c hc
  obtain rfl := Option.some.inj hc
  exact u.word_blank

/-- The retry phrase is found at once. -/
theorem search_stated (rest : Text) :
    search (matchPhrase u) none ("try again in ".toList ++ rest) = some (' ' :: rest) := by
  have hsplit : "try again in ".toList ++ rest =
      "try".toList ++ ' ' :: ("again".toList ++ ' ' :: ("in".toList ++ ' ' :: rest)) := rfl
  have hphrase : matchPhrase u none ("try again in ".toList ++ rest) = some (' ' :: rest) := by
    unfold matchPhrase
    rw [if_neg (show ¬Option.any u.isWord none = true from Bool.false_ne_true), hsplit,
      afterWord_letters u (by decide) (by decide +kernel) (blank_word u _),
      Option.bind_some, afterSpaces_blank, Option.bind_some,
      afterWord_letters u (by decide) (by decide +kernel) (blank_word u _)]
    · show (Option.bind (afterSpaces _) _) = _
      rw [afterSpaces_blank, Option.bind_some,
        afterWord_letters u (by decide) (by decide +kernel) (blank_word u _)]
      intro c hc
      obtain rfl := Option.some.inj hc
      decide
    · intro c hc
      obtain rfl := Option.some.inj hc
      decide
  rw [hsplit] at hphrase ⊢
  show search (matchPhrase u) none ('t' :: _) = _
  rw [search]
  show (match matchPhrase u none ("try".toList ++ _) with
    | some found => some found
    | none => _) = _
  rw [hphrase]

end Messages

theorem fold_stable {t : Text} (h : ∀ c ∈ t, u.fold c = [c]) : t.flatMap u.fold = t := by
  induction t with
  | nil => rfl
  | cons c rest ih =>
    rw [List.flatMap_cons, h c List.mem_cons_self, ih fun d hd => h d (List.mem_cons_of_mem c hd)]
    rfl

/-- Folding the case of the message changes nothing. -/
theorem stated_folded (pairs : List (Pair u)) : (stated pairs).flatMap u.fold = stated pairs := by
  apply fold_stable
  intro c hc
  rcases List.mem_append.mp hc with hphrase | hpairs
  · have hall : ("try again in ".toList.all fun c => decide (c = ' ') || isUnitLetter c) =
        true := by
      decide +kernel
    have hchar := List.all_eq_true.mp hall c hphrase
    rw [Bool.or_eq_true, decide_eq_true_eq] at hchar
    rcases hchar with rfl | hletter
    · exact u.fold_blank
    · exact (unitLetter_facts hletter).2.2.2
  · obtain ⟨p, _, hp⟩ := List.mem_flatMap.mp hpairs
    rcases List.mem_append.mp hp with hdigit | hp
    · exact u.fold_digit c (p.digits_digit c hdigit)
    · rcases List.mem_append.mp hp with hgap | hp
      · exact (p.gap_separator c hgap).2
      · rcases List.mem_append.mp hp with hunit | htail
        · exact (unitLetter_facts (p.unit_letters c hunit)).2.2.2
        · exact (p.tail_plain c htail).2

/-- The delay of a sum that stands for a natural number. -/
theorem delay_of_sum {x : Option ℚ} {n : ℕ} (h : Approximates x n) (fallback : ℕ) :
    (match x.filter fun s => decide (0 < s) with
      | some s => ⌈min s maxRetryAfter⌉₊
      | none => fallback) =
      if x ≠ none ∧ 0 < n then min n maxRetryAfter else fallback := by
  cases hx : x with
  | none =>
    rw [if_neg (fun h => h.1 rfl)]
    rfl
  | some r =>
    obtain ⟨m, rfl, hm⟩ := h.natural hx
    by_cases hpositive : 0 < n
    · have hcast : (0 : ℚ) < m := by
        have hmpos : 0 < m := by omega
        exact_mod_cast hmpos
      have hmin : min m maxRetryAfter = min n maxRetryAfter := by
        unfold maxRetryAfter
        omega
      have hfilter : Option.filter (fun s => decide (0 < s)) (some (m : ℚ)) = some (m : ℚ) := by
        rw [Option.filter_some, decide_eq_true hcast, if_pos rfl]
      rw [hfilter, if_pos ⟨Option.some_ne_none _, hpositive⟩]
      show ⌈min (m : ℚ) (maxRetryAfter : ℕ)⌉₊ = _
      rw [← Nat.cast_min, Nat.ceil_natCast, hmin]
    · have hcast : ¬(0 : ℚ) < m := by
        have hmzero : m = 0 := by omega
        rw [hmzero, Nat.cast_zero]
        exact lt_irrefl _
      have hfilter : Option.filter (fun s => decide (0 < s)) (some (m : ℚ)) = none := by
        rw [Option.filter_some, decide_eq_false hcast, if_neg Bool.false_ne_true]
      rw [hfilter, if_neg (fun h => hpositive h.2)]

theorem parse_eq (text : Text) (hlength : text.length ≤ 2048) :
    parseRetryAfter u text =
      let lowered := text.flatMap u.fold
      let durationText := (search (matchPhrase u) none lowered).getD lowered
      match (sumTokens (tokens u none 0 durationText)).filter fun s => decide (0 < s) with
      | some s => ⌈min s maxRetryAfter⌉₊
      | none => defaultRetryAfter := by
  unfold parseRetryAfter
  rw [List.take_of_length_le hlength]
  dsimp only
  split
  · rfl
  · split_ifs <;> rfl

/-- The delay is the sum of the recognised pairs up to the cap, or the default. -/
theorem parse_stated {pairs : List (Pair u)} (hlength : (stated pairs).length ≤ 2048) :
    parseRetryAfter u (stated pairs) =
      if NoOverflow (recognised (some ' ') pairs) ∧ 0 < total (recognised (some ' ') pairs) then
        min (total (recognised (some ' ') pairs)) maxRetryAfter
      else defaultRetryAfter := by
  have hundecimal : isDecimal ' ' = false := by decide +kernel
  have hblank : tokens u none 0 (' ' :: pairsText pairs) = tokens u (some ' ') 0
      (pairsText pairs) :=
    tokens_missed (matchToken_undecimal hundecimal)
  have hdelay := delay_of_sum (approximates_sum (recognised (some ' ') pairs)) defaultRetryAfter
  have hsearch : search (matchPhrase u) none (stated pairs) = some (' ' :: pairsText pairs) :=
    search_stated u (pairsText pairs)
  rw [parse_eq _ hlength, stated_folded]
  dsimp only
  rw [hsearch, Option.getD_some, hblank, tokens_pairs, hdelay]
  rfl

/-- An overflow needs more than 365 days. -/
theorem overflow_large {pairs : List (Pair u)} (h : ¬NoOverflow pairs) :
    maxRetryAfter < total pairs := by
  by_contra hsmall
  apply h
  unfold NoOverflow
  rw [(approximates_sum pairs).same (by unfold maxRetryAfter at hsmall; omega)]
  exact Option.some_ne_none _

/-- A stated delay is honoured exactly when no pair is passed over whose delay counts. -/
theorem delay_honoured_iff (pairs : List (Pair u)) (hpositive : 0 < total pairs)
    (hlength : (stated pairs).length ≤ 2048) :
    parseRetryAfter u (stated pairs) = min maxRetryAfter (total pairs) ↔ Honoured pairs := by
  have hkept := recognised_total (some ' ') pairs
  have hcaps : defaultRetryAfter = 300 ∧ maxRetryAfter = 31536000 := ⟨rfl, rfl⟩
  rw [parse_stated hlength]
  unfold Honoured
  dsimp only
  by_cases hoverflow : NoOverflow (recognised (some ' ') pairs)
  · by_cases hzero : 0 < total (recognised (some ' ') pairs)
    · rw [if_pos ⟨hoverflow, hzero⟩, if_pos hzero, and_iff_right hoverflow]
      omega
    · rw [if_neg (fun h => hzero h.2), if_neg hzero, and_iff_right hoverflow]
      omega
  · have hlarge := overflow_large hoverflow
    rw [if_neg (fun h => hoverflow h.1)]
    constructor
    · intro h
      omega
    · intro h
      exact absurd h.1 hoverflow

end Stated

section Example

/-- The classes of ASCII, with the digits of all scripts. -/
def asciiClasses : CharClasses where
  isWord := fun c => isDecimal c || ('a' ≤ c && c ≤ 'z') || ('A' ≤ c && c ≤ 'Z') || c = '_'
  fold := fun c => if 'A' ≤ c ∧ c ≤ 'Z' then [c.toLower] else [c]
  word_decimal := fun c h => by simp only [h, Bool.true_or]
  word_lower := fun c h h' => by
    simp only [h, h', decide_true, Bool.and_self, Bool.or_true, Bool.true_or]
  word_blank := by decide +kernel
  fold_lower := fun c h h' => by
    rw [if_neg]
    intro hupper
    exact absurd (Char.le_trans h hupper.2) (by decide)
  fold_digit := fun c h => by
    rw [if_neg]
    intro hupper
    simp only [isDigit, Bool.and_eq_true, decide_eq_true_eq] at h
    exact absurd (Char.le_trans hupper.1 h.2) (by decide)
  fold_blank := rfl

/-- The parts of a pair are what they should be. -/
def isPair (digits gap unit tail : String) : Bool :=
  decide (digits.toList ≠ []) && digits.toList.all isDigit &&
    gap.toList.all (fun c => !asciiClasses.isWord c && decide (asciiClasses.fold c = [c])) &&
    decide (unit.toList ∈ spellings) &&
    tail.toList.all fun c => !isDecimal c && decide (asciiClasses.fold c = [c])

def pairOf (digits gap unit tail : String) (h : isPair digits gap unit tail = true) :
    Pair asciiClasses := by
  simp only [isPair, Bool.and_eq_true, decide_eq_true_eq, List.all_eq_true, Bool.not_eq_true'] at h
  exact ⟨digits.toList, gap.toList, unit.toList, tail.toList, h.1.1.1.1, h.1.1.1.2, h.1.1.2,
    h.1.2, h.2⟩

/-- `2h 15m` -/
def spacedPairs : List (Pair asciiClasses) :=
  [pairOf "2" "" "h" " " (by decide +kernel), pairOf "15" "" "m" "" (by decide +kernel)]

theorem delay_honoured_spaced :
    parseRetryAfter asciiClasses (stated spacedPairs) = min maxRetryAfter (total spacedPairs) ↔
      Honoured spacedPairs :=
  delay_honoured_iff spacedPairs (by decide +kernel) (by decide +kernel)

/-- `1h30m` -/
def adjacentPairs : List (Pair asciiClasses) :=
  [pairOf "1" "" "h" "" (by decide +kernel), pairOf "30" "" "m" "" (by decide +kernel)]

/-- Neither of two adjacent pairs is recognised, and the default is shorter. -/
theorem adjacent_pairs_lost :
    stated adjacentPairs = "try again in 1h30m".toList ∧ total adjacentPairs = 5400 ∧
      parseRetryAfter asciiClasses (stated adjacentPairs) = 300 ∧
      parseRetryAfter asciiClasses (stated adjacentPairs) ≠ min maxRetryAfter
        (total adjacentPairs) := by
  have htotal : total adjacentPairs = 5400 := by decide +kernel
  have hnone : total (recognised (some ' ') adjacentPairs) = 0 := by decide +kernel
  have hparse : parseRetryAfter asciiClasses (stated adjacentPairs) = 300 := by
    rw [parse_stated (by decide +kernel), hnone, if_neg (fun h => Nat.lt_irrefl 0 h.2)]
    rfl
  refine ⟨by decide +kernel, htotal, hparse, ?_⟩
  rw [hparse, htotal]
  decide

end Example

end Prompta.RetryDelays
