import Mathlib.Data.List.Sort
import Prompta.ConnectorApproval
import Prompta.Scanners

/-!
The mentions of a draft. The browser marks the mentions it finds in a draft, and the server
splits the sent text at the mentions it finds. Both scan from left to right for a name of the
same catalog, longest names first, but each has its own tests of the characters around a name.
-/
namespace Prompta.ComposerMentions

open Texts ConnectorApproval Scanners

structure Mention where
  name : Text
  kind : Text
  deriving DecidableEq, Repr

/-- The Unicode tables of the two languages: the browser's lower case, the server's case
folding, its comparison of letters under `re.IGNORECASE`, its `\w`, and the browser's letters
and numbers. -/
structure Letters where
  lower : Text → Text
  casefold : Text → Text
  sameLetter : Char → Char → Bool
  isWordChar : Char → Bool
  isLetterOrNumber : Char → Bool

section Server

variable (u : Letters) (mentions : List Mention)

def longerName (a b : Text) : Prop := b.length ≤ a.length

instance : DecidableRel longerName := fun a b => inferInstanceAs (Decidable (b.length ≤ a.length))

/-- The alternatives of `_MENTION_PATTERN`. The alternation of no names is the empty name. -/
def alternatives : List Text :=
  match (mentions.map Mention.name).insertionSort longerName with
  | [] => [[]]
  | names => names

/-- `_MENTION_BY_NAME`: of names with one case folding the last one stands there. -/
def mentionByName (key : Text) : Option Mention :=
  mentions.reverse.find? fun m => decide (u.casefold m.name = key)

def previous (text : Text) (i : ℕ) : Option Char := if i = 0 then none else text[i - 1]?

/-- `(?<![\w@])` -/
def opensMatch (text : Text) (i : ℕ) : Bool :=
  (previous text i).all fun c => !u.isWordChar c && decide (c ≠ '@')

/-- `(?=$|[\s.,!?;:)\]}])` -/
def closesMatch (rest : Text) : Bool :=
  rest.head?.all fun c => isSpace c || decide (c ∈ ".,!?;:)]\x7d".toList)

/-- A name at the start of a text, whatever the case of its letters. -/
def spells (name rest : Text) : Bool :=
  decide (name.length ≤ rest.length) &&
    (List.zip name rest).all fun pair => u.sameLetter pair.1 pair.2

def serverTakes (text : Text) (i : ℕ) (name : Text) : Bool :=
  decide (text[i]? = some '@') && opensMatch u text i && spells u name (text.drop (i + 1)) &&
    closesMatch (text.drop (i + 1 + name.length))

/-- A match of the pattern at a position: where it ends, and its group. -/
def matchAt (text : Text) (i : ℕ) : Option (ℕ × Text) :=
  ((alternatives mentions).find? (serverTakes u text i)).map fun name =>
    (i + 1 + name.length, slice (i + 1) (i + 1 + name.length) text)

/-- `_MENTION_PATTERN.finditer(text)` -/
def patternMatches (text : Text) : List (Occurrence Text) :=
  scan (matchAt u mentions text) text.length

inductive Part
  | prose (text : Text)
  | mention (mention : Mention)
  deriving DecidableEq, Repr

def proseBefore (text : Text) (start stop : ℕ) : List Part :=
  if start < stop then [.prose (slice start stop text)] else []

/-- The loop of `split_native_mentions`. A match that the catalog lacks is a `KeyError`. -/
def splitFrom (text : Text) : ℕ → List (Occurrence Text) → Except Text (List Part)
  | start, [] => .ok (if start < text.length then [.prose (text.drop start)] else [])
  | start, o :: rest =>
    match mentionByName u mentions (u.casefold o.value) with
    | none => .error (u.casefold o.value)
    | some mention =>
      match splitFrom text o.stop rest with
      | .error key => .error key
      | .ok parts => .ok (proseBefore text start o.start ++ .mention mention :: parts)

def splitNativeMentions (text : Text) : Except Text (List Part) :=
  match splitFrom u mentions text 0 (patternMatches u mentions text) with
  | .error key => .error key
  | .ok parts => .ok (if parts = [] then [.prose text] else parts)

/-- The occurrences that the loop turns into mentions. -/
def found : List (Occurrence Text) → Except Text (List (Occurrence Mention))
  | [] => .ok []
  | o :: rest =>
    match mentionByName u mentions (u.casefold o.value) with
    | none => .error (u.casefold o.value)
    | some mention =>
      match found rest with
      | .error key => .error key
      | .ok occurrences => .ok (⟨o.start, o.stop, mention⟩ :: occurrences)

/-- The mentions that `split_native_mentions` splits out, with their places. -/
def splitMentions (text : Text) : Except Text (List (Occurrence Mention)) :=
  found u mentions (patternMatches u mentions text)

end Server

section Browser

variable (u : Letters) (mentions : List Mention)

/-- The code units of a character of a browser's string. -/
def codeUnits (c : Char) : ℕ := if c.toNat < 0x10000 then 1 else 2

def unitLength : Text → ℕ
  | [] => 0
  | c :: rest => codeUnits c + unitLength rest

/-- The characters that make up the first so many code units. A cut through a character, or
behind the end, gives no text that equals a name. -/
def takeUnits : Text → ℕ → Option Text
  | _, 0 => some []
  | [], _ + 1 => none
  | c :: rest, n + 1 =>
    if codeUnits c ≤ n + 1 then (takeUnits rest (n + 1 - codeUnits c)).map (c :: ·) else none

def longerMention (a b : Mention) : Prop := unitLength b.name ≤ unitLength a.name

instance : DecidableRel longerMention := fun a b =>
  inferInstanceAs (Decidable (unitLength b.name ≤ unitLength a.name))

def mentionsLongestFirst : List Mention := mentions.insertionSort longerMention

/-- The start of the draft, or one of `[\s([{]`. -/
def opensMention (text : Text) (i : ℕ) : Bool :=
  (previous text i).all fun c => isWhitespace c || decide (c ∈ "([\x7b".toList)

/-- The end of the draft, or none of `[\p{L}\p{N}_-]`. Half of a pair of code units is none. -/
def closesMention (rest : Text) : Bool :=
  rest.head?.all fun c =>
    decide (codeUnits c = 2) || !(u.isLetterOrNumber c || decide (c ∈ "_-".toList))

def browserTakes (text : Text) (i : ℕ) (mention : Mention) : Bool :=
  decide (text[i]? = some '@') && opensMention text i &&
    (takeUnits (text.drop (i + 1)) (unitLength mention.name)).any fun spelled =>
      decide (u.lower spelled = u.lower mention.name) &&
        closesMention u (text.drop (i + 1 + spelled.length))

/-- Where a name ends that starts behind a position. -/
def mentionStop (text : Text) (i : ℕ) (mention : Mention) : ℕ :=
  i + 1 + ((takeUnits (text.drop (i + 1)) (unitLength mention.name)).getD []).length

def selectAt (text : Text) (i : ℕ) : Option (ℕ × Mention) :=
  ((mentionsLongestFirst mentions).find? (browserTakes u text i)).map fun mention =>
    (mentionStop text i mention, mention)

def selectedDraftMentions (text : Text) : List (Occurrence Mention) :=
  scan (selectAt u mentions text) text.length

end Browser

section Tests

variable {u : Letters} {mentions : List Mention} {text : Text} {i : ℕ}

theorem takeUnits_length {t s : Text} {n : ℕ} (h : takeUnits t n = some s) :
    s.length ≤ t.length := by
  induction t generalizing n s with
  | nil =>
    cases n with
    | zero =>
      obtain rfl := Option.some.inj h
      exact Nat.le_refl 0
    | succ n => cases h
  | cons c rest ih =>
    cases n with
    | zero =>
      obtain rfl := Option.some.inj h
      exact Nat.zero_le _
    | succ n =>
      rw [takeUnits] at h
      split at h
      · obtain ⟨taken, htaken, rfl⟩ := Option.map_eq_some_iff.mp h
        have := ih htaken
        simp only [List.length_cons]
        omega
      · cases h

theorem at_position (h : text[i]? = some '@') : i < text.length := by
  obtain ⟨hi, _⟩ := List.getElem?_eq_some_iff.mp h
  exact hi

theorem matchAt_forward : Forward (matchAt u mentions text) text.length := by
  intro i stop value h
  obtain ⟨name, hname, hsame⟩ := Option.map_eq_some_iff.mp h
  obtain ⟨rfl, _⟩ := Prod.mk.inj hsame
  have htakes := List.find?_some hname
  simp only [serverTakes, spells, Bool.and_eq_true, decide_eq_true_eq] at htakes
  have hi := at_position htakes.1.1.1
  have hlength := htakes.1.2.1
  rw [List.length_drop] at hlength
  omega

theorem selectAt_forward : Forward (selectAt u mentions text) text.length := by
  intro i stop value h
  obtain ⟨m, hm, hsame⟩ := Option.map_eq_some_iff.mp h
  obtain ⟨rfl, rfl⟩ := Prod.mk.inj hsame
  have htakes := List.find?_some hm
  simp only [browserTakes, Bool.and_eq_true, decide_eq_true_eq] at htakes
  have hi := at_position htakes.1.1
  cases hspelled : takeUnits (text.drop (i + 1)) (unitLength m.name) with
  | none =>
    rw [hspelled] at htakes
    exact Bool.noConfusion htakes.2
  | some spelled =>
    have hlength := takeUnits_length hspelled
    rw [List.length_drop] at hlength
    have hstop : mentionStop text i m = i + 1 + spelled.length := by
      rw [mentionStop, hspelled]
      rfl
    omega

end Tests

section Loop

variable (u : Letters) (mentions : List Mention) (text : Text)

def entryOf (group : Text) : Option Mention := mentionByName u mentions (u.casefold group)

/-- The loop succeeds when every occurrence has an entry of the catalog. -/
theorem found_ok_iff (occurrences : List (Occurrence Text)) (result : List (Occurrence Mention)) :
    found u mentions occurrences = .ok result ↔
      occurrences.map (·.mapValue (entryOf u mentions)) = result.map (·.mapValue some) := by
  induction occurrences generalizing result with
  | nil =>
    cases result with
    | nil => exact iff_of_true rfl rfl
    | cons o rest => exact iff_of_false (fun h => by cases h) fun h => by cases h
  | cons o rest ih =>
    rw [found]
    cases hentry : mentionByName u mentions (u.casefold o.value) with
    | none =>
      refine iff_of_false (fun h => by cases h) ?_
      intro h
      cases result with
      | nil => cases h
      | cons first others =>
        have hvalue := congrArg Occurrence.value (List.cons.inj h).1
        have hnone : entryOf u mentions o.value = none := hentry
        simp only [Occurrence.mapValue, hnone] at hvalue
        cases hvalue
    | some mention =>
      have hmapped : o.mapValue (entryOf u mentions) = ⟨o.start, o.stop, some mention⟩ := by
        rw [Occurrence.mapValue, entryOf, hentry]
      rw [List.map_cons, hmapped]
      cases result with
      | nil =>
        refine iff_of_false (fun h => ?_) fun h => by cases h
        dsimp only at h
        split at h <;> cases h
      | cons first others =>
        obtain ⟨start, stop, value⟩ := first
        rw [List.map_cons, List.cons.injEq, ← ih others]
        simp only [Occurrence.mapValue, Occurrence.mk.injEq, Option.some.injEq]
        cases found u mentions rest with
        | error key =>
          exact iff_of_false (fun h => by cases h) fun h => by cases h.2
        | ok occurrences =>
          simp only [Except.ok.injEq, List.cons.injEq, Occurrence.mk.injEq]

/-- The parts of a text with these mentions in it. -/
def partsOf : ℕ → List (Occurrence Mention) → List Part
  | start, [] => if start < text.length then [.prose (text.drop start)] else []
  | start, o :: rest => proseBefore text start o.start ++ .mention o.value :: partsOf o.stop rest

theorem splitFrom_found (start : ℕ) (occurrences : List (Occurrence Text)) :
    splitFrom u mentions text start occurrences =
      (found u mentions occurrences).map (partsOf text start) := by
  induction occurrences generalizing start with
  | nil => rfl
  | cons o rest ih =>
    rw [splitFrom, found]
    cases mentionByName u mentions (u.casefold o.value) with
    | none => rfl
    | some mention =>
      dsimp only
      rw [ih]
      cases found u mentions rest <;> rfl

def mentionOf : Part → Option Mention
  | .prose _ => none
  | .mention mention => some mention

def proseOf : Part → Option Text
  | .prose text => some text
  | .mention _ => none

theorem partsOf_mentions (start : ℕ) (occurrences : List (Occurrence Mention)) :
    (partsOf text start occurrences).filterMap mentionOf = occurrences.map Occurrence.value := by
  induction occurrences generalizing start with
  | nil =>
    rw [partsOf]
    split <;> rfl
  | cons o rest ih =>
    rw [partsOf, proseBefore, List.filterMap_append, List.filterMap_cons]
    split <;> simp only [mentionOf, List.filterMap_cons, List.filterMap_nil, List.nil_append,
      List.map_cons, ih]

theorem slice_nil_iff {start stop : ℕ} (h : stop ≤ text.length) :
    slice start stop text = [] ↔ stop ≤ start := by
  rw [← List.length_eq_zero_iff, slice, List.length_take, List.length_drop]
  omega

theorem inOrder_start {start : ℕ} {occurrences : List (Occurrence Mention)}
    (h : InOrder text.length start occurrences) : start ≤ text.length := by
  induction occurrences generalizing start with
  | nil => exact h
  | cons o rest ih =>
    have := ih h.2.2
    have := h.1
    have := h.2.1
    omega

/-- The prose is what lies between the mentions, where something does. -/
theorem partsOf_prose {start : ℕ} {occurrences : List (Occurrence Mention)}
    (h : InOrder text.length start occurrences) :
    (partsOf text start occurrences).filterMap proseOf =
      (gaps text start occurrences).filter fun gap => !gap.isEmpty := by
  induction occurrences generalizing start with
  | nil =>
    have hstart : start ≤ text.length := h
    rw [partsOf, gaps]
    by_cases hrest : start < text.length
    · have hgap : text.drop start ≠ [] := by
        rw [ne_eq, List.drop_eq_nil_iff]
        omega
      rw [if_pos hrest]
      simp [hgap, proseOf]
    · have hgap : text.drop start = [] := List.drop_eq_nil_iff.mpr (by omega)
      rw [if_neg hrest, hgap]
      rfl
  | cons o rest ih =>
    have hstop := inOrder_start text h.2.2
    have hle := h.2.1
    rw [partsOf, gaps, List.filterMap_append, List.filterMap_cons, proseBefore]
    show _ ++ (partsOf text o.stop rest).filterMap proseOf = _
    rw [ih h.2.2]
    by_cases hbefore : start < o.start
    · have hgap : slice start o.start text ≠ [] := by
        rw [ne_eq, slice_nil_iff text (by omega)]
        omega
      rw [if_pos hbefore]
      simp [hgap, proseOf]
    · have hgap : slice start o.start text = [] := (slice_nil_iff text (by omega)).mpr (by omega)
      rw [if_neg hbefore, hgap]
      rfl

/-- The mentions stand where their occurrences stand. -/
theorem found_inOrder {occurrences : List (Occurrence Text)} {result : List (Occurrence Mention)}
    {start length : ℕ} (hfound : found u mentions occurrences = .ok result)
    (h : InOrder length start occurrences) : InOrder length start result := by
  rw [found_ok_iff] at hfound
  induction occurrences generalizing start result with
  | nil =>
    cases result with
    | nil => exact h
    | cons o rest => cases hfound
  | cons o rest ih =>
    cases result with
    | nil => cases hfound
    | cons o' rest' =>
      obtain ⟨hhead, htail⟩ := List.cons.inj hfound
      have hstart : o.start = o'.start := congrArg Occurrence.start hhead
      have hstop : o.stop = o'.stop := congrArg Occurrence.stop hhead
      obtain ⟨hfrom, hto, hrest⟩ := h
      rw [hstart] at hfrom hto
      rw [hstop] at hto hrest
      exact ⟨hfrom, hto, ih htail hrest⟩

end Loop

section Agreement

variable (u : Letters) (mentions : List Mention) (text : Text)

/-- At a position either no name passes the tests of either side, or the first name that passes
the server's tests ends where the first one that passes the browser's does, and the catalog
entry of what is spelled there is that one. -/
def AgreeAt (i : ℕ) : Prop :=
  ((∀ name ∈ alternatives mentions, serverTakes u text i name = false) ∧
      ∀ m ∈ mentions, browserTakes u text i m = false) ∨
    ∃ name m, (alternatives mentions).find? (serverTakes u text i) = some name ∧
      (mentionsLongestFirst mentions).find? (browserTakes u text i) = some m ∧
      mentionStop text i m = i + 1 + name.length ∧
      entryOf u mentions (slice (i + 1) (i + 1 + name.length) text) = some m

theorem serverTakes_none {i : ℕ} :
    matchAt u mentions text i = none ↔
      ∀ name ∈ alternatives mentions, serverTakes u text i name = false := by
  rw [matchAt, Option.map_eq_none_iff, List.find?_eq_none]
  simp only [Bool.not_eq_true]

theorem browserTakes_none {i : ℕ} :
    selectAt u mentions text i = none ↔ ∀ m ∈ mentions, browserTakes u text i m = false := by
  have hmem : ∀ m, m ∈ mentionsLongestFirst mentions ↔ m ∈ mentions :=
    fun m => List.mem_insertionSort longerMention
  rw [selectAt, Option.map_eq_none_iff, List.find?_eq_none]
  simp only [hmem, Bool.not_eq_true]

/-- The two tests give the same at a position if and only if the sides agree there. -/
theorem agreeAt_iff (i : ℕ) :
    mapTest some (selectAt u mentions text) i =
        mapTest (entryOf u mentions) (matchAt u mentions text) i ↔
      AgreeAt u mentions text i := by
  constructor
  · intro h
    cases hselect : selectAt u mentions text i with
    | none =>
      rw [mapTest, hselect] at h
      have hmatch : matchAt u mentions text i = none := Option.map_eq_none_iff.mp h.symm
      exact Or.inl ⟨(serverTakes_none u mentions text).mp hmatch,
        (browserTakes_none u mentions text).mp hselect⟩
    | some selected =>
      rw [mapTest, hselect] at h
      obtain ⟨⟨stop, group⟩, hmatch, hsame⟩ := Option.map_eq_some_iff.mp h.symm
      obtain ⟨m, hm, rfl⟩ := Option.map_eq_some_iff.mp hselect
      obtain ⟨name, hname, hgroup⟩ := Option.map_eq_some_iff.mp hmatch
      obtain ⟨rfl, rfl⟩ := Prod.mk.inj hgroup
      obtain ⟨hstop, hentry⟩ := Prod.mk.inj hsame
      exact Or.inr ⟨name, m, hname, hm, hstop.symm, hentry⟩
  · rintro (⟨hserver, hbrowser⟩ | ⟨name, m, hname, hm, hstop, hentry⟩)
    · rw [mapTest, mapTest, (serverTakes_none u mentions text).mpr hserver,
        (browserTakes_none u mentions text).mpr hbrowser]
      rfl
    · rw [mapTest, mapTest, selectAt, matchAt, hm, hname]
      simp only [Option.map_some, Prod.map, id, hstop, hentry]

/-- The two sides find the same mentions if and only if they agree wherever the browser looks,
that is, outside the mentions it has already found. -/
theorem same_mentions_iff :
    splitMentions u mentions text = .ok (selectedDraftMentions u mentions text) ↔
      ∀ i < text.length, Reached (selectAt u mentions text) 0 i → AgreeAt u mentions text i := by
  rw [splitMentions, found_ok_iff, patternMatches, selectedDraftMentions, ← scan_mapTest,
    ← scan_mapTest, eq_comm,
    scan_eq_iff (mapTest_forward some selectAt_forward) (mapTest_forward _ matchAt_forward)]
  simp only [mapTest_reached, agreeAt_iff]

/-- What the server splits out, it splits out whole: the mentions in their order, and between
them the prose of the text as it stands. -/
theorem split_parts {occurrences : List (Occurrence Mention)}
    (h : splitMentions u mentions text = .ok occurrences) :
    ∃ parts, splitNativeMentions u mentions text = .ok parts ∧
      parts.filterMap mentionOf = occurrences.map Occurrence.value ∧
      parts.filterMap proseOf =
        (if text = [] then [[]] else (gaps text 0 occurrences).filter fun gap => !gap.isEmpty) ∧
      weave text 0 occurrences = text := by
  have horder : InOrder text.length 0 occurrences :=
    found_inOrder u mentions h (scan_inOrder matchAt_forward)
  have hsplit : splitFrom u mentions text 0 (patternMatches u mentions text) =
      .ok (partsOf text 0 occurrences) := by
    rw [splitFrom_found]
    rw [splitMentions] at h
    rw [h]
    rfl
  have hprose := partsOf_prose text horder
  have hmentions := partsOf_mentions text 0 occurrences
  refine ⟨_, by rw [splitNativeMentions, hsplit], ?_, ?_, weave_inOrder horder⟩
  · split
    · rename_i hnone
      rw [hnone] at hmentions
      exact hmentions
    · exact hmentions
  · by_cases htext : text = []
    · subst htext
      have hnone : occurrences = [] := by
        cases occurrences with
        | nil => rfl
        | cons o rest =>
          have hstop := inOrder_start [] horder.2.2
          have hstart := horder.2.1
          simp only [List.length_nil] at hstop
          omega
      rw [hnone]
      rfl
    · rw [if_neg htext]
      split
      · rename_i hnone
        have hempty : occurrences = [] := by
          rw [hnone] at hmentions
          exact (List.map_eq_nil_iff.mp hmentions.symm)
        subst hempty
        simp [gaps, proseOf, htext]
      · exact hprose

/-- Both sides agree on the mentions exactly where their tests do, and the server's parts are
its mentions and the prose between them. -/
theorem mentions_agree_iff :
    (splitMentions u mentions text = .ok (selectedDraftMentions u mentions text) ↔
      ∀ i < text.length, Reached (selectAt u mentions text) 0 i → AgreeAt u mentions text i) ∧
    (∀ key, splitMentions u mentions text = .error key →
      splitNativeMentions u mentions text = .error key) ∧
    ∀ occurrences, splitMentions u mentions text = .ok occurrences →
      ∃ parts, splitNativeMentions u mentions text = .ok parts ∧
        parts.filterMap mentionOf = occurrences.map Occurrence.value ∧
        parts.filterMap proseOf =
          (if text = [] then [[]] else (gaps text 0 occurrences).filter fun gap => !gap.isEmpty) ∧
        weave text 0 occurrences = text := by
  refine ⟨same_mentions_iff u mentions text, ?_, fun _ => split_parts u mentions text⟩
  intro key h
  rw [splitMentions] at h
  rw [splitNativeMentions, splitFrom_found, h]
  rfl

def asciiLetters : Letters where
  lower := fun t => t.map Char.toLower
  casefold := fun t => t.map Char.toLower
  sameLetter := fun a b => a.toLower == b.toLower
  isWordChar := fun c => c.isAlphanum || c == '_'
  isLetterOrNumber := Char.isAlphanum

def glass : Mention := ⟨"Glass".toList, "connector".toList⟩

/-- An apostrophe ends a name for the browser and does not for the server. -/
theorem apostrophe_differs :
    selectedDraftMentions asciiLetters [glass] "@Glass's disk".toList = [⟨0, 6, glass⟩] ∧
      splitMentions asciiLetters [glass] "@Glass's disk".toList = .ok [] ∧
      splitNativeMentions asciiLetters [glass] "@Glass's disk".toList =
        .ok [.prose "@Glass's disk".toList] := by
  decide +kernel

example : splitNativeMentions asciiLetters [glass] "on @glass.".toList =
    .ok [.prose "on ".toList, .mention glass, .prose ".".toList] := by
  decide +kernel

end Agreement

end Prompta.ComposerMentions
