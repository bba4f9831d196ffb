import Prompta.JsonValues

/-!
Texts of JSON values. The grammar says which texts stand for a value, with any white space
and any escapes. The parser reads one value off the front of a text; it reads every text of
the grammar, and what it has read closes every string that it opens.
-/
namespace Prompta.JsonTexts

open Texts JsonValues

def isJsonSpace (c : Char) : Bool := c = ' ' || c = '\t' || c = '\n' || c = '\r'

def Blank (t : Text) : Prop := ∀ c ∈ t, isJsonSpace c = true

def skipBlank (t : Text) : Text := t.dropWhile isJsonSpace

section Strings

/-- The character of an escape of one letter. -/
def simpleEscape : Char → Option Char
  | '"' => some '"'
  | '\\' => some '\\'
  | '/' => some '/'
  | 'b' => some '\x08'
  | 'f' => some '\x0c'
  | 'n' => some '\n'
  | 'r' => some '\r'
  | 't' => some '\t'
  | _ => none

def hexDigit (c : Char) : Option ℕ :=
  if isDigit c then some (c.toNat - '0'.toNat)
  else if 'a' ≤ c ∧ c ≤ 'f' then some (c.toNat - 'a'.toNat + 10)
  else if 'A' ≤ c ∧ c ≤ 'F' then some (c.toNat - 'A'.toNat + 10)
  else none

def hexUnit (a b c d : Char) : Option ℕ :=
  match hexDigit a, hexDigit b, hexDigit c, hexDigit d with
  | some a, some b, some c, some d => some (((a * 16 + b) * 16 + c) * 16 + d)
  | _, _, _, _ => none

/-- The code units up to the closing quote, and the text after it. -/
def scanUnits : Text → Option (List ℕ × Text)
  | [] => none
  | '"' :: rest => some ([], rest)
  | '\\' :: 'u' :: a :: b :: c :: d :: rest =>
    match hexUnit a b c d with
    | none => none
    | some unit => (scanUnits rest).map fun (units, after) => (unit :: units, after)
  | '\\' :: e :: rest =>
    match simpleEscape e with
    | none => none
    | some c => (scanUnits rest).map fun (units, after) => (c.toNat :: units, after)
  | c :: rest =>
    if c.toNat < 0x20 ∨ c = '\\' then none
    else (scanUnits rest).map fun (units, after) => (c.toNat :: units, after)

def isHighSurrogate (unit : ℕ) : Bool := 0xd800 ≤ unit && unit ≤ 0xdbff

def isLowSurrogate (unit : ℕ) : Bool := 0xdc00 ≤ unit && unit ≤ 0xdfff

/-- Two surrogates are one character. A text has no place for a lone one, and the
replacement character stands for it. -/
def joinUnits : List ℕ → Text
  | [] => []
  | [unit] => [if isHighSurrogate unit || isLowSurrogate unit then '\ufffd' else Char.ofNat unit]
  | unit :: next :: rest =>
    if isHighSurrogate unit && isLowSurrogate next then
      Char.ofNat (0x10000 + (unit - 0xd800) * 0x400 + (next - 0xdc00)) :: joinUnits rest
    else
      (if isHighSurrogate unit || isLowSurrogate unit then '\ufffd' else Char.ofNat unit) ::
        joinUnits (next :: rest)

/-- The texts that stand for a code unit inside a string. -/
inductive Spells : ℕ → Text → Prop
  | plain (c : Char) (hprint : 0x20 ≤ c.toNat) (hquote : c ≠ '"') (hescape : c ≠ '\\') :
      Spells c.toNat [c]
  | escape (e c : Char) (h : simpleEscape e = some c) : Spells c.toNat ['\\', e]
  | unicode (a b c d : Char) (unit : ℕ) (h : hexUnit a b c d = some unit) :
      Spells unit ['\\', 'u', a, b, c, d]

/-- The texts that stand for some code units between the quotes of a string. -/
inductive SpellsAll : List ℕ → Text → Prop
  | nil : SpellsAll [] []
  | cons {unit : ℕ} {spelling : Text} {units : List ℕ} {body : Text} (hunit : Spells unit spelling)
      (hrest : SpellsAll units body) : SpellsAll (unit :: units) (spelling ++ body)

/-- The texts between the quotes of a string. -/
def Body (s body : Text) : Prop := ∃ units, SpellsAll units body ∧ joinUnits units = s

theorem scanUnits_plain {c : Char} (hprint : 0x20 ≤ c.toNat) (hquote : c ≠ '"') (hescape : c ≠ '\\')
    (t : Text) :
    scanUnits (c :: t) = (scanUnits t).map fun (units, after) => (c.toNat :: units, after) := by
  rw [scanUnits.eq_def]
  split
  · rename_i h
    cases h
  · rename_i h
    cases h
    exact absurd rfl hquote
  · rename_i h
    cases h
    exact absurd rfl hescape
  · rename_i h
    cases h
    exact absurd rfl hescape
  · rename_i h
    cases h
    rw [if_neg]
    rintro (hcontrol | heq)
    · omega
    · exact hescape heq

theorem scanUnits_escape {e c : Char} (h : simpleEscape e = some c) (t : Text) :
    scanUnits ('\\' :: e :: t) =
      (scanUnits t).map fun (units, after) => (c.toNat :: units, after) := by
  have hunicode : e ≠ 'u' := by
    rintro rfl
    cases h
  rw [scanUnits.eq_def]
  split
  · rename_i h'
    cases h'
  · rename_i h'
    cases h'
  · rename_i h'
    cases h'
    exact absurd rfl hunicode
  · rename_i h'
    cases h'
    rw [h]
  · rename_i hne h'
    cases h'
    exact absurd rfl (hne e t rfl)

theorem scanUnits_unicode {a b c d : Char} {unit : ℕ} (h : hexUnit a b c d = some unit) (t : Text) :
    scanUnits ('\\' :: 'u' :: a :: b :: c :: d :: t) =
      (scanUnits t).map fun (units, after) => (unit :: units, after) := by
  rw [scanUnits, h]

/-- The scan reads every spelling. -/
theorem scanUnits_body {units : List ℕ} {body : Text} (h : SpellsAll units body) (rest : Text) :
    scanUnits (body ++ '"' :: rest) = some (units, rest) := by
  induction h with
  | nil => simp [scanUnits]
  | cons hunit _ ih =>
    cases hunit with
    | plain c hprint hquote hescape =>
      rw [List.append_assoc, List.singleton_append, scanUnits_plain hprint hquote hescape, ih]
      rfl
    | escape e c h =>
      rw [List.append_assoc, List.cons_append, List.singleton_append, scanUnits_escape h, ih]
      rfl
    | unicode a b c d unit h =>
      rw [List.append_assoc]
      simp only [List.cons_append, List.nil_append]
      rw [scanUnits_unicode h, ih]
      rfl

end Strings

section Quotes

/-- Where a text stands: outside of the strings, inside one, or after a backslash in one. -/
inductive Mode
  | outside
  | inside
  | escaped
  deriving DecidableEq, Repr

def Mode.step : Mode → Char → Mode
  | .outside, c => if c = '"' then .inside else .outside
  | .inside, c => if c = '"' then .outside else if c = '\\' then .escaped else .inside
  | .escaped, _ => .inside

def Mode.run (m : Mode) (t : Text) : Mode := t.foldl Mode.step m

@[simp] theorem Mode.run_nil (m : Mode) : m.run [] = m := rfl

@[simp] theorem Mode.run_cons (m : Mode) (c : Char) (t : Text) : m.run (c :: t) =
    (m.step c).run t := rfl

@[simp] theorem Mode.run_append (m : Mode) (t t' : Text) : m.run (t ++ t') = (m.run t).run t' := by
  unfold Mode.run
  rw [List.foldl_append]

/-- A text without quotes stays outside of the strings. -/
theorem run_unquoted {t : Text} (h : ∀ c ∈ t, c ≠ '"') : Mode.outside.run t = .outside := by
  induction t with
  | nil => rfl
  | cons c t ih =>
    have hstep : Mode.outside.step c = .outside := if_neg (h c List.mem_cons_self)
    rw [Mode.run_cons, hstep]
    exact ih fun d hd => h d (List.mem_cons_of_mem c hd)

/-- No part of the text from its start on leaves the string. -/
def StaysInside : Mode → Text → Prop
  | m, [] => m ≠ .outside
  | m, c :: t => m ≠ .outside ∧ StaysInside (m.step c) t

theorem staysInside_append (m : Mode) (t t' : Text) (h : StaysInside m t)
    (h' : StaysInside (m.run t) t') : StaysInside m (t ++ t') := by
  induction t generalizing m with
  | nil => exact h'
  | cons c t ih => exact ⟨h.1, ih (m.step c) h.2 h'⟩

theorem StaysInside.start {m : Mode} {t : Text} (h : StaysInside m t) : m ≠ .outside := by
  cases t with
  | nil => exact h
  | cons c t => exact h.1

/-- A cut of a text that stays inside is inside. -/
theorem StaysInside.cut {m : Mode} {frag rest : Text} (h : StaysInside m (frag ++ rest)) :
    m.run frag ≠ .outside := by
  induction frag generalizing m with
  | nil => exact h.start
  | cons c frag ih => exact ih h.2

theorem step_plain {c : Char} (hquote : c ≠ '"') (hescape : c ≠ '\\') :
    Mode.inside.step c = .inside := by
  show (if c = '"' then Mode.outside else if c = '\\' then .escaped else .inside) = .inside
  rw [if_neg hquote, if_neg hescape]

theorem hexDigit_step {c : Char} {n : ℕ} (h : hexDigit c = some n) :
    Mode.inside.step c = .inside := by
  have hquote : c ≠ '"' := by
    rintro rfl
    cases h
  have hescape : c ≠ '\\' := by
    rintro rfl
    cases h
  exact step_plain hquote hescape

theorem hexUnit_digits {a b c d : Char} {unit : ℕ} (h : hexUnit a b c d = some unit) :
    Mode.inside.step a = .inside ∧ Mode.inside.step b = .inside ∧ Mode.inside.step c = .inside ∧
      Mode.inside.step d = .inside := by
  unfold hexUnit at h
  split at h
  · rename_i ha hb hc hd
    exact ⟨hexDigit_step ha, hexDigit_step hb, hexDigit_step hc, hexDigit_step hd⟩
  · cases h

theorem spells_inside {unit : ℕ} {spelling : Text} (h : Spells unit spelling) :
    StaysInside .inside spelling ∧ Mode.inside.run spelling = .inside := by
  have hinside : Mode.inside ≠ .outside := by decide
  have hescaped : Mode.escaped ≠ .outside := by decide
  cases h with
  | plain c hprint hquote hescape =>
    have hstep := step_plain hquote hescape
    simp [StaysInside, hstep]
  | escape e c h => exact ⟨⟨hinside, hescaped, hinside⟩, rfl⟩
  | unicode a b c d unit h =>
    obtain ⟨ha, hb, hc, hd⟩ := hexUnit_digits h
    have hstart : Mode.inside.step '\\' = .escaped := rfl
    have hletter : Mode.escaped.step 'u' = .inside := rfl
    simp [StaysInside, hstart, hletter, ha, hb, hc, hd]

theorem body_inside {units : List ℕ} {body : Text} (h : SpellsAll units body) :
    StaysInside .inside body ∧ Mode.inside.run body = .inside := by
  induction h with
  | nil => exact ⟨Mode.noConfusion, rfl⟩
  | cons hunit _ ih =>
    obtain ⟨hstays, hrun⟩ := spells_inside hunit
    refine ⟨staysInside_append _ _ _ hstays ?_, ?_⟩
    · rw [hrun]
      exact ih.1
    · rw [Mode.run_append, hrun]
      exact ih.2

/-- What the scan has read ends with the closing quote. -/
theorem scanUnits_run {t : Text} {units : List ℕ} {rest : Text}
    (h : scanUnits t = some (units, rest)) :
    Mode.inside.run t = Mode.outside.run rest := by
  induction t using scanUnits.induct generalizing units with
  | case1 => cases h
  | case2 rest' =>
    rw [scanUnits] at h
    cases h
    rfl
  | case3 a b c d t hnone =>
    rw [scanUnits, hnone] at h
    cases h
  | case4 a b c d t unit hunit ih =>
    rw [scanUnits, hunit] at h
    obtain ⟨⟨units', after⟩, hscan, heq⟩ := Option.map_eq_some_iff.mp h
    cases heq
    obtain ⟨ha, hb, hc, hd⟩ := hexUnit_digits hunit
    have hstart : Mode.inside.step '\\' = .escaped := rfl
    have hletter : Mode.escaped.step 'u' = .inside := rfl
    simp only [Mode.run_cons, hstart, hletter, ha, hb, hc, hd]
    exact ih hscan
  | case5 e t hunicode hnone =>
    rw [scanUnits, hnone] at h
    · cases h
    · exact hunicode
  | case6 e t hunicode c hc ih =>
    rw [scanUnits, hc] at h
    · obtain ⟨⟨units', after⟩, hscan, heq⟩ := Option.map_eq_some_iff.mp h
      cases heq
      exact ih hscan
    · exact hunicode
  | case7 c t hquote hunicode hescape hbad =>
    rw [scanUnits, if_pos hbad] at h
    · cases h
    · exact hquote
    · exact hunicode
    · exact hescape
  | case8 c t hquote hunicode hescape hbad ih =>
    rw [scanUnits, if_neg hbad] at h
    · obtain ⟨⟨units', after⟩, hscan, heq⟩ := Option.map_eq_some_iff.mp h
      cases heq
      rw [Mode.run_cons, step_plain hquote fun heq => hbad (Or.inr heq)]
      exact ih hscan
    · exact hquote
    · exact hunicode
    · exact hescape

end Quotes

section Numbers

def isNumberChar (c : Char) : Bool :=
  isDigit c || c = '+' || c = '-' || c = '.' || c = 'e' || c = 'E'

/-- The longest number of digits that an integer is read from. -/
def maxDigits : ℕ := 4300

def isDigits (t : Text) : Bool := t ≠ [] && t.all isDigit

def digitsValue (t : Text) : ℕ := t.foldl (fun n c => n * 10 + (c.toNat - '0'.toNat)) 0

/-- `[eE][-+]?[0-9]+` -/
def isExponent : Text → Bool
  | e :: sign :: digits =>
    (e = 'e' || e = 'E') &&
    (isDigits (sign :: digits) || ((sign = '+' || sign = '-') && isDigits digits))
  | _ => false

/-- `(\.[0-9]+)?([eE][-+]?[0-9]+)?`, but not empty. -/
def isFraction : Text → Bool
  | '.' :: t =>
    decide (t.takeWhile isDigit ≠ []) &&
      (decide (t.dropWhile isDigit = []) || isExponent (t.dropWhile isDigit))
  | t => isExponent t

def unsignedPart : Text → Text
  | '-' :: t => t
  | t => t

/-- The number that a text stands for. `written` is how the source language writes the
float of a text. -/
def numberToken (written : Text → Text) (t : Text) : Option Json :=
  let whole := (unsignedPart t).takeWhile isDigit
  let after := (unsignedPart t).dropWhile isDigit
  if whole = [] ∨ (whole.head? = some '0' ∧ whole.length ≠ 1) then none
  else if after = [] then
    if whole.length ≤ maxDigits then
      some (.int (if t.head? = some '-' then -(digitsValue whole : ℤ) else digitsValue whole))
    else none
  else if isFraction after then some (.float (written t))
  else none

/-- The values that are written as a word. -/
def constants : List (Text × Json) :=
  [(['n', 'u', 'l', 'l'], .null), (['t', 'r', 'u', 'e'], .bool true),
    (['f', 'a', 'l', 's', 'e'], .bool false), (['N', 'a', 'N'], .float ['N', 'a', 'N']),
    (['I', 'n', 'f', 'i', 'n', 'i', 't', 'y'], .float ['I', 'n', 'f', 'i', 'n', 'i', 't', 'y']),
    (['-', 'I', 'n', 'f', 'i', 'n', 'i', 't', 'y'], .float ['-', 'I', 'n', 'f', 'i', 'n', 'i',
      't', 'y'])]

/-- A word or a number at the front of a text. -/
def parseAtom (written : Text → Text) (t : Text) : Option (Json × Text) :=
  match constants.find? fun constant => constant.1.isPrefixOf t with
  | some constant => some (constant.2, t.drop constant.1.length)
  | none =>
    (numberToken written (t.takeWhile isNumberChar)).map fun value =>
      (value, t.dropWhile isNumberChar)

end Numbers

section Parser

variable (written : Text → Text)

/-- The fields of a dictionary: a repeated key keeps its place and takes the last value. -/
def dictOf (fields : Fields) : Fields :=
  fields.foldl (fun dict field => assign dict field.1 field.2) []

/-- A string, after its opening quote. -/
def parseString (t : Text) : Option (Text × Text) :=
  (scanUnits t).map fun (units, rest) => (joinUnits units, rest)

def parseKey (t : Text) : Option (Text × Text) :=
  match t with
  | '"' :: t' =>
    match parseString t' with
    | none => none
    | some (key, rest) =>
      match skipBlank rest with
      | ':' :: rest' => some (key, skipBlank rest')
      | _ => none
  | _ => none

mutual

/-- A value at the front of a text, with a bound on the number of steps. -/
def parseValue : ℕ → Text → Option (Json × Text)
  | 0, _ => none
  | n + 1, t =>
    match t with
    | '"' :: t' => (parseString t').map fun (s, rest) => (.str s, rest)
    | '[' :: t' =>
      match skipBlank t' with
      | ']' :: rest => some (.arr [], rest)
      | first =>
        match parseValue n first with
        | none => none
        | some (value, rest) =>
          (parseItems n rest).map fun (items, rest') => (.arr (value :: items), rest')
    | '{' :: t' =>
      match skipBlank t' with
      | '}' :: rest => some (.obj [], rest)
      | first =>
        match parseField n first with
        | none => none
        | some (field, rest) =>
          (parseFields n rest).map fun (fields, rest') => (.obj (dictOf (field :: fields)), rest')
    | _ => parseAtom written t

def parseField : ℕ → Text → Option ((Text × Json) × Text)
  | 0, _ => none
  | n + 1, t =>
    match parseKey t with
    | none => none
    | some (key, rest) => (parseValue n rest).map fun (value, rest') => ((key, value), rest')

def parseItems : ℕ → Text → Option (List Json × Text)
  | 0, _ => none
  | n + 1, t =>
    match skipBlank t with
    | ']' :: rest => some ([], rest)
    | ',' :: t' =>
      match parseValue n (skipBlank t') with
      | none => none
      | some (value, rest) =>
        (parseItems n rest).map fun (items, rest') => (value :: items, rest')
    | _ => none

def parseFields : ℕ → Text → Option (Fields × Text)
  | 0, _ => none
  | n + 1, t =>
    match skipBlank t with
    | '}' :: rest => some ([], rest)
    | ',' :: t' =>
      match parseField n (skipBlank t') with
      | none => none
      | some (field, rest) =>
        (parseFields n rest).map fun (fields, rest') => (field :: fields, rest')
    | _ => none

end

/-- `json.loads`, where it succeeds. Each step reads a character, so the length bounds the
steps. -/
def loads (t : Text) : Option Json :=
  match parseValue written (t.length + 1) (skipBlank t) with
  | some (value, rest) => if skipBlank rest = [] then some value else none
  | none => none

end Parser

section Grammar

/-- A value, the rest of an array after one of its values, or the rest of an object after
one of its fields. -/
inductive Part
  | value (v : Json)
  | items (vs : List Json)
  | fields (fs : Fields)

def KeyText (key text : Text) : Prop :=
  ∃ body b b', Body key body ∧ Blank b ∧ Blank b' ∧ text = '"' :: (body ++ '"' :: (b ++ ':' :: b'))

/-- The texts that stand for a part. No key is repeated. -/
inductive Writes (written : Text → Text) : Part → Text → Prop
  | constant (c : Text × Json) (h : c ∈ constants) : Writes written (.value c.2) c.1
  | number {t : Text} {v : Json} (h : numberToken written t = some v)
      (hchars : ∀ c ∈ t, isNumberChar c = true) : Writes written (.value v) t
  | str {s body : Text} (h : Body s body) :
      Writes written (.value (.str s)) ('"' :: (body ++ ['"']))
  | emptyArray {b : Text} (hb : Blank b) : Writes written (.value (.arr [])) ('[' :: (b ++ [']']))
  | array {b t t' : Text} {v : Json} {vs : List Json} (hb : Blank b)
      (hv : Writes written (.value v) t)
      (hvs : Writes written (.items vs) t') :
      Writes written (.value (.arr (v :: vs))) ('[' :: (b ++ (t ++ t')))
  | emptyObject {b : Text} (hb : Blank b) : Writes written (.value (.obj [])) ('{' :: (b ++ ['}']))
  | object {b key keyText t t' : Text} {v : Json} {fs : Fields} (hb : Blank b)
      (hkey : KeyText key keyText) (hv : Writes written (.value v) t)
      (hfs : Writes written (.fields fs) t') (hnodup : (((key, v) :: fs).map Prod.fst).Nodup) :
      Writes written (.value (.obj ((key, v) :: fs))) ('{' :: (b ++ (keyText ++ (t ++ t'))))
  | itemsEnd {b : Text} (hb : Blank b) : Writes written (.items []) (b ++ [']'])
  | itemsMore {b b' t t' : Text} {v : Json} {vs : List Json} (hb : Blank b) (hb' : Blank b')
      (hv : Writes written (.value v) t) (hvs : Writes written (.items vs) t') :
      Writes written (.items (v :: vs)) (b ++ ',' :: (b' ++ (t ++ t')))
  | fieldsEnd {b : Text} (hb : Blank b) : Writes written (.fields []) (b ++ ['}'])
  | fieldsMore {b b' key keyText t t' : Text} {v : Json} {fs : Fields} (hb : Blank b)
      (hb' : Blank b')
      (hkey : KeyText key keyText) (hv : Writes written (.value v) t)
      (hfs : Writes written (.fields fs) t') :
      Writes written (.fields ((key, v) :: fs)) (b ++ ',' :: (b' ++ (keyText ++ (t ++ t'))))

def Document (written : Text → Text) (v : Json) (t : Text) : Prop :=
  ∃ lead core trail, Blank lead ∧ Blank trail ∧ Writes written (.value v) core ∧
    t = lead ++ (core ++ trail)

/-- The first character of a value that is no word and no number. -/
def opener : Json → Option Char
  | .str _ => some '"'
  | .arr _ => some '['
  | .obj _ => some '{'
  | _ => none

def isAtomStart (c : Char) : Bool :=
  isDigit c || c = '-' || c = 'n' || c = 't' || c = 'f' || c = 'N' || c = 'I'

variable {written : Text → Text}

theorem skipBlank_append {b : Text} (hb : Blank b) (t : Text) :
    skipBlank (b ++ t) = skipBlank t := by
  unfold skipBlank
  rw [List.dropWhile_append_of_pos hb]

theorem skipBlank_cons {c : Char} (hc : isJsonSpace c = false) (t : Text) :
    skipBlank (c :: t) = c :: t := by
  unfold skipBlank
  rw [List.dropWhile_cons_of_neg (by simp [hc])]

/-- A number starts with a digit, or with a sign and a digit. -/
theorem numberToken_start {t : Text} {v : Json} (h : numberToken written t = some v) :
    opener v = none ∧ ((∃ c t', t = c :: t' ∧ isDigit c = true) ∨
      ∃ c t', t = '-' :: c :: t' ∧ isDigit c = true) := by
  unfold numberToken at h
  dsimp only at h
  split at h
  · cases h
  rename_i hwhole
  rw [not_or] at hwhole
  refine ⟨?_, ?_⟩
  · split at h
    · split at h
      · cases h
        rfl
      · cases h
    · split at h
      · cases h
        rfl
      · cases h
  · have hdigit : ∀ u : Text, u.takeWhile isDigit ≠ [] → ∃ c u', u = c :: u' ∧
        isDigit c = true := by
      intro u hu
      cases u with
      | nil => exact absurd rfl hu
      | cons c u =>
        refine ⟨c, u, rfl, ?_⟩
        by_contra hc
        exact hu (List.takeWhile_cons_of_neg hc)
    unfold unsignedPart at hwhole
    split at hwhole
    · rename_i t'
      obtain ⟨d, t'', rfl, hd⟩ := hdigit t' hwhole.1
      exact Or.inr ⟨d, t'', rfl, hd⟩
    · exact Or.inl (hdigit t hwhole.1)

theorem constant_start {c : Text × Json} (h : c ∈ constants) :
    opener c.2 = none ∧ ∃ d t, c.1 = d :: t ∧ isAtomStart d = true := by
  simp only [constants, List.mem_cons, List.not_mem_nil, or_false] at h
  rcases h with rfl | rfl | rfl | rfl | rfl | rfl <;> exact ⟨rfl, _, _, rfl, by decide⟩

/-- The first character of a value tells its kind. -/
theorem writes_start {v : Json} {t : Text} (h : Writes written (.value v) t) :
    ∃ c t', t = c :: t' ∧ (opener v = some c ∨ (opener v = none ∧ isAtomStart c = true)) := by
  cases h with
  | constant c hc =>
    obtain ⟨hopener, d, t', ht, hd⟩ := constant_start hc
    exact ⟨d, t', ht, Or.inr ⟨hopener, hd⟩⟩
  | number hnumber _ =>
    obtain ⟨hopener, ⟨c, t', rfl, hc⟩ | ⟨c, t', rfl, _⟩⟩ := numberToken_start hnumber
    · exact ⟨c, t', rfl, Or.inr ⟨hopener, by simp [isAtomStart, hc]⟩⟩
    · exact ⟨'-', c :: t', rfl, Or.inr ⟨hopener, by decide⟩⟩
  | str _ => exact ⟨'"', _, rfl, Or.inl rfl⟩
  | emptyArray _ => exact ⟨'[', _, rfl, Or.inl rfl⟩
  | array _ _ _ => exact ⟨'[', _, rfl, Or.inl rfl⟩
  | emptyObject _ => exact ⟨'{', _, rfl, Or.inl rfl⟩
  | object _ _ _ _ _ => exact ⟨'{', _, rfl, Or.inl rfl⟩

theorem opener_cases {v : Json} {c : Char} (h : opener v = some c) :
    c = '"' ∨ c = '[' ∨ c = '{' := by
  cases v <;> simp_all [opener, eq_comm]

/-- A value starts with no white space and with no closing bracket. -/
theorem start_visible {v : Json} {c : Char}
    (h : opener v = some c ∨ (opener v = none ∧ isAtomStart c = true)) :
    isJsonSpace c = false ∧ c ≠ ']' ∧ c ≠ '}' := by
  rcases h with hopener | ⟨_, hatom⟩
  · rcases opener_cases hopener with rfl | rfl | rfl <;> decide
  · refine ⟨?_, ?_, ?_⟩
    · by_contra hspace
      rw [Bool.not_eq_false] at hspace
      simp only [isJsonSpace, Bool.or_eq_true, decide_eq_true_eq] at hspace
      rcases hspace with ((rfl | rfl) | rfl) | rfl <;> exact absurd hatom (by decide)
    · rintro rfl
      exact absurd hatom (by decide)
    · rintro rfl
      exact absurd hatom (by decide)

def EndsNumber (t : Text) : Prop := ∀ c ∈ t.head?, isNumberChar c = false

theorem blank_ends {b : Text} (hb : Blank b) {c : Char} (hc : isNumberChar c = false)
    (rest : Text) :
    EndsNumber (b ++ c :: rest) := by
  intro d hd
  cases b with
  | nil =>
    obtain rfl := Option.some.inj hd
    exact hc
  | cons e b =>
    obtain rfl := Option.some.inj hd
    have hspace := hb e List.mem_cons_self
    simp only [isJsonSpace, Bool.or_eq_true, decide_eq_true_eq] at hspace
    rcases hspace with ((rfl | rfl) | rfl) | rfl <;> decide

theorem items_ends {vs : List Json} {t : Text} (h : Writes written (.items vs) t) (rest : Text) :
    EndsNumber (t ++ rest) := by
  cases h with
  | itemsEnd hb =>
    rw [List.append_assoc]
    exact blank_ends hb (by decide) _
  | itemsMore hb _ _ _ =>
    rw [List.append_assoc]
    exact blank_ends hb (by decide) _

theorem fields_ends {fs : Fields} {t : Text} (h : Writes written (.fields fs) t) (rest : Text) :
    EndsNumber (t ++ rest) := by
  cases h with
  | fieldsEnd hb =>
    rw [List.append_assoc]
    exact blank_ends hb (by decide) _
  | fieldsMore hb _ _ _ _ =>
    rw [List.append_assoc]
    exact blank_ends hb (by decide) _

theorem parseAtom_constant {c : Text × Json} (h : c ∈ constants) (rest : Text) :
    parseAtom written (c.1 ++ rest) = some (c.2, rest) := by
  simp only [constants, List.mem_cons, List.not_mem_nil, or_false] at h
  rcases h with rfl | rfl | rfl | rfl | rfl | rfl <;> rfl

theorem takeWhile_all {p : Char → Bool} {t rest : Text} (h : ∀ c ∈ t, p c = true)
    (hrest : ∀ c ∈ rest.head?, p c = false) :
    (t ++ rest).takeWhile p = t ∧ (t ++ rest).dropWhile p = rest := by
  rw [List.takeWhile_append_of_pos h, List.dropWhile_append_of_pos h]
  cases rest with
  | nil => simp
  | cons c rest =>
    have hc : p c = false := hrest c rfl
    simp [hc]

/-- No word starts like a number. -/
theorem number_no_constant {t : Text} {v : Json} (h : numberToken written t = some v)
    (rest : Text) :
    (constants.find? fun constant => constant.1.isPrefixOf (t ++ rest)) = none := by
  rw [List.find?_eq_none]
  intro c hc
  simp only [constants, List.mem_cons, List.not_mem_nil, or_false] at hc
  obtain ⟨_, ⟨d, t', rfl, hd⟩ | ⟨d, t', rfl, hd⟩⟩ := numberToken_start h
  · rcases hc with rfl | rfl | rfl | rfl | rfl | rfl
    all_goals
      intro hstart
      simp only [List.cons_append, List.isPrefixOf, Bool.and_eq_true, beq_iff_eq] at hstart
      obtain ⟨rfl, _⟩ := hstart
      exact absurd hd (by decide)
  · rcases hc with rfl | rfl | rfl | rfl | rfl | rfl
    all_goals
      intro hstart
      simp only [List.cons_append, List.isPrefixOf, Bool.and_eq_true, beq_iff_eq] at hstart
    all_goals
      try exact absurd hstart.1 (by decide)
    obtain ⟨_, rfl, _⟩ := hstart
    exact absurd hd (by decide)

theorem parseAtom_number {t : Text} {v : Json} (h : numberToken written t = some v)
    (hchars : ∀ c ∈ t, isNumberChar c = true) {rest : Text} (hrest : EndsNumber rest) :
    parseAtom written (t ++ rest) = some (v, rest) := by
  obtain ⟨htake, hdrop⟩ := takeWhile_all hchars hrest
  unfold parseAtom
  rw [number_no_constant h rest, htake, hdrop, h]
  rfl

theorem parseString_body {s body : Text} (h : Body s body) (rest : Text) :
    parseString (body ++ '"' :: rest) = some (s, rest) := by
  obtain ⟨units, hunits, rfl⟩ := h
  unfold parseString
  rw [scanUnits_body hunits rest]
  rfl

theorem parseKey_text {key text : Text} (h : KeyText key text) {c : Char} {rest : Text}
    (hc : isJsonSpace c = false) : parseKey (text ++ c :: rest) = some (key, c :: rest) := by
  obtain ⟨body, b, b', hbody, hb, hb', rfl⟩ := h
  have hcolon : skipBlank (':' :: (b' ++ c :: rest)) = ':' :: (b' ++ c :: rest) :=
    skipBlank_cons (by decide) _
  have hvalue : skipBlank (b' ++ c :: rest) = c :: rest := by
    rw [skipBlank_append hb', skipBlank_cons hc]
  have htext : '"' :: (body ++ '"' :: (b ++ ':' :: b')) ++ c :: rest =
      '"' :: (body ++ '"' :: (b ++ ':' :: (b' ++ c :: rest))) := by simp
  have hquoted : ∀ t : Text, parseKey ('"' :: t) = match parseString t with
      | none => none
      | some (key, rest) =>
        match skipBlank rest with
        | ':' :: rest' => some (key, skipBlank rest')
        | _ => none := fun _ => rfl
  rw [htext, hquoted, parseString_body hbody]
  dsimp only
  rw [skipBlank_append hb, hcolon]
  show some (key, skipBlank (b' ++ c :: rest)) = _
  rw [hvalue]

section Steps

variable {n : ℕ} {t rest : Text} {v : Json}

theorem parseValue_atom {c : Char} (h : isAtomStart c = true) :
    parseValue written (n + 1) (c :: t) = parseAtom written (c :: t) := by
  have hne : ∀ d, isAtomStart d = false → ∀ t' : Text, c :: t = d :: t' → False := by
    intro d hd t' heq
    cases heq
    exact Bool.noConfusion (h.symm.trans hd)
  rw [parseValue]
  · exact hne '"' (by decide)
  · exact hne '[' (by decide)
  · exact hne '{' (by decide)

theorem parseValue_array {t' : Text} {c : Char} (h : skipBlank t' = c :: t) (hc : c ≠ ']')
    (hv : parseValue written n (c :: t) = some (v, rest)) :
    parseValue written (n + 1) ('[' :: t') =
      (parseItems written n rest).map fun (items, rest') => (.arr (v :: items), rest') := by
  rw [parseValue]
  dsimp only
  rw [h]
  split
  · rename_i heq
    cases heq
    exact absurd rfl hc
  · rw [hv]

theorem parseValue_object {t' : Text} {field : Text × Json} (h : skipBlank t' = '"' :: t)
    (hfield : parseField written n ('"' :: t) = some (field, rest)) :
    parseValue written (n + 1) ('{' :: t') =
      (parseFields written n rest).map fun (fields, rest') =>
        (.obj (dictOf (field :: fields)), rest') := by
  rw [parseValue]
  dsimp only
  rw [h]
  split
  · rename_i heq
    cases heq
  · rw [hfield]

theorem parseItems_more {t' : Text} (h : skipBlank t' = ',' :: t)
    (hv : parseValue written n (skipBlank t) = some (v, rest)) :
    parseItems written (n + 1) t' =
      (parseItems written n rest).map fun (items, rest') => (v :: items, rest') := by
  rw [parseItems, h]
  split
  · rename_i heq
    cases heq
  · rename_i heq
    cases heq
    rw [hv]
  · rename_i _ hne
    exact absurd rfl (hne t)

theorem parseFields_more {t' : Text} {field : Text × Json} (h : skipBlank t' = ',' :: t)
    (hfield : parseField written n (skipBlank t) = some (field, rest)) :
    parseFields written (n + 1) t' =
      (parseFields written n rest).map fun (fields, rest') => (field :: fields, rest') := by
  rw [parseFields, h]
  split
  · rename_i heq
    cases heq
  · rename_i heq
    cases heq
    rw [hfield]
  · rename_i _ hne
    exact absurd rfl (hne t)

end Steps

/-- A dictionary whose keys differ is the list of its fields. -/
theorem dictOf_nodup {fields : Fields} (h : (fields.map Prod.fst).Nodup) :
    dictOf fields = fields := by
  have hfold : ∀ dict rest : Fields, ((dict ++ rest).map Prod.fst).Nodup →
      rest.foldl (fun dict field => assign dict field.1 field.2) dict = dict ++ rest := by
    intro dict rest
    induction rest generalizing dict with
    | nil =>
      intro _
      rw [List.append_nil]
      rfl
    | cons field rest ih =>
      intro hnodup
      have hfresh : (lookup dict field.1).isSome = false := by
        rw [Option.isSome_eq_false_iff, Option.isNone_iff_eq_none]
        unfold lookup
        rw [Option.map_eq_none_iff, List.find?_eq_none]
        intro entry hentry
        rw [List.map_append, List.map_cons, List.nodup_append] at hnodup
        have hne := hnodup.2.2 entry.1 (List.mem_map_of_mem hentry) field.1 List.mem_cons_self
        simpa using hne
      have hassign : assign dict field.1 field.2 = dict ++ [field] := by
        unfold assign
        rw [hfresh]
        rfl
      rw [List.foldl_cons, hassign, ih]
      · rw [List.append_assoc]
        rfl
      · rw [List.append_assoc]
        exact hnodup
  exact hfold [] fields h

theorem keyText_length {key text : Text} (h : KeyText key text) : 3 ≤ text.length := by
  obtain ⟨body, b, b', _, _, _, rfl⟩ := h
  simp
  omega

theorem keyText_start {key text : Text} (h : KeyText key text) : ∃ t, text = '"' :: t := by
  obtain ⟨body, b, b', _, _, _, rfl⟩ := h
  exact ⟨_, rfl⟩

/-- The parser reads the part off the front of every text, given a step for each character. -/
def Reads (written : Text → Text) : Part → Text → Prop
  | .value v, t => ∀ n rest, t.length ≤ n → EndsNumber rest →
    parseValue written n (t ++ rest) = some (v, rest)
  | .items vs, t => ∀ n rest, t.length ≤ n → parseItems written n (t ++ rest) = some (vs, rest)
  | .fields fs, t => ∀ n rest, t.length ≤ n → parseFields written n (t ++ rest) = some (fs, rest)

/-- A key and its value are read off the front. -/
theorem reads_field {key keyText t : Text} {v : Json} (hkey : KeyText key keyText)
    (hv : Writes written (.value v) t) (hreads : Reads written (.value v) t) {n : ℕ} {rest : Text}
    (hn : keyText.length + t.length ≤ n) (hrest : EndsNumber rest) :
    parseField written n (keyText ++ (t ++ rest)) = some ((key, v), rest) := by
  obtain ⟨c, t', rfl, hstart⟩ := writes_start hv
  have hlength := keyText_length hkey
  cases n with
  | zero => omega
  | succ n =>
    rw [parseField, List.cons_append, parseKey_text hkey (start_visible hstart).1]
    dsimp only
    rw [← List.cons_append, hreads n rest (by omega) hrest]
    rfl

theorem reads_constant {c : Text × Json} (hc : c ∈ constants) :
    Reads written (.value c.2) c.1 := by
  intro n rest hn _
  obtain ⟨_, d, t', ht, hd⟩ := constant_start hc
  have hread := @parseAtom_constant written c hc rest
  rw [ht] at hread hn ⊢
  cases n with
  | zero => simp at hn
  | succ n => rw [List.cons_append, parseValue_atom hd, ← List.cons_append, hread]

theorem reads_number {t : Text} {v : Json} (hnumber : numberToken written t = some v)
    (hchars : ∀ c ∈ t, isNumberChar c = true) : Reads written (.value v) t := by
  intro n rest hn hrest
  have hread := parseAtom_number hnumber hchars hrest
  obtain ⟨d, t', ht, hopener | ⟨_, hd⟩⟩ := writes_start (Writes.number hnumber hchars)
  · rw [(numberToken_start hnumber).1] at hopener
    cases hopener
  · rw [ht] at hread hn ⊢
    cases n with
    | zero => simp at hn
    | succ n => rw [List.cons_append, parseValue_atom hd, ← List.cons_append, hread]

theorem reads_string {s body : Text} (hbody : Body s body) :
    Reads written (.value (.str s)) ('"' :: (body ++ ['"'])) := by
  intro n rest hn _
  cases n with
  | zero => simp at hn
  | succ n =>
    have htext : '"' :: (body ++ ['"']) ++ rest = '"' :: (body ++ '"' :: rest) := by simp
    rw [htext, parseValue]
    dsimp only
    rw [parseString_body hbody]
    rfl

/-- White space before a part of a container is skipped. -/
theorem skipBlank_part {b t rest : Text} {c : Char} (hb : Blank b) (hc : isJsonSpace c = false) :
    skipBlank (b ++ c :: t ++ rest) = c :: (t ++ rest) := by
  rw [List.append_assoc, skipBlank_append hb]
  exact skipBlank_cons hc (t ++ rest)

theorem reads_emptyArray {b : Text} (hb : Blank b) :
    Reads written (.value (.arr [])) ('[' :: (b ++ [']'])) := by
  intro n rest hn _
  cases n with
  | zero => simp at hn
  | succ n =>
    have hclose : skipBlank (b ++ [']'] ++ rest) = ']' :: rest := skipBlank_part hb (by decide)
    rw [List.cons_append, parseValue]
    dsimp only
    rw [hclose]
    rfl

/-- An array that is not empty: its first value, then the rest. -/
theorem reads_array {b t t' : Text} {v : Json} {vs : List Json} (hb : Blank b)
    (hv : Writes written (.value v) t) (hvs : Writes written (.items vs) t')
    (ihv : Reads written (.value v) t) (ihvs : Reads written (.items vs) t') :
    Reads written (.value (.arr (v :: vs))) ('[' :: (b ++ (t ++ t'))) := by
  intro n rest hn _
  obtain ⟨c, u, rfl, hstart⟩ := writes_start hv
  obtain ⟨hspace, hclose, _⟩ := start_visible hstart
  cases n with
  | zero => simp at hn
  | succ n =>
    simp only [List.length_cons, List.length_append] at hn
    have hskip : skipBlank (b ++ (c :: u ++ t') ++ rest) = c :: (u ++ (t' ++ rest)) := by
      rw [List.cons_append, skipBlank_part hb hspace, List.append_assoc]
    have hfirst : parseValue written n (c :: (u ++ (t' ++ rest))) = some (v, t' ++ rest) :=
      ihv n (t' ++ rest) (by simp only [List.length_cons]; omega) (items_ends hvs rest)
    rw [List.cons_append, parseValue_array hskip hclose hfirst, ihvs n rest (by omega)]
    rfl

theorem reads_emptyObject {b : Text} (hb : Blank b) :
    Reads written (.value (.obj [])) ('{' :: (b ++ ['}'])) := by
  intro n rest hn _
  cases n with
  | zero => simp at hn
  | succ n =>
    have hclose : skipBlank (b ++ ['}'] ++ rest) = '}' :: rest := skipBlank_part hb (by decide)
    rw [List.cons_append, parseValue]
    dsimp only
    rw [hclose]
    rfl

/-- An object that is not empty, with its keys apart. -/
theorem reads_object {b key keyText t t' : Text} {v : Json} {fs : Fields} (hb : Blank b)
    (hkey : KeyText key keyText) (hv : Writes written (.value v) t)
    (hfs : Writes written (.fields fs) t') (hnodup : (((key, v) :: fs).map Prod.fst).Nodup)
    (ihv : Reads written (.value v) t) (ihfs : Reads written (.fields fs) t') :
    Reads written (.value (.obj ((key, v) :: fs))) ('{' :: (b ++ (keyText ++ (t ++ t')))) := by
  intro n rest hn _
  obtain ⟨k, rfl⟩ := keyText_start hkey
  cases n with
  | zero => simp at hn
  | succ n =>
    simp only [List.length_cons, List.length_append] at hn
    have hskip : skipBlank (b ++ ('"' :: k ++ (t ++ t')) ++ rest) =
        '"' :: (k ++ (t ++ (t' ++ rest))) := by
      rw [List.cons_append, skipBlank_part hb (by decide), List.append_assoc, List.append_assoc]
    have hfield : parseField written n ('"' :: (k ++ (t ++ (t' ++ rest)))) =
        some ((key, v), t' ++ rest) :=
      reads_field hkey hv ihv (by simp only [List.length_cons]; omega) (fields_ends hfs rest)
    rw [List.cons_append, parseValue_object hskip hfield, ihfs n rest (by omega)]
    simp only [Option.map_some, dictOf_nodup hnodup]

theorem reads_itemsEnd {b : Text} (hb : Blank b) : Reads written (.items []) (b ++ [']']) := by
  intro n rest hn
  cases n with
  | zero => simp at hn
  | succ n =>
    have hclose : skipBlank (b ++ [']'] ++ rest) = ']' :: rest := skipBlank_part hb (by decide)
    rw [parseItems, hclose]
    rfl

/-- The rest of an array: a comma, a value, and more. -/
theorem reads_itemsMore {b b' t t' : Text} {v : Json} {vs : List Json} (hb : Blank b)
    (hb' : Blank b') (hv : Writes written (.value v) t) (hvs : Writes written (.items vs) t')
    (ihv : Reads written (.value v) t) (ihvs : Reads written (.items vs) t') :
    Reads written (.items (v :: vs)) (b ++ ',' :: (b' ++ (t ++ t'))) := by
  intro n rest hn
  obtain ⟨c, u, rfl, hstart⟩ := writes_start hv
  obtain ⟨hspace, _, _⟩ := start_visible hstart
  cases n with
  | zero => simp at hn
  | succ n =>
    simp only [List.length_cons, List.length_append] at hn
    have hcomma : skipBlank (b ++ ',' :: (b' ++ (c :: u ++ t')) ++ rest) =
        ',' :: (b' ++ (c :: u ++ t') ++ rest) := skipBlank_part hb (by decide)
    have hskip : skipBlank (b' ++ (c :: u ++ t') ++ rest) = c :: (u ++ (t' ++ rest)) := by
      rw [List.cons_append, skipBlank_part hb' hspace, List.append_assoc]
    have hfirst : parseValue written n (skipBlank (b' ++ (c :: u ++ t') ++ rest)) =
        some (v, t' ++ rest) := by
      rw [hskip]
      exact ihv n (t' ++ rest) (by simp only [List.length_cons]; omega) (items_ends hvs rest)
    rw [parseItems_more hcomma hfirst, ihvs n rest (by omega)]
    rfl

theorem reads_fieldsEnd {b : Text} (hb : Blank b) : Reads written (.fields []) (b ++ ['}']) := by
  intro n rest hn
  cases n with
  | zero => simp at hn
  | succ n =>
    have hclose : skipBlank (b ++ ['}'] ++ rest) = '}' :: rest := skipBlank_part hb (by decide)
    rw [parseFields, hclose]
    rfl

/-- The rest of an object: a comma, a field, and more. -/
theorem reads_fieldsMore {b b' key keyText t t' : Text} {v : Json} {fs : Fields} (hb : Blank b)
    (hb' : Blank b') (hkey : KeyText key keyText) (hv : Writes written (.value v) t)
    (hfs : Writes written (.fields fs) t') (ihv : Reads written (.value v) t)
    (ihfs : Reads written (.fields fs) t') :
    Reads written (.fields ((key, v) :: fs)) (b ++ ',' :: (b' ++ (keyText ++ (t ++ t')))) := by
  intro n rest hn
  obtain ⟨k, rfl⟩ := keyText_start hkey
  cases n with
  | zero => simp at hn
  | succ n =>
    simp only [List.length_cons, List.length_append] at hn
    have hcomma : skipBlank (b ++ ',' :: (b' ++ ('"' :: k ++ (t ++ t'))) ++ rest) =
        ',' :: (b' ++ ('"' :: k ++ (t ++ t')) ++ rest) := skipBlank_part hb (by decide)
    have hskip : skipBlank (b' ++ ('"' :: k ++ (t ++ t')) ++ rest) =
        '"' :: (k ++ (t ++ (t' ++ rest))) := by
      rw [List.cons_append, skipBlank_part hb' (by decide), List.append_assoc, List.append_assoc]
    have hfield : parseField written n (skipBlank (b' ++ ('"' :: k ++ (t ++ t')) ++ rest)) =
        some ((key, v), t' ++ rest) := by
      rw [hskip]
      exact reads_field hkey hv ihv (by simp only [List.length_cons]; omega) (fields_ends hfs rest)
    rw [parseFields_more hcomma hfield, ihfs n rest (by omega)]
    rfl

/-- Every text of the grammar is read. -/
theorem writes_reads {part : Part} {t : Text}
    (h : Writes written part t) : Reads written part t := by
  induction h with
  | constant c hc => exact reads_constant hc
  | number hnumber hchars => exact reads_number hnumber hchars
  | str hbody => exact reads_string hbody
  | emptyArray hb => exact reads_emptyArray hb
  | array hb hv hvs ihv ihvs => exact reads_array hb hv hvs ihv ihvs
  | emptyObject hb => exact reads_emptyObject hb
  | object hb hkey hv hfs hnodup ihv ihfs => exact reads_object hb hkey hv hfs hnodup ihv ihfs
  | itemsEnd hb => exact reads_itemsEnd hb
  | itemsMore hb hb' hv hvs ihv ihvs => exact reads_itemsMore hb hb' hv hvs ihv ihvs
  | fieldsEnd hb => exact reads_fieldsEnd hb
  | fieldsMore hb hb' hkey hv hfs ihv ihfs => exact reads_fieldsMore hb hb' hkey hv hfs ihv ihfs

/-- The value of a text is read from it. -/
theorem loads_document {v : Json} {t : Text} (h : Document written v t) :
    loads written t = some v := by
  obtain ⟨lead, core, trail, hlead, htrail, hcore, rfl⟩ := h
  obtain ⟨c, u, hu, hstart⟩ := writes_start hcore
  have hskip : skipBlank (lead ++ (core ++ trail)) = core ++ trail := by
    rw [skipBlank_append hlead, hu, List.cons_append]
    exact skipBlank_cons (start_visible hstart).1 _
  have hends : EndsNumber trail := by
    intro d hd
    have hspace := htrail d (List.mem_of_mem_head? hd)
    simp only [isJsonSpace, Bool.or_eq_true, decide_eq_true_eq] at hspace
    rcases hspace with ((rfl | rfl) | rfl) | rfl <;> decide
  have hread : parseValue written ((lead ++ (core ++ trail)).length + 1) (core ++ trail) =
      some (v, trail) := by
    refine writes_reads hcore _ trail ?_ hends
    simp only [List.length_append]
    omega
  have hend : skipBlank trail = [] := by
    rw [← List.append_nil trail, skipBlank_append htrail]
    rfl
  unfold loads
  rw [hskip, hread]
  dsimp only
  rw [if_pos hend]

end Grammar

section Balance

variable {written : Text → Text}

theorem blank_run {b : Text} (hb : Blank b) : Mode.outside.run b = .outside := by
  apply run_unquoted
  rintro c hc rfl
  exact absurd (hb '"' hc) (by decide)

theorem skipBlank_run (t : Text) : Mode.outside.run (skipBlank t) = Mode.outside.run t := by
  have hblank : Blank (t.takeWhile isJsonSpace) := fun c hc => List.mem_takeWhile_imp hc
  calc
    Mode.outside.run (skipBlank t) =
        (Mode.outside.run (t.takeWhile isJsonSpace)).run (skipBlank t) := by rw [blank_run hblank]
    _ = Mode.outside.run (t.takeWhile isJsonSpace ++ skipBlank t) := (Mode.run_append _ _ _).symm
    _ = Mode.outside.run t := by rw [skipBlank, List.takeWhile_append_dropWhile]

theorem constant_run {c : Text × Json} (h : c ∈ constants) : Mode.outside.run c.1 = .outside := by
  simp only [constants, List.mem_cons, List.not_mem_nil, or_false] at h
  rcases h with rfl | rfl | rfl | rfl | rfl | rfl <;> rfl

theorem number_run {t : Text} (h : ∀ c ∈ t, isNumberChar c = true) :
    Mode.outside.run t = .outside := by
  apply run_unquoted
  rintro c hc rfl
  exact absurd (h '"' hc) (by decide)

theorem parseAtom_run {t rest : Text} {v : Json} (h : parseAtom written t = some (v, rest)) :
    Mode.outside.run t = Mode.outside.run rest := by
  unfold parseAtom at h
  split at h
  · rename_i c hc
    have hstart := List.find?_some hc
    obtain ⟨rest', rfl⟩ := List.isPrefixOf_iff_prefix.mp hstart
    cases h
    rw [Mode.run_append, constant_run (List.mem_of_find?_eq_some hc), List.drop_left]
  · obtain ⟨value, _, heq⟩ := Option.map_eq_some_iff.mp h
    cases heq
    have hnumber : Mode.outside.run (t.takeWhile isNumberChar) = .outside :=
      number_run fun c hc => List.mem_takeWhile_imp hc
    conv_lhs => rw [← @List.takeWhile_append_dropWhile _ isNumberChar t]
    rw [Mode.run_append, hnumber]

theorem parseString_run {t s rest : Text} (h : parseString t = some (s, rest)) :
    Mode.outside.run ('"' :: t) = Mode.outside.run rest := by
  obtain ⟨⟨units, after⟩, hscan, heq⟩ := Option.map_eq_some_iff.mp h
  cases heq
  exact scanUnits_run hscan

theorem parseKey_run {t key rest : Text} (h : parseKey t = some (key, rest)) :
    Mode.outside.run t = Mode.outside.run rest := by
  unfold parseKey at h
  split at h
  · rename_i t'
    split at h
    · cases h
    · rename_i key' after hstring
      split at h
      · rename_i after' hcolon
        cases h
        have hafter := skipBlank_run after
        rw [hcolon] at hafter
        rw [parseString_run hstring, skipBlank_run, ← hafter]
        rfl
      · cases h
  · cases h

/-- What the parser reads off a text in so many steps closes every string that it opens. -/
structure Closes (written : Text → Text) (n : ℕ) : Prop where
  value : ∀ t v rest, parseValue written n t = some (v, rest) →
    Mode.outside.run t = Mode.outside.run rest
  field : ∀ t field rest, parseField written n t = some (field, rest) →
    Mode.outside.run t = Mode.outside.run rest
  items : ∀ t vs rest, parseItems written n t = some (vs, rest) →
    Mode.outside.run t = Mode.outside.run rest
  fields : ∀ t fs rest, parseFields written n t = some (fs, rest) →
    Mode.outside.run t = Mode.outside.run rest

theorem closes_zero : Closes written 0 := by
  refine ⟨?_, ?_, ?_, ?_⟩
  · intro t v rest h
    rw [parseValue] at h
    cases h
  · intro t field rest h
    rw [parseField] at h
    cases h
  · intro t vs rest h
    rw [parseItems] at h
    cases h
  · intro t fs rest h
    rw [parseFields] at h
    cases h

section Closing

variable {n : ℕ} (ih : Closes written n)

include ih

theorem Closes.value_succ (t : Text) (v : Json) (rest : Text)
    (h : parseValue written (n + 1) t = some (v, rest)) :
    Mode.outside.run t = Mode.outside.run rest := by
  rw [parseValue.eq_def] at h
  dsimp only at h
  split at h
  · rename_i t'
    obtain ⟨⟨s, after⟩, hstring, heq⟩ := Option.map_eq_some_iff.mp h
    cases heq
    exact parseString_run hstring
  · rename_i t'
    have hskip := skipBlank_run t'
    split at h
    · rename_i after hclose
      cases h
      rw [hclose] at hskip
      exact hskip.symm
    · split at h
      · cases h
      · rename_i value after hvalue
        obtain ⟨⟨vs, after'⟩, hitems, heq⟩ := Option.map_eq_some_iff.mp h
        cases heq
        rw [← ih.items _ _ _ hitems, ← ih.value _ _ _ hvalue]
        exact hskip.symm
  · rename_i t'
    have hskip := skipBlank_run t'
    split at h
    · rename_i after hclose
      cases h
      rw [hclose] at hskip
      exact hskip.symm
    · split at h
      · cases h
      · rename_i field after hfield
        obtain ⟨⟨fs, after'⟩, hfields, heq⟩ := Option.map_eq_some_iff.mp h
        cases heq
        rw [← ih.fields _ _ _ hfields, ← ih.field _ _ _ hfield]
        exact hskip.symm
  · exact parseAtom_run h

theorem Closes.field_succ (t : Text) (field : Text × Json) (rest : Text)
    (h : parseField written (n + 1) t = some (field, rest)) :
    Mode.outside.run t = Mode.outside.run rest := by
  rw [parseField] at h
  split at h
  · cases h
  · rename_i key after hkey
    obtain ⟨⟨value, after'⟩, hvalue, heq⟩ := Option.map_eq_some_iff.mp h
    cases heq
    rw [parseKey_run hkey]
    exact ih.value _ _ _ hvalue

theorem Closes.items_succ (t : Text) (vs : List Json) (rest : Text)
    (h : parseItems written (n + 1) t = some (vs, rest)) :
    Mode.outside.run t = Mode.outside.run rest := by
  rw [parseItems] at h
  have hskip := skipBlank_run t
  split at h
  · rename_i after hclose
    cases h
    rw [hclose] at hskip
    exact hskip.symm
  · rename_i after hcomma
    rw [hcomma] at hskip
    split at h
    · cases h
    · rename_i value after' hvalue
      obtain ⟨⟨vs', after''⟩, hitems, heq⟩ := Option.map_eq_some_iff.mp h
      cases heq
      rw [← ih.items _ _ _ hitems, ← ih.value _ _ _ hvalue, skipBlank_run]
      exact hskip.symm
  · cases h

theorem Closes.fields_succ (t : Text) (fs : Fields) (rest : Text)
    (h : parseFields written (n + 1) t = some (fs, rest)) :
    Mode.outside.run t = Mode.outside.run rest := by
  rw [parseFields] at h
  have hskip := skipBlank_run t
  split at h
  · rename_i after hclose
    cases h
    rw [hclose] at hskip
    exact hskip.symm
  · rename_i after hcomma
    rw [hcomma] at hskip
    split at h
    · cases h
    · rename_i field after' hfield
      obtain ⟨⟨fs', after''⟩, hfields, heq⟩ := Option.map_eq_some_iff.mp h
      cases heq
      rw [← ih.fields _ _ _ hfields, ← ih.field _ _ _ hfield, skipBlank_run]
      exact hskip.symm
  · cases h

end Closing

theorem parse_run (n : ℕ) : Closes written n := by
  induction n with
  | zero => exact closes_zero
  | succ n ih => exact ⟨ih.value_succ, ih.field_succ, ih.items_succ, ih.fields_succ⟩

/-- A text that ends inside of a string stands for no value. -/
theorem loads_unclosed {t : Text} (h : Mode.outside.run t ≠ .outside) : loads written t = none := by
  unfold loads
  split
  · rename_i v rest hvalue
    split
    · rename_i hend
      have hrun := (parse_run _).value _ _ _ hvalue
      rw [skipBlank_run, ← skipBlank_run rest, hend] at hrun
      exact absurd hrun h
    · rfl
  · rfl

theorem keyText_run {key text : Text} (h : KeyText key text) :
    Mode.outside.run text = .outside := by
  obtain ⟨body, b, b', ⟨units, hbody, _⟩, hb, hb', rfl⟩ := h
  have hopen : Mode.outside.step '"' = .inside := rfl
  have hclose : Mode.inside.step '"' = .outside := rfl
  have hcolon : Mode.outside.step ':' = .outside := rfl
  simp only [Mode.run_cons, Mode.run_append, hopen, (body_inside hbody).2, hclose,
    blank_run hb, hcolon, blank_run hb']

/-- A text of the grammar ends outside of its strings. -/
theorem writes_run {part : Part} {t : Text} (h : Writes written part t) :
    Mode.outside.run t = .outside := by
  have hopen : Mode.outside.step '"' = .inside := rfl
  have hclose : Mode.inside.step '"' = .outside := rfl
  have hplain : ∀ c ∈ ['[', ']', '{', '}', ','], Mode.outside.step c = .outside := by
    simp only [List.forall_mem_cons]
    exact ⟨rfl, rfl, rfl, rfl, rfl, nofun⟩
  induction h with
  | constant c hc => exact constant_run hc
  | number _ hchars => exact number_run hchars
  | str hbody =>
    obtain ⟨units, hunits, _⟩ := hbody
    simp [hopen, (body_inside hunits).2, hclose]
  | emptyArray hb => simp [blank_run hb, hplain]
  | array hb _ _ ihv ihvs => simp [blank_run hb, hplain, ihv, ihvs]
  | emptyObject hb => simp [blank_run hb, hplain]
  | object hb hkey _ _ _ ihv ihfs => simp [blank_run hb, hplain, keyText_run hkey, ihv, ihfs]
  | itemsEnd hb => simp [blank_run hb, hplain]
  | itemsMore hb hb' _ _ ihv ihvs => simp [blank_run hb, blank_run hb', hplain, ihv, ihvs]
  | fieldsEnd hb => simp [blank_run hb, hplain]
  | fieldsMore hb hb' hkey _ _ ihv ihfs =>
    simp [blank_run hb, blank_run hb', hplain, keyText_run hkey, ihv, ihfs]

end Balance
end Prompta.JsonTexts
