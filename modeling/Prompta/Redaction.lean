import Prompta.JsonTexts
import Prompta.ToolEvents

/-!
Secrets in the displays of tool calls. A complete value is redacted field by field, so its
display does not depend on what is stored under a private key. The arguments of a call
arrive piece by piece, and a text that ends inside of a string is no value yet: it is
withheld when it opens like a structured value, and else it is shown as it is. An array
that starts with a word or a number does not open like one.
-/
namespace Prompta.Redaction

open Texts JsonValues JsonTexts ToolEvents

section Values

def isStructured : Json → Bool
  | .obj _ => true
  | .arr _ => true
  | _ => false

mutual

/-- The value without what is stored under private keys. -/
def publicPart : Json → Json
  | .obj fields => .obj (publicFields fields)
  | .arr items => .arr (publicItems items)
  | value => value

def publicItems : List Json → List Json
  | [] => []
  | item :: rest => publicPart item :: publicItems rest

def publicFields : Fields → Fields
  | [] => []
  | (key, value) :: rest =>
    (key, if isPrivateKey key then .null else publicPart value) :: publicFields rest

end

theorem publicItems_map (items : List Json) : publicItems items = items.map publicPart := by
  induction items with
  | nil => rw [publicItems, List.map_nil]
  | cons item rest ih => rw [publicItems, ih, List.map_cons]

theorem publicFields_map (fields : Fields) :
    publicFields fields = fields.map fun field =>
      (field.1, if isPrivateKey field.1 then .null else publicPart field.2) := by
  induction fields with
  | nil => rw [publicFields, List.map_nil]
  | cons field rest ih =>
    obtain ⟨key, value⟩ := field
    rw [publicFields, ih, List.map_cons]

theorem publicPart_scalar {value : Json} (h : isStructured value = false) :
    publicPart value = value := by
  cases value with
  | obj _ => exact Bool.noConfusion h
  | arr _ => exact Bool.noConfusion h
  | _ => simp only [publicPart]

theorem isStructured_publicPart (value : Json) :
    isStructured (publicPart value) = isStructured value := by
  cases value with
  | obj _ =>
    rw [publicPart]
    rfl
  | arr _ =>
    rw [publicPart]
    rfl
  | _ => rw [publicPart_scalar rfl]

/-- A redacted value shows the public part only. -/
theorem redact_publicPart (levels : ℕ) (value : Json) :
    redact levels (publicPart value) = redact levels value := by
  induction levels generalizing value with
  | zero => rw [redact, redact]
  | succ levels ih =>
    cases value with
    | obj fields =>
      rw [publicPart, redact, redact, publicFields_map, List.map_map]
      congr 1
      apply List.map_congr_left
      intro field _
      simp only [Function.comp_apply]
      split
      · rfl
      · rw [ih]
    | arr items =>
      rw [publicPart, redact, redact, publicItems_map, ← List.map_take, List.map_map]
      congr 1
      apply List.map_congr_left
      intro item _
      exact ih item
    | _ => rw [publicPart_scalar rfl]

theorem displayDecoded_structured (codec : Codec) (limit : ℕ) {value : Json}
    (h : isStructured value = true) :
    displayDecoded codec limit value = truncated limit (codec.dumps (redact 8 value)) := by
  cases value with
  | obj _ => rfl
  | arr _ => rfl
  | _ => exact Bool.noConfusion h

end Values

section Documents

variable (written : Text → Text) (dumps : Json → Text) (limit : ℕ)

def codec : Codec := ⟨loads written, dumps⟩

variable {written}

/-- A text of an object or an array is displayed by its redacted value. -/
theorem display_document {value : Json} {t : Text} (hstructured : isStructured value = true)
    (h : Document written value t) :
    display (codec written dumps) limit (.str t) = truncated limit (dumps (redact 8 value)) := by
  have hloads : loads written t = some value := loads_document h
  cases t with
  | nil => cases hloads
  | cons c t =>
    show displayDecoded (codec written dumps) limit ((loads written (c :: t)).getD _) = _
    rw [hloads]
    exact displayDecoded_structured (codec written dumps) limit hstructured

/-- Values that differ under private keys only are displayed alike. -/
theorem document_display {value value' : Json} {t t' : Text}
    (hstructured : isStructured value = true)
    (hsame : publicPart value = publicPart value') (h : Document written value t)
    (h' : Document written value' t') :
    display (codec written dumps) limit (.str t) = display (codec written dumps) limit
      (.str t') := by
  have hstructured' : isStructured value' = true := by
    rw [← isStructured_publicPart, ← hsame, isStructured_publicPart]
    exact hstructured
  rw [display_document dumps limit hstructured h, display_document dumps limit hstructured' h',
    ← redact_publicPart, hsame, redact_publicPart]

end Documents

/-- The string `s` is stored at or below a private key of the part: its texts are `start`,
then a text of `s`, the closing quote and `rest`. `hidden` says that the part itself is
stored so. -/
inductive SecretAt (written : Text → Text) (s : Text) : Bool → Part → Text → Text → Prop
  | here : SecretAt written s true (.value (.str s)) ['"'] []
  | arrayFirst {hidden : Bool} {b t' start rest : Text} {v : Json} {vs : List Json} (hb : Blank b)
      (hv : SecretAt written s hidden (.value v) start rest) (hvs : Writes written (.items vs) t') :
      SecretAt written s hidden (.value (.arr (v :: vs))) ('[' :: (b ++ start)) (rest ++ t')
  | arrayLater {hidden : Bool} {b t start rest : Text} {v : Json} {vs : List Json} (hb : Blank b)
      (hv : Writes written (.value v) t) (hvs : SecretAt written s hidden (.items vs) start rest) :
      SecretAt written s hidden (.value (.arr (v :: vs))) ('[' :: (b ++ (t ++ start))) rest
  | itemsFirst {hidden : Bool} {b b' t' start rest : Text} {v : Json} {vs : List Json}
      (hb : Blank b)
      (hb' : Blank b') (hv : SecretAt written s hidden (.value v) start rest)
      (hvs : Writes written (.items vs) t') :
      SecretAt written s hidden (.items (v :: vs)) (b ++ ',' :: (b' ++ start)) (rest ++ t')
  | itemsLater {hidden : Bool} {b b' t start rest : Text} {v : Json} {vs : List Json} (hb : Blank b)
      (hb' : Blank b') (hv : Writes written (.value v) t)
      (hvs : SecretAt written s hidden (.items vs) start rest) :
      SecretAt written s hidden (.items (v :: vs)) (b ++ ',' :: (b' ++ (t ++ start))) rest
  | objectFirst {hidden : Bool} {b key keyText t' start rest : Text} {v : Json} {fs : Fields}
      (hb : Blank b) (hkey : KeyText key keyText)
      (hv : SecretAt written s (hidden || isPrivateKey key) (.value v) start rest)
      (hfs : Writes written (.fields fs) t') (hnodup : (((key, v) :: fs).map Prod.fst).Nodup) :
      SecretAt written s hidden (.value (.obj ((key, v) :: fs))) ('{' :: (b ++ (keyText ++ start)))
        (rest ++ t')
  | objectLater {hidden : Bool} {b key keyText t start rest : Text} {v : Json} {fs : Fields}
      (hb : Blank b) (hkey : KeyText key keyText) (hv : Writes written (.value v) t)
      (hfs : SecretAt written s hidden (.fields fs) start rest)
      (hnodup : (((key, v) :: fs).map Prod.fst).Nodup) :
      SecretAt written s hidden (.value (.obj ((key, v) :: fs)))
        ('{' :: (b ++ (keyText ++ (t ++ start)))) rest
  | fieldsFirst {hidden : Bool} {b b' key keyText t' start rest : Text} {v : Json} {fs : Fields}
      (hb : Blank b) (hb' : Blank b') (hkey : KeyText key keyText)
      (hv : SecretAt written s (hidden || isPrivateKey key) (.value v) start rest)
      (hfs : Writes written (.fields fs) t') :
      SecretAt written s hidden (.fields ((key, v) :: fs)) (b ++ ',' :: (b' ++ (keyText ++ start)))
        (rest ++ t')
  | fieldsLater {hidden : Bool} {b b' key keyText t start rest : Text} {v : Json} {fs : Fields}
      (hb : Blank b) (hb' : Blank b') (hkey : KeyText key keyText)
      (hv : Writes written (.value v) t)
      (hfs : SecretAt written s hidden (.fields fs) start rest) :
      SecretAt written s hidden (.fields ((key, v) :: fs))
        (b ++ ',' :: (b' ++ (keyText ++ (t ++ start)))) rest

section Secrets

variable {written : Text → Text} {s : Text} {hidden : Bool} {part : Part} {start rest : Text}

/-- The text before a secret ends with its opening quote. -/
theorem secretAt_run (h : SecretAt written s hidden part start rest) :
    Mode.outside.run start = .inside := by
  have hplain : ∀ c ∈ ['[', '{', ','], Mode.outside.step c = .outside := by
    simp only [List.forall_mem_cons]
    exact ⟨rfl, rfl, rfl, nofun⟩
  induction h with
  | here => rfl
  | arrayFirst hb _ _ ih => simp [hplain, blank_run hb, ih]
  | arrayLater hb hv _ ih => simp [hplain, blank_run hb, writes_run hv, ih]
  | itemsFirst hb hb' _ _ ih => simp [hplain, blank_run hb, blank_run hb', ih]
  | itemsLater hb hb' hv _ ih => simp [hplain, blank_run hb, blank_run hb', writes_run hv, ih]
  | objectFirst hb hkey _ _ _ ih => simp [hplain, blank_run hb, keyText_run hkey, ih]
  | objectLater hb hkey hv _ _ ih => simp [hplain, blank_run hb, keyText_run hkey,
    writes_run hv, ih]
  | fieldsFirst hb hb' hkey _ _ ih =>
    simp [hplain, blank_run hb, blank_run hb', keyText_run hkey, ih]
  | fieldsLater hb hb' hkey hv _ ih =>
    simp [hplain, blank_run hb, blank_run hb', keyText_run hkey, writes_run hv, ih]

/-- The text before a secret shows what kind of value holds it. -/
theorem secretAt_start {v : Json} (h : SecretAt written s hidden (.value v) start rest) :
    ∃ c t, start = c :: t ∧ opener v = some c := by
  cases h with
  | here => exact ⟨'"', [], rfl, rfl⟩
  | arrayFirst _ _ _ => exact ⟨'[', _, rfl, rfl⟩
  | arrayLater _ _ _ => exact ⟨'[', _, rfl, rfl⟩
  | objectFirst _ _ _ _ _ => exact ⟨'{', _, rfl, rfl⟩
  | objectLater _ _ _ _ _ => exact ⟨'{', _, rfl, rfl⟩

/-- A part, from its start on, of a text of a string. -/
def Cut (frag : Text) : Prop := ∃ s body rest, Body s body ∧ body = frag ++ rest

/-- A text that is cut inside of a secret stands for no value. -/
theorem cut_unread {lead frag : Text} (hlead : Blank lead)
    (h : SecretAt written s hidden part start rest) (hcut : Cut frag) :
    loads written (lead ++ (start ++ frag)) = none := by
  obtain ⟨s', body, rest', ⟨units, hunits, _⟩, rfl⟩ := hcut
  apply loads_unclosed
  rw [Mode.run_append, blank_run hlead, Mode.run_append, secretAt_run h]
  exact (body_inside hunits).1.cut

def opensStructured : Json → Bool
  | .obj _ => true
  | .arr (v :: _) => (opener v).isSome
  | _ => false

theorem blank_space {b : Text} (hb : Blank b) : ∀ c ∈ b, isSpace c = true := by
  intro c hc
  have hspace := hb c hc
  simp only [isJsonSpace, Bool.or_eq_true, decide_eq_true_eq] at hspace
  rcases hspace with ((rfl | rfl) | rfl) | rfl <;> decide

/-- White space before a text does not change what it opens like. -/
theorem isPending_lead {lead : Text} (hlead : Blank lead) (t : Text) :
    isPending (lead ++ t) = isPending t := by
  unfold isPending
  rw [List.dropWhile_append_of_pos (blank_space hlead)]

theorem isPending_object (t : Text) : isPending ('{' :: t) = true := rfl

theorem isPending_array {b : Text} (hb : Blank b) {c : Char} (hc : isSpace c = false) (t : Text) :
    isPending ('[' :: (b ++ c :: t)) = decide (c = '[' ∨ c = '{' ∨ c = '"') := by
  have hskip : (b ++ c :: t).dropWhile isSpace = c :: t := by
    rw [List.dropWhile_append_of_pos (blank_space hb), List.dropWhile_cons_of_neg (by simp [hc])]
  have hopener : ∀ u, u.dropWhile isSpace = c :: t →
      isPending ('[' :: u) = decide (c = '[' ∨ c = '{' ∨ c = '"') := by
    intro u hu
    simp [isPending, hu, isSpace]
  exact hopener _ hskip

theorem digit_pending {c : Char} (h : isDigit c = true) :
    isSpace c = false ∧ decide (c = '[' ∨ c = '{' ∨ c = '"') = (none : Option Char).isSome := by
  simp only [isDigit, Bool.and_eq_true, decide_eq_true_eq] at h
  obtain ⟨hlow, hhigh⟩ := h
  have hcode : 48 ≤ c.toNat ∧ c.toNat ≤ 57 := ⟨hlow, hhigh⟩
  refine ⟨?_, ?_⟩
  · simp [isSpace]
    omega
  · rw [Option.isSome_none, decide_eq_false_iff_not]
    rintro (rfl | rfl | rfl) <;> exact absurd hcode (by decide)

theorem opener_pending {v : Json} {c : Char}
    (h : opener v = some c ∨ (opener v = none ∧ isAtomStart c = true)) :
    isSpace c = false ∧ decide (c = '[' ∨ c = '{' ∨ c = '"') = (opener v).isSome := by
  rcases h with hopener | ⟨hopener, hatom⟩
  · rw [hopener]
    rcases opener_cases hopener with rfl | rfl | rfl <;> decide
  · rw [hopener]
    simp only [isAtomStart, Bool.or_eq_true, decide_eq_true_eq] at hatom
    rcases hatom with (((((hdigit | rfl) | rfl) | rfl) | rfl) | rfl) | rfl
    · exact digit_pending hdigit
    all_goals decide

/-- What is shown of a cut text before the end of the value. -/
theorem isPending_cut {v : Json} {lead frag : Text} (hlead : Blank lead)
    (h : SecretAt written s false (.value v) start rest) :
    isPending (lead ++ (start ++ frag)) = opensStructured v := by
  rw [isPending_lead hlead]
  cases h with
  | arrayFirst hb hv _ =>
    obtain ⟨c, t, rfl, hopener⟩ := secretAt_start hv
    obtain ⟨hspace, hpending⟩ := opener_pending (Or.inl hopener)
    rw [List.cons_append, List.append_assoc, List.cons_append, isPending_array hb hspace, hpending]
    rfl
  | arrayLater hb hv _ =>
    obtain ⟨c, t, rfl, hstart⟩ := writes_start hv
    obtain ⟨hspace, hpending⟩ := opener_pending hstart
    rw [List.cons_append, List.append_assoc, List.append_assoc, List.cons_append,
      isPending_array hb hspace, hpending]
    rfl
  | objectFirst _ _ _ _ _ => exact isPending_object _
  | objectLater _ _ _ _ _ => exact isPending_object _

/-- The display does not depend on the string after the start, nor on where it is cut. -/
def Concealed (codec : Codec) (limit : ℕ) (start : Text) : Prop :=
  ∀ frag frag', Cut frag → Cut frag' →
    display codec limit (.str (start ++ frag)) = display codec limit (.str (start ++ frag'))

variable (dumps : Json → Text) (limit : ℕ)

/-- What a cut text shows: the placeholder, or its start. -/
theorem display_cut {v : Json} {lead frag : Text} (hlead : Blank lead)
    (h : SecretAt written s false (.value v) start rest) (hcut : Cut frag) :
    display (codec written dumps) limit (.str (lead ++ (start ++ frag))) =
      if opensStructured v then "[structured payload pending]".toList
      else truncated limit (lead ++ (start ++ frag)) := by
  have hunread := cut_unread hlead h hcut
  have hpending : isPending (lead ++ (start ++ frag)) = opensStructured v := isPending_cut hlead h
  rw [← hpending]
  obtain ⟨c, t, hstart, _⟩ := secretAt_start h
  have hpresent : lead ++ (start ++ frag) ≠ [] := by simp [hstart]
  cases htext : lead ++ (start ++ frag) with
  | nil => exact absurd htext hpresent
  | cons d u =>
    rw [htext] at hunread
    show displayDecoded (codec written dumps) limit ((loads written (d :: u)).getD _) = _
    rw [hunread]
    rfl

theorem cut_nil : Cut [] := ⟨[], [], [], ⟨[], SpellsAll.nil, rfl⟩, rfl⟩

theorem cut_letter : Cut ['a'] :=
  ⟨['a'], ['a'], [],
    ⟨[97], SpellsAll.cons (Spells.plain 'a' (by decide) (by decide) (by decide)) SpellsAll.nil,
      rfl⟩, rfl⟩

theorem truncated_long {t : Text} (h : limit < t.length) (frag : Text) :
    truncated limit (t ++ frag) = t.take limit ++ "\n… (truncated)".toList := by
  unfold truncated
  rw [if_neg (by rw [List.length_append]; omega), List.take_append_of_le_length (by omega)]

theorem truncated_short {t : Text} (h : t.length ≤ limit) :
    truncated limit (t ++ []) ≠ truncated limit (t ++ ['a']) := by
  have hmark : "\n… (truncated)".toList.length = 14 := by decide
  unfold truncated
  rw [List.append_nil, if_pos h]
  intro heq
  have hlength := congrArg List.length heq
  split at hlength
  · simp at hlength
  · simp only [List.length_append, List.length_take, List.length_singleton, hmark] at hlength
    omega

/-- A cut text conceals the secret exactly when its value opens like a structured value, or
when the text before the secret fills the display. -/
theorem concealed_iff {v : Json} {lead : Text} (hlead : Blank lead)
    (h : SecretAt written s false (.value v) start rest) :
    Concealed (codec written dumps) limit (lead ++ start) ↔
      opensStructured v = true ∨ limit < (lead ++ start).length := by
  have hdisplay : ∀ frag, Cut frag →
      display (codec written dumps) limit (.str (lead ++ start ++ frag)) =
        if opensStructured v then "[structured payload pending]".toList
        else truncated limit (lead ++ start ++ frag) := by
    intro frag hcut
    rw [List.append_assoc]
    exact display_cut dumps limit hlead h hcut
  constructor
  · intro hconcealed
    by_contra hnot
    rw [not_or, not_lt] at hnot
    have hshown := hconcealed [] ['a'] cut_nil cut_letter
    rw [hdisplay [] cut_nil, hdisplay ['a'] cut_letter, if_neg hnot.1, if_neg hnot.1] at hshown
    exact truncated_short limit hnot.2 hshown
  · rintro (hopens | hlong) frag frag' hcut hcut'
    · rw [hdisplay frag hcut, hdisplay frag' hcut', if_pos hopens, if_pos hopens]
    · rw [hdisplay frag hcut, hdisplay frag' hcut', truncated_long limit hlong,
        truncated_long limit hlong]

end Secrets

/-- Whole texts of objects and arrays are displayed independently of what private keys hold.
Texts that are cut inside of a secret are so exactly when the value opens like a structured
value or the text before the secret fills the display. -/
theorem secrets_concealed_iff (written : Text → Text) (dumps : Json → Text) (limit : ℕ) :
    (∀ (v v' : Json) (t t' : Text), isStructured v = true → publicPart v = publicPart v' →
      Document written v t → Document written v' t' →
        display (codec written dumps) limit (.str t) = display (codec written dumps) limit
          (.str t')) ∧
    ∀ (s : Text) (v : Json) (lead start rest : Text), Blank lead →
      SecretAt written s false (.value v) start rest →
        (Concealed (codec written dumps) limit (lead ++ start) ↔
          opensStructured v = true ∨ limit < (lead ++ start).length) := by
  refine ⟨?_, ?_⟩
  · intro v v' t t' hstructured hsame h h'
    exact document_display dumps limit hstructured hsame h h'
  · intro s v lead start rest hlead h
    exact concealed_iff dumps limit hlead h

/-- `[1, {"token": "` -/
def tokenStart : Text := ['[', '1', ',', ' ', '{', '"', 't', 'o', 'k', 'e', 'n', '"', ':', ' ', '"']

def tokenValue (s : Text) : Json := .arr [.int 1, .obj [(['t', 'o', 'k', 'e', 'n'], .str s)]]

theorem spellsAll_plain (t : Text)
    (h : (t.all fun c => decide (0x20 ≤ c.toNat ∧ c ≠ '"' ∧ c ≠ '\\')) = true) :
    SpellsAll (t.map Char.toNat) t := by
  induction t with
  | nil => exact SpellsAll.nil
  | cons c t ih =>
    rw [List.all_cons, Bool.and_eq_true, decide_eq_true_eq] at h
    obtain ⟨⟨hprint, hquote, hescape⟩, hrest⟩ := h
    exact SpellsAll.cons (Spells.plain c hprint hquote hescape) (ih hrest)

theorem tokenStart_secret (s : Text) :
    SecretAt id s false (.value (tokenValue s)) tokenStart ['}', ']'] := by
  have hnil : Blank [] := fun _ h => (nomatch h)
  have hblank : Blank [' '] := by
    intro c hc
    rw [List.mem_singleton.mp hc]
    rfl
  have hkey : KeyText ['t', 'o', 'k', 'e', 'n'] ['"', 't', 'o', 'k', 'e', 'n', '"', ':', ' '] :=
    ⟨['t', 'o', 'k', 'e', 'n'], [], [' '],
      ⟨_, spellsAll_plain _ (by decide), by decide⟩, hnil, hblank, rfl⟩
  have hnumber : Writes id (.value (.int 1)) ['1'] :=
    Writes.number rfl (List.all_eq_true.mp (by decide))
  have hobject : SecretAt id s false (.value (.obj [(['t', 'o', 'k', 'e', 'n'], .str s)])) _ _ :=
    SecretAt.objectFirst hnil hkey SecretAt.here (Writes.fieldsEnd hnil) (by simp)
  exact SecretAt.arrayLater hnil hnumber
    (SecretAt.itemsFirst hnil hblank hobject (Writes.itemsEnd hnil))

/-- The array starts with a number, and the token is shown while it arrives. -/
theorem token_shown :
    SecretAt id ['k', 'e', 'y'] false (.value (tokenValue ['k', 'e', 'y'])) tokenStart ['}', ']'] ∧
      display (codec id fun _ => []) 6000 (.str (tokenStart ++ ['k', 'e'])) =
        tokenStart ++ ['k', 'e'] ∧
      ¬ Concealed (codec id fun _ => []) 6000 tokenStart := by
  have hshown : ∀ t, t = ['k', 'e'] ∨ t = ['p', 'i'] →
      display (codec id fun _ => []) 6000 (.str (tokenStart ++ t)) = tokenStart ++ t := by
    rintro t (rfl | rfl) <;> decide +kernel
  have hcut : ∀ t, t = ['k', 'e'] ∨ t = ['p', 'i'] → Cut t := by
    rintro t (rfl | rfl)
    · exact ⟨_, _, [], ⟨_, spellsAll_plain ['k', 'e'] (by decide), rfl⟩, rfl⟩
    · exact ⟨_, _, [], ⟨_, spellsAll_plain ['p', 'i'] (by decide), rfl⟩, rfl⟩
  refine ⟨tokenStart_secret ['k', 'e', 'y'], hshown _ (Or.inl rfl), ?_⟩
  intro hconcealed
  have hsame := hconcealed ['k', 'e'] ['p', 'i'] (hcut _ (Or.inl rfl)) (hcut _ (Or.inr rfl))
  rw [hshown _ (Or.inl rfl), hshown _ (Or.inr rfl)] at hsame
  exact absurd hsame (by decide)

end Prompta.Redaction
