import Mathlib.Logic.Relation
import Prompta.DisplayBlocks

/-!
What the operations on display blocks keep. A list that has been normalized reads back as it
is where it fits. The collapse of progressive versions keeps the order of the blocks it keeps,
and what it takes out has become a version that is at least as long.
-/
namespace Prompta.DisplayBlocks

open Texts Relation

section Totals

def totalText : List Block → ℕ
  | [] => 0
  | b :: rest => b.text.length + totalText rest

theorem totalText_append (l l' : List Block) :
    totalText (l ++ l') = totalText l + totalText l' := by
  induction l with
  | nil => exact (Nat.zero_add _).symm
  | cons b rest ih =>
    simp only [List.cons_append, totalText, ih]
    omega

theorem totalText_sublist {l l' : List Block} (h : List.Sublist l l') :
    totalText l ≤ totalText l' := by
  induction h with
  | slnil => exact Nat.le_refl 0
  | cons b _ ih =>
    simp only [totalText]
    omega
  | cons_cons b _ ih =>
    simp only [totalText]
    omega

end Totals

section Reading

/-- A text block as `normalize_display_blocks` writes it. -/
structure CleanText (b : Block) : Prop where
  kind : b.kind = .text
  id : validId b.id = true
  stem : (startsWith b.id "text-" || startsWith b.id "sse-text-") = true
  stripped : strip b.text = b.text
  filled : b.text ≠ []
  toolId : b.toolId = none
  seenAt : b.seenAt.filter validSeenAt = b.seenAt

/-- A tool block as `normalize_display_blocks` writes it. -/
structure CleanTool (b : Block) : Prop where
  kind : b.kind = .tool
  id : validId b.id = true
  text : b.text = []
  seenAt : b.seenAt = none
  tool : (startsWith b.id "dom-tool-" = true ∧ b.toolId = none) ∨
    (startsWith b.id "dom-tool-" = false ∧ startsWith b.id "sse-tool-" = true ∧
      ∃ toolId, b.toolId = some toolId ∧ validCallId toolId = true)

def Clean (b : Block) : Prop := CleanText b ∨ CleanTool b

theorem filter_filter_seenAt (seenAt : Option String) :
    (seenAt.filter validSeenAt).filter validSeenAt = seenAt.filter validSeenAt := by
  cases seenAt with
  | none => rfl
  | some s =>
    by_cases hvalid : validSeenAt s = true
    · rw [Option.filter_some_pos hvalid, Option.filter_some_pos hvalid]
    · rw [Option.filter_some_neg (Bool.not_eq_true _ ▸ hvalid)]
      rfl

/-- Whatever is read is clean, and fits. -/
theorem readBlock_clean {length : ℕ} {candidate : RawBlock} {b : Block}
    (h : readBlock length candidate = some b) :
    Clean b ∧ length + b.text.length ≤ maxChars ∨ Clean b ∧ b.text = [] := by
  unfold readBlock at h
  split at h
  · rename_i kind id hkind hid
    split_ifs at h with hvalid htool hdom hsse htext hstem
    · obtain rfl := Option.some.inj h
      refine Or.inr ⟨Or.inr ⟨rfl, ?_, rfl, rfl, Or.inl ⟨hdom, rfl⟩⟩, rfl⟩
      simpa using hvalid
    · split at h
      · rename_i toolId _
        split_ifs at h with hcall
        obtain rfl := Option.some.inj h
        refine Or.inr ⟨Or.inr ⟨rfl, ?_, rfl, rfl, Or.inr ⟨?_, hsse, toolId, rfl, hcall⟩⟩, rfl⟩
        · simpa using hvalid
        · simpa using hdom
      · cases h
    · split at h
      · rename_i rawText _
        split_ifs at h with hfits
        obtain rfl := Option.some.inj h
        simp only [Bool.or_eq_true, decide_eq_true_eq, not_or, Nat.not_lt] at hfits
        refine Or.inl ⟨Or.inl ⟨rfl, ?_, hstem, strip_strip _, hfits.1, rfl,
          filter_filter_seenAt _⟩, hfits.2⟩
        simpa using hvalid
      · cases h
  · cases h

/-- A clean block reads back as it is, unless its text does not fit. -/
theorem readBlock_raw {length : ℕ} {b : Block} (h : Clean b) :
    readBlock length b.raw =
      if b.text ≠ [] ∧ maxChars < length + b.text.length then none else some b := by
  obtain ⟨kind, id, text, toolId, seenAt⟩ := b
  rcases h with h | h
  · obtain ⟨hkind, hid, hstem, hstripped, hfilled, htool, hseen⟩ := h
    dsimp only at hkind hid hstem hstripped hfilled htool hseen
    subst hkind htool
    by_cases hshort : maxChars < length + text.length
    · simp [readBlock, Block.raw, hid, hstem, hstripped, hfilled, hshort]
    · simp [readBlock, Block.raw, hid, hstem, hstripped, hfilled, hseen, hshort]
  · obtain ⟨hkind, hid, htext, hseen, htool⟩ := h
    dsimp only at hkind hid htext hseen htool
    subst hkind htext hseen
    rcases htool with ⟨hdom, rfl⟩ | ⟨hdom, hsse, call, rfl, hcall⟩
    · simp [readBlock, Block.raw, hid, hdom]
    · simp [readBlock, Block.raw, hid, hdom, hsse, hcall]

/-- What is read of raw blocks is clean, within the limit of the texts, and no longer a list. -/
theorem readBlocks_clean (length : ℕ) (value : List RawBlock) :
    (∀ b ∈ readBlocks length value, Clean b) ∧
      (length ≤ maxChars → length + totalText (readBlocks length value) ≤ maxChars) ∧
      (readBlocks length value).length ≤ value.length := by
  induction value generalizing length with
  | nil =>
    refine ⟨fun b hb => absurd hb List.not_mem_nil, ?_, Nat.le_refl 0⟩
    intro hlength
    simpa [readBlocks, totalText] using hlength
  | cons candidate rest ih =>
    rw [readBlocks]
    cases hread : readBlock length candidate with
    | none =>
      obtain ⟨hclean, htotal, hcount⟩ := ih length
      exact ⟨hclean, htotal, Nat.le_succ_of_le hcount⟩
    | some block =>
      obtain ⟨hclean, htotal, hcount⟩ := ih (length + block.text.length)
      have hblock := readBlock_clean hread
      refine ⟨?_, ?_, Nat.succ_le_succ hcount⟩
      · intro b hb
        rcases List.mem_cons.mp hb with rfl | hb
        · exact hblock.elim And.left And.left
        · exact hclean b hb
      · intro hlength
        have hfits : length + block.text.length ≤ maxChars := by
          rcases hblock with h | h
          · exact h.2
          · rw [h.2]
            exact hlength
        have := htotal hfits
        simp only [totalText]
        omega

/-- Of clean blocks some may be left out, where they do not fit. -/
theorem readBlocks_sublist (length : ℕ) {l : List Block} (h : ∀ b ∈ l, Clean b) :
    List.Sublist (readBlocks length (l.map Block.raw)) l := by
  induction l generalizing length with
  | nil => exact List.Sublist.refl []
  | cons b rest ih =>
    have hrest : ∀ b ∈ rest, Clean b := fun b hb => h b (List.mem_cons_of_mem _ hb)
    rw [List.map_cons, readBlocks, readBlock_raw (h b List.mem_cons_self)]
    split
    · rename_i block hread
      split_ifs at hread
      obtain rfl := Option.some.inj hread
      exact (ih _ hrest).cons_cons b
    · exact (ih length hrest).cons b

/-- Clean blocks that fit read back as they are. -/
theorem readBlocks_fits (length : ℕ) {l : List Block} (h : ∀ b ∈ l, Clean b)
    (hfits : length + totalText l ≤ maxChars) : readBlocks length (l.map Block.raw) = l := by
  induction l generalizing length with
  | nil => rfl
  | cons b rest ih =>
    have hrest : ∀ b ∈ rest, Clean b := fun b hb => h b (List.mem_cons_of_mem _ hb)
    simp only [totalText] at hfits
    have hshort : ¬ (b.text ≠ [] ∧ maxChars < length + b.text.length) := by omega
    rw [List.map_cons, readBlocks, readBlock_raw (h b List.mem_cons_self), if_neg hshort]
    dsimp only
    rw [ih (length + b.text.length) hrest (by omega)]

/-- A clean block is read, or is left out where it does not fit behind the ones that were read
ahead of it. -/
theorem readBlocks_cut (length : ℕ) {l : List Block} (h : ∀ b ∈ l, Clean b) {m : Block}
    (hm : m ∈ l) :
    m ∈ readBlocks length (l.map Block.raw) ∨ ∃ before after, l = before ++ m :: after ∧
      maxChars < length + totalText (readBlocks length (before.map Block.raw)) +
        m.text.length := by
  induction l generalizing length with
  | nil => cases hm
  | cons b rest ih =>
    have hrest : ∀ b ∈ rest, Clean b := fun b hb => h b (List.mem_cons_of_mem _ hb)
    have hread : readBlock length b.raw = _ := readBlock_raw (h b List.mem_cons_self)
    by_cases hfull : b.text ≠ [] ∧ maxChars < length + b.text.length
    · rw [if_pos hfull] at hread
      rcases List.mem_cons.mp hm with rfl | hm
      · exact Or.inr ⟨[], rest, rfl, hfull.2⟩
      · rw [List.map_cons, readBlocks, hread]
        refine (ih length hrest hm).imp id ?_
        rintro ⟨before, after, rfl, hcut⟩
        refine ⟨b :: before, after, rfl, ?_⟩
        rwa [List.map_cons, readBlocks, hread]
    · rw [if_neg hfull] at hread
      rw [List.map_cons, readBlocks, hread]
      rcases List.mem_cons.mp hm with rfl | hm
      · exact Or.inl List.mem_cons_self
      · refine (ih (length + b.text.length) hrest hm).imp (List.mem_cons_of_mem _) ?_
        rintro ⟨before, after, rfl, hcut⟩
        refine ⟨b :: before, after, rfl, ?_⟩
        rw [List.map_cons, readBlocks, hread]
        simp only [totalText]
        omega

end Reading

section Collapse

variable (lib : Stdlib)

/-- A text of one block and a version of it that is at least as long. -/
def Version (x y : Text) : Prop :=
  x.length ≤ y.length ∧
    (progressiveVersions lib x y = true ∨ progressiveVersions lib y x = true)

def HasText (blocks : List Block) (t : Text) : Prop := ∃ c ∈ blocks, c.kind = .text ∧ c.text = t

/-- A text turns into another one in steps, each to a version that is at least as long and is the
text of one of the blocks. -/
def Becomes (blocks : List Block) : Text → Text → Prop :=
  ReflTransGen fun x y => Version lib x y ∧ HasText blocks y

variable {lib}

theorem HasText.append_left {blocks : List Block} {t : Text} (h : HasText blocks t)
    (more : List Block) : HasText (blocks ++ more) t := by
  obtain ⟨c, hc, hsame⟩ := h
  exact ⟨c, List.mem_append_left _ hc, hsame⟩

namespace Becomes

variable {blocks blocks' : List Block} {x y : Text}

theorem length_le (h : Becomes lib blocks x y) : x.length ≤ y.length := by
  induction h with
  | refl => exact Nat.le_refl _
  | tail _ hlast ih => exact Nat.le_trans ih hlast.1.1

theorem mono (h : Becomes lib blocks x y) (hsub : ∀ t, HasText blocks t → HasText blocks' t) :
    Becomes lib blocks' x y := by
  induction h with
  | refl => exact ReflTransGen.refl
  | tail _ hlast ih => exact ih.tail ⟨hlast.1, hsub _ hlast.2⟩

/-- What a text of the blocks becomes is a text of the blocks. -/
theorem hasText (h : Becomes lib blocks x y) (hx : HasText blocks x) : HasText blocks y := by
  induction h with
  | refl => exact hx
  | tail _ hlast _ => exact hlast.2

theorem snoc (h : Becomes lib blocks x y) (block : Block) :
    Becomes lib (blocks ++ [block]) x y :=
  h.mono fun _ ht => ht.append_left [block]

end Becomes

theorem le_longest {blocks : List Block} {b : Block} (h : b ∈ blocks) :
    b.text.length ≤ longest blocks := by
  induction blocks with
  | nil => cases h
  | cons first rest ih =>
    show _ ≤ max first.text.length (longest rest)
    rcases List.mem_cons.mp h with rfl | h
    · omega
    · have := ih h
      omega

theorem longest_mem (first : Block) (rest : List Block) :
    ∃ b ∈ first :: rest, longest (first :: rest) = b.text.length := by
  induction rest generalizing first with
  | nil => exact ⟨first, List.mem_cons_self, Nat.max_zero _⟩
  | cons second rest ih =>
    obtain ⟨b, hb, hlongest⟩ := ih second
    have hmax : longest (first :: second :: rest) =
        max first.text.length (longest (second :: rest)) := rfl
    rcases Nat.le_total first.text.length (longest (second :: rest)) with hle | hle
    · exact ⟨b, List.mem_cons_of_mem _ hb, by omega⟩
    · exact ⟨first, List.mem_cons_self, by omega⟩

/-- What becomes of the visible blocks when one more is looked at. -/
inductive Collapsed (lib : Stdlib) (visible : List Block) (block : Block) : List Block → Prop
  | kept (hnew : block.kind = .text → ∀ v ∈ visible, isVersion lib block v = false) :
      Collapsed lib visible block (visible ++ [block])
  | covered (v : Block) (hmem : v ∈ visible) (hkind : v.kind = .text)
      (hversion : isVersion lib block v = true) (hlength : block.text.length ≤ v.text.length) :
      Collapsed lib visible block visible
  | replaced (before rest : List Block) (original : Block)
      (hvisible : visible = before ++ original :: rest) (htext : block.kind = .text)
      (hbefore : ∀ v ∈ before, isVersion lib block v = false)
      (horiginal : isVersion lib block original = true)
      (hlonger : ∀ v ∈ visible, isVersion lib block v = true →
        v.text.length < block.text.length) :
      Collapsed lib visible block
        (before ++ { block with id := original.id, seenAt := original.seenAt.or block.seenAt } ::
          rest.filter fun b => !isVersion lib block b)

theorem isVersion_text {block v : Block} (h : isVersion lib block v = true) : v.kind = .text := by
  simp only [isVersion, Bool.and_eq_true, decide_eq_true_eq] at h
  exact h.1

theorem isVersion_progressive {block v : Block} (h : isVersion lib block v = true) :
    progressiveVersions lib v.text block.text = true := by
  simp only [isVersion, Bool.and_eq_true] at h
  exact h.2

theorem collapseStep_collapsed (visible : List Block) (block : Block) :
    Collapsed lib visible block (collapseStep lib visible block) := by
  unfold collapseStep
  by_cases hkind : block.kind ≠ .text
  · rw [if_pos hkind]
    exact Collapsed.kept fun htext => absurd htext hkind
  rw [if_neg hkind]
  have htext : block.kind = .text := not_not.mp hkind
  cases hfilter : visible.filter (isVersion lib block) with
  | nil =>
    apply Collapsed.kept
    intro _ v hv
    have h := List.filter_eq_nil_iff.mp hfilter v hv
    simpa using h
  | cons original others =>
    obtain ⟨before, rest, hvisible, hbefore, horiginal, hothers⟩ :=
      List.filter_eq_cons_iff.mp hfilter
    dsimp only
    by_cases hshort : block.text.length ≤ longest (original :: others)
    · rw [if_pos hshort]
      obtain ⟨v, hv, hlongest⟩ := longest_mem original others
      rw [← hfilter] at hv
      obtain ⟨hmem, hversion⟩ := List.mem_filter.mp hv
      exact Collapsed.covered v hmem (isVersion_text hversion) hversion (hlongest ▸ hshort)
    · rw [if_neg hshort]
      have hnone : ∀ v ∈ before, isVersion lib block v = false := by
        intro v hv
        simpa using hbefore v hv
      have htake : visible.takeWhile (fun b => !isVersion lib block b) = before := by
        rw [hvisible, List.takeWhile_append_of_pos fun v hv => by rw [hnone v hv]; rfl,
          List.takeWhile_cons_of_neg (by rw [horiginal]; exact Bool.false_ne_true),
          List.append_nil]
      have hdrop : visible.dropWhile (fun b => !isVersion lib block b) = original :: rest := by
        rw [hvisible, List.dropWhile_append_of_pos fun v hv => by rw [hnone v hv]; rfl,
          List.dropWhile_cons_of_neg (by rw [horiginal]; exact Bool.false_ne_true)]
      rw [htake, hdrop, List.filter_cons_of_neg (by rw [horiginal]; exact Bool.false_ne_true)]
      refine Collapsed.replaced before rest original hvisible htext hnone horiginal ?_
      intro v hv hversion
      have hmem : v ∈ original :: others := hfilter ▸ List.mem_filter.mpr ⟨hv, hversion⟩
      have := le_longest hmem
      omega

/-- What a collapse keeps of the blocks it has looked at. -/
structure Kept (lib : Stdlib) (blocks visible : List Block) : Prop where
  order : List.Sublist (visible.map Block.id) (blocks.map Block.id)
  origin : ∀ y ∈ visible, ∃ x ∈ blocks, x.id = y.id ∧ x.kind = y.kind ∧
    Becomes lib blocks x.text y.text
  covered : ∀ x ∈ blocks, x.kind = .text →
    ∃ y ∈ visible, y.kind = .text ∧ Becomes lib blocks x.text y.text
  total : totalText visible ≤ totalText blocks
  clean : (∀ x ∈ blocks, Clean x) → ∀ y ∈ visible, Clean y

theorem Kept.refl (blocks : List Block) : Kept lib blocks blocks where
  order := List.Sublist.refl _
  origin := fun y hy => ⟨y, hy, rfl, rfl, ReflTransGen.refl⟩
  covered := fun x hx hkind => ⟨x, hx, hkind, ReflTransGen.refl⟩
  total := Nat.le_refl _
  clean := id

/-- The texts that are left are texts of the blocks. -/
theorem Kept.hasText {blocks visible : List Block} (h : Kept lib blocks visible) {y : Block}
    (hy : y ∈ visible) (hkind : y.kind = .text) : HasText blocks y.text := by
  obtain ⟨x, hx, _, hxkind, hbecomes⟩ := h.origin y hy
  exact hbecomes.hasText ⟨x, hx, hxkind.trans hkind, rfl⟩

/-- The time of first sight comes from either of two clean blocks. -/
theorem seenAt_or {a b : Option String} (ha : a.filter validSeenAt = a)
    (hb : b.filter validSeenAt = b) : (a.or b).filter validSeenAt = a.or b := by
  cases a with
  | none => exact hb
  | some s => exact ha

theorem clean_text {b : Block} (h : Clean b) (hkind : b.kind = .text) : CleanText b := by
  rcases h with h | h
  · exact h
  · rw [h.kind] at hkind
    cases hkind

/-- A clean text block under the identifier of another one. -/
theorem clean_renamed {b old : Block} (hb : Clean b) (hold : Clean old) (hbk : b.kind = .text)
    (holdk : old.kind = .text) :
    Clean { b with id := old.id, seenAt := old.seenAt.or b.seenAt } := by
  have hb := clean_text hb hbk
  have hold := clean_text hold holdk
  exact Or.inl ⟨hb.kind, hold.id, hold.stem, hb.stripped, hb.filled, hb.toolId,
    seenAt_or hold.seenAt hb.seenAt⟩

/-- A further block, behind those that are left. -/
theorem Kept.append {blocks visible : List Block} (h : Kept lib blocks visible) (block : Block) :
    Kept lib (blocks ++ [block]) (visible ++ [block]) := by
  have hlast : block ∈ blocks ++ [block] := List.mem_append_right _ List.mem_cons_self
  refine ⟨?_, ?_, ?_, ?_, ?_⟩
  · rw [List.map_append, List.map_append]
    exact h.order.append (List.Sublist.refl _)
  · intro y hy
    rcases List.mem_append.mp hy with hy | hy
    · obtain ⟨x, hx, hid, hkind, hbecomes⟩ := h.origin y hy
      exact ⟨x, List.mem_append_left _ hx, hid, hkind, hbecomes.snoc block⟩
    · rw [List.mem_singleton] at hy
      subst hy
      exact ⟨y, hlast, rfl, rfl, ReflTransGen.refl⟩
  · intro x hx hkind
    rcases List.mem_append.mp hx with hx | hx
    · obtain ⟨y, hy, hykind, hbecomes⟩ := h.covered x hx hkind
      exact ⟨y, List.mem_append_left _ hy, hykind, hbecomes.snoc block⟩
    · rw [List.mem_singleton] at hx
      subst hx
      exact ⟨x, List.mem_append_right _ List.mem_cons_self, hkind, ReflTransGen.refl⟩
  · have := h.total
    rw [totalText_append, totalText_append]
    omega
  · intro hclean y hy
    rcases List.mem_append.mp hy with hy | hy
    · exact h.clean (fun x hx => hclean x (List.mem_append_left _ hx)) y hy
    · rw [List.mem_singleton] at hy
      exact hy ▸ hclean block hlast

/-- A further block that one of those left is a version of. -/
theorem Kept.cover {blocks visible : List Block} {block v : Block} (h : Kept lib blocks visible)
    (hv : v ∈ visible) (hvkind : v.kind = .text) (hversion : isVersion lib block v = true)
    (hlength : block.text.length ≤ v.text.length) : Kept lib (blocks ++ [block]) visible := by
  refine ⟨?_, ?_, ?_, ?_, ?_⟩
  · rw [List.map_append]
    exact h.order.trans (List.sublist_append_left _ _)
  · intro y hy
    obtain ⟨x, hx, hid, hkind, hbecomes⟩ := h.origin y hy
    exact ⟨x, List.mem_append_left _ hx, hid, hkind, hbecomes.snoc block⟩
  · intro x hx hkind
    rcases List.mem_append.mp hx with hx | hx
    · obtain ⟨y, hy, hykind, hbecomes⟩ := h.covered x hx hkind
      exact ⟨y, hy, hykind, hbecomes.snoc block⟩
    · rw [List.mem_singleton] at hx
      subst hx
      exact ⟨v, hv, hvkind,
        ReflTransGen.single ⟨⟨hlength, Or.inr (isVersion_progressive hversion)⟩,
          (h.hasText hv hvkind).append_left _⟩⟩
  · have := h.total
    rw [totalText_append]
    omega
  · exact fun hclean y hy => h.clean (fun x hx => hclean x (List.mem_append_left _ hx)) y hy

section Replace

variable {blocks before rest : List Block} {block original : Block}
  (h : Kept lib blocks (before ++ original :: rest)) (htext : block.kind = .text)
  (horiginal : isVersion lib block original = true)
  (hlonger : ∀ v ∈ before ++ original :: rest, isVersion lib block v = true →
    v.text.length < block.text.length)

include htext hlonger in
/-- What has become a version that goes becomes the block. -/
theorem Becomes.replace {x : Text} {v : Block} (hv : v ∈ before ++ original :: rest)
    (hversion : isVersion lib block v = true) (hx : Becomes lib blocks x v.text) :
    Becomes lib (blocks ++ [block]) x block.text := by
  have := hlonger v hv hversion
  exact (hx.snoc block).tail ⟨⟨by omega, Or.inl (isVersion_progressive hversion)⟩,
    block, List.mem_append_right _ List.mem_cons_self, htext, rfl⟩

include h htext horiginal hlonger in
/-- Every block left comes from one that was looked at, the replaced one from the original. -/
theorem Kept.replace_origin :
    ∀ y ∈ before ++ { block with id := original.id, seenAt := original.seenAt.or block.seenAt } ::
        rest.filter fun b => !isVersion lib block b,
      ∃ x ∈ blocks ++ [block], x.id = y.id ∧ x.kind = y.kind ∧
        Becomes lib (blocks ++ [block]) x.text y.text := by
  intro y hy
  rcases List.mem_append.mp hy with hy | hy
  · obtain ⟨x, hx, hid, hkind, hsame⟩ := h.origin y (List.mem_append_left _ hy)
    exact ⟨x, List.mem_append_left _ hx, hid, hkind, hsame.snoc block⟩
  · rcases List.mem_cons.mp hy with rfl | hy
    · have hmem : original ∈ before ++ original :: rest :=
        List.mem_append_right _ List.mem_cons_self
      obtain ⟨x, hx, hid, hkind, hx'⟩ := h.origin original hmem
      exact ⟨x, List.mem_append_left _ hx, hid,
        hkind.trans ((isVersion_text horiginal).trans htext.symm),
        hx'.replace htext hlonger hmem horiginal⟩
    · obtain ⟨x, hx, hid, hkind, hsame⟩ := h.origin y
        (List.mem_append_right _ (List.mem_cons_of_mem _ (List.mem_of_mem_filter hy)))
      exact ⟨x, List.mem_append_left _ hx, hid, hkind, hsame.snoc block⟩

include h htext horiginal hlonger in
/-- Every text is covered: by the block where its version goes, else as before. -/
theorem Kept.replace_covered :
    ∀ x ∈ blocks ++ [block], x.kind = .text →
      ∃ y ∈ before ++
          { block with id := original.id, seenAt := original.seenAt.or block.seenAt } ::
            rest.filter fun b => !isVersion lib block b,
        y.kind = .text ∧ Becomes lib (blocks ++ [block]) x.text y.text := by
  intro x hx hkind
  rcases List.mem_append.mp hx with hx | hx
  · obtain ⟨y, hy, hykind, hxy⟩ := h.covered x hx hkind
    by_cases hversion : isVersion lib block y = true
    · exact ⟨_, List.mem_append_right _ List.mem_cons_self, htext,
        hxy.replace htext hlonger hy hversion⟩
    · refine ⟨y, ?_, hykind, hxy.snoc block⟩
      rcases List.mem_append.mp hy with hy | hy
      · exact List.mem_append_left _ hy
      · rcases List.mem_cons.mp hy with rfl | hy
        · exact absurd horiginal hversion
        · refine List.mem_append_right _ (List.mem_cons_of_mem _ ?_)
          exact List.mem_filter.mpr ⟨hy, by simpa using hversion⟩
  · rw [List.mem_singleton] at hx
    subst hx
    exact ⟨_, List.mem_append_right _ List.mem_cons_self, htext, ReflTransGen.refl⟩

include h htext horiginal hlonger in
/-- A further block that is longer than the versions of it that are left. -/
theorem Kept.replace :
    Kept lib (blocks ++ [block])
      (before ++ { block with id := original.id, seenAt := original.seenAt.or block.seenAt } ::
        rest.filter fun b => !isVersion lib block b) := by
  refine ⟨?_, h.replace_origin htext horiginal hlonger, h.replace_covered htext horiginal hlonger,
    ?_, ?_⟩
  · refine List.Sublist.trans ?_ (h.order.trans ?_)
    · rw [List.map_append, List.map_append, List.map_cons, List.map_cons]
      exact (List.Sublist.refl _).append ((List.filter_sublist.map Block.id).cons_cons _)
    · rw [List.map_append]
      exact List.sublist_append_left _ _
  · have hfilter : totalText (rest.filter fun b => !isVersion lib block b) ≤ totalText rest :=
      totalText_sublist List.filter_sublist
    have := h.total
    rw [totalText_append] at this ⊢
    rw [totalText_append]
    simp only [totalText] at this ⊢
    omega
  · intro hclean y hy
    have hvisible := h.clean fun x hx => hclean x (List.mem_append_left _ hx)
    rcases List.mem_append.mp hy with hy | hy
    · exact hvisible y (List.mem_append_left _ hy)
    · rcases List.mem_cons.mp hy with rfl | hy
      · exact clean_renamed (hclean block (List.mem_append_right _ List.mem_cons_self))
          (hvisible original (List.mem_append_right _ List.mem_cons_self)) htext
          (isVersion_text horiginal)
      · exact hvisible y
          (List.mem_append_right _ (List.mem_cons_of_mem _ (List.mem_of_mem_filter hy)))

end Replace

theorem kept_step {blocks visible visible' : List Block} {block : Block}
    (h : Kept lib blocks visible) (hstep : Collapsed lib visible block visible') :
    Kept lib (blocks ++ [block]) visible' := by
  cases hstep with
  | kept hnew => exact h.append block
  | covered v hv hvkind hversion hlength => exact h.cover hv hvkind hversion hlength
  | replaced before rest original hvisible htext hbefore horiginal hlonger =>
    subst hvisible
    exact h.replace htext horiginal hlonger

theorem collapse_kept (blocks : List Block) :
    Kept lib blocks (collapseProgressiveVersions lib blocks) := by
  have hfrom : ∀ (items seen visible : List Block), Kept lib seen visible →
      Kept lib (seen ++ items) (items.foldl (collapseStep lib) visible) := by
    intro items
    induction items with
    | nil =>
      intro seen visible h
      rwa [List.append_nil]
    | cons block rest ih =>
      intro seen visible h
      have hnext := ih (seen ++ [block]) _ (kept_step h (collapseStep_collapsed visible block))
      rwa [List.append_assoc] at hnext
  exact hfrom blocks [] [] (Kept.refl [])

/-- Clean blocks within the limits are collapsed and left as they are otherwise. -/
theorem normalize_clean {blocks : List Block} (hclean : ∀ b ∈ blocks, Clean b)
    (hcount : blocks.length ≤ maxBlocks) (htotal : totalText blocks ≤ maxChars) :
    normalizeDisplayBlocks lib (blocks.map Block.raw) = collapseProgressiveVersions lib blocks := by
  unfold normalizeDisplayBlocks
  rw [List.take_of_length_le (by rwa [List.length_map]),
    readBlocks_fits 0 hclean (by omega)]

end Collapse

end Prompta.DisplayBlocks
