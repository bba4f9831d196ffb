import Mathlib.Data.List.Nodup
import Mathlib.Data.List.Perm.Subperm
import Prompta.DisplayMerges
import Prompta.Runs

/-!
What a merge keeps of the blocks that were shown. The loop over a snapshot grows stored blocks
where they stand and adds new ones behind them, under identifiers of their own. Then the
result is cut to the limits and collapsed.
-/
namespace Prompta.BlockRetention

open Runs Texts DisplayBlocks Relation

section Identifiers

/-- Of two stems of one text, one is a prefix of the other. -/
theorem stems_comparable {s a b : String} (ha : startsWith s a = true)
    (hb : startsWith s b = true) :
    a.toList.isPrefixOf b.toList = true ∨ b.toList.isPrefixOf a.toList = true := by
  simp only [startsWith, List.isPrefixOf_iff_prefix] at ha hb ⊢
  exact List.prefix_or_prefix_of_prefix ha hb

theorem block_kind (b : Block) : b.kind = .text ∨ b.kind = .tool := by
  cases b.kind with
  | text => exact Or.inl rfl
  | tool => exact Or.inr rfl

theorem clean_tool {b : Block} (h : Clean b) (hkind : b.kind = .tool) : CleanTool b := by
  rcases h with h | h
  · rw [h.kind] at hkind
    cases hkind
  · exact h

/-- Text blocks and tool blocks have identifiers of different stems. -/
theorem text_id_ne_tool_id {a b : Block} (ha : CleanText a) (hb : CleanTool b) : a.id ≠ b.id := by
  intro hid
  have htext : startsWith a.id "text-" = true ∨ startsWith a.id "sse-text-" = true := by
    simpa only [Bool.or_eq_true] using ha.stem
  have htool : startsWith a.id "dom-tool-" = true ∨ startsWith a.id "sse-tool-" = true := by
    rw [hid]
    rcases hb.tool with ⟨hdom, _⟩ | ⟨_, hsse, _⟩
    · exact Or.inl hdom
    · exact Or.inr hsse
  rcases htext with htext | htext <;> rcases htool with htool | htool <;>
    exact absurd (stems_comparable htext htool) (by decide)

theorem toString_injective {i j : ℕ} (h : toString i = toString j) : i = j := by
  have hdigits : Nat.toDigits 10 i = Nat.toDigits 10 j := by
    have := congrArg String.toList h
    simpa only [Nat.toString_eq_repr, Nat.repr, String.toList_ofList] using this
  rw [← Nat.ofDigitChars_toDigits (b := 10) (n := i) (by omega) (by omega), hdigits,
    Nat.ofDigitChars_toDigits (by omega) (by omega)]

/-- Fewer identifiers in use than there are positional ones leave one of these free. -/
theorem freshId_some (stem : String) {used : List String} (h : used.length < maxBlocks) :
    ∃ i < maxBlocks, freshId stem used = some (stem ++ toString i) ∧
      stem ++ toString i ∉ used := by
  cases hfresh : freshId stem used with
  | some id =>
    obtain ⟨hmem, hfree⟩ : id ∈ (List.range maxBlocks).map (fun i => stem ++ toString i) ∧
        id ∉ used := by
      have hfound := List.find?_some hfresh
      rw [decide_eq_true_eq] at hfound
      exact ⟨List.mem_of_find?_eq_some hfresh, hfound⟩
    obtain ⟨i, hi, rfl⟩ := List.mem_map.mp hmem
    exact ⟨i, List.mem_range.mp hi, rfl, hfree⟩
  | none =>
    exfalso
    have hall := List.find?_eq_none.mp hfresh
    have hnodup : ((List.range maxBlocks).map fun i => stem ++ toString i).Nodup := by
      refine List.Nodup.map ?_ List.nodup_range
      intro i j hij
      exact toString_injective ((String.append_right_inj stem).mp hij)
    have hsubset : ((List.range maxBlocks).map fun i => stem ++ toString i) ⊆ used := by
      intro id hid
      simpa using hall id hid
    have hlength := (List.Nodup.subperm hnodup hsubset).length_le
    rw [List.length_map, List.length_range] at hlength
    omega

theorem positional_valid {i : ℕ} (h : i < maxBlocks) :
    validId ("text-" ++ toString i) = true ∧ startsWith ("text-" ++ toString i) "text-" = true := by
  have hall : (List.range maxBlocks).all (fun i =>
      validId ("text-" ++ toString i) && startsWith ("text-" ++ toString i) "text-") = true := by
    decide +kernel
  have hi := List.all_eq_true.mp hall i (List.mem_range.mpr h)
  rwa [Bool.and_eq_true] at hi

end Identifiers

section Matching

/-- What a fold keeps of the elements that it may take is one of them. -/
theorem foldl_taken {f : Option (ℕ × ℕ) → ℕ × ℕ → Option (ℕ × ℕ)}
    (hf : ∀ best q, f best q = some q ∨ f best q = best) {pairs : List (ℕ × ℕ)}
    {best : Option (ℕ × ℕ)} {p : ℕ × ℕ} (h : pairs.foldl f best = some p) :
    p ∈ pairs ∨ best = some p := by
  induction pairs generalizing best with
  | nil => exact Or.inr h
  | cons q rest ih =>
    rcases ih h with hmem | hbest
    · exact Or.inl (List.mem_cons_of_mem _ hmem)
    · rcases hf best q with htaken | hkept
      · obtain rfl := Option.some.inj (htaken.symm.trans hbest)
        exact Or.inl List.mem_cons_self
      · exact Or.inr (hkept.symm.trans hbest)

theorem maxPair_mem {pairs : List (ℕ × ℕ)} {p : ℕ × ℕ}
    (h : maxPair pairs = some p) : p ∈ pairs := by
  unfold maxPair at h
  refine (foldl_taken ?_ h).resolve_right (fun hnone => by cases hnone)
  intro best q
  cases best with
  | none => exact Or.inl rfl
  | some b =>
    dsimp only
    split
    · exact Or.inl rfl
    · exact Or.inr rfl

variable {merged : List Block} {matched : List ℕ} {block : Block} {i : ℕ}

/-- The candidates are the texts of the unmatched text blocks, for a stream block without those of
other streams. -/
theorem mem_mergeCandidates {stable : Bool} {t : Text} :
    (i, t) ∈ mergeCandidates merged matched stable ↔
      ∃ b, merged[i]? = some b ∧ i ∉ matched ∧ b.kind = .text ∧
        (stable = true → startsWith b.id "sse-" = false) ∧ b.text = t := by
  unfold mergeCandidates
  constructor
  · intro h
    obtain ⟨⟨b, j⟩, hmem, hsame⟩ := List.mem_map.mp h
    obtain ⟨rfl, rfl⟩ := Prod.mk.inj hsame
    obtain ⟨hzip, hfilter⟩ := List.mem_filter.mp hmem
    simp only [Bool.and_eq_true, decide_eq_true_eq, Bool.or_eq_true, Bool.not_eq_true'] at hfilter
    refine ⟨b, List.mem_zipIdx_iff_getElem?.mp hzip, hfilter.1.1, hfilter.1.2, ?_, rfl⟩
    intro hstable
    rcases hfilter.2 with hunstable | hid
    · rw [hstable] at hunstable
      exact Bool.noConfusion hunstable
    · exact hid
  · rintro ⟨b, hget, hfree, hkind, hid, rfl⟩
    refine List.mem_map.mpr ⟨(b, i), List.mem_filter.mpr
      ⟨List.mem_zipIdx_iff_getElem?.mpr hget, ?_⟩, rfl⟩
    simp only [Bool.and_eq_true, decide_eq_true_eq, Bool.or_eq_true, Bool.not_eq_true']
    refine ⟨⟨hfree, hkind⟩, ?_⟩
    cases stable with
    | true => exact Or.inr (hid rfl)
    | false => exact Or.inl rfl

/-- How an incoming text finds the stored text it continues. -/
theorem textIndex_some (h : textIndex merged matched block = some i) :
    ∃ old, merged[i]? = some old ∧ old.kind = .text ∧
      (old.id = block.id ∧ startsWith block.id "sse-" = true ∨
        (i ∉ matched ∧ (old.text <+: block.text ∨ block.text <+: old.text))) := by
  have hcandidate : ∀ {t : Text}, (t <+: block.text ∨ block.text <+: t) →
      (i, t) ∈ mergeCandidates merged matched (startsWith block.id "sse-") →
      ∃ old, merged[i]? = some old ∧ old.kind = .text ∧
        (old.id = block.id ∧ startsWith block.id "sse-" = true ∨
          (i ∉ matched ∧ (old.text <+: block.text ∨ block.text <+: old.text))) := by
    intro t hbegin hmem
    obtain ⟨b, hget, hfree, hkind, _, rfl⟩ := mem_mergeCandidates.mp hmem
    exact ⟨b, hget, hkind, Or.inr ⟨hfree, hbegin⟩⟩
  unfold textIndex at h
  simp only [Option.or_eq_some_iff] at h
  rcases h with hstable | ⟨_, hexact | ⟨_, hgrowing | ⟨_, hshrinking⟩⟩⟩
  · split at hstable
    · rename_i hstem
      obtain ⟨hi, hfound, _⟩ := List.findIdx?_eq_some_iff_getElem.mp hstable
      simp only [Bool.and_eq_true, decide_eq_true_eq] at hfound
      exact ⟨merged[i], List.getElem?_eq_getElem hi, hfound.2, Or.inl ⟨hfound.1, hstem⟩⟩
    · cases hstable
  · obtain ⟨⟨j, t⟩, hfound, rfl⟩ := Option.map_eq_some_iff.mp hexact
    have hsame := List.find?_some hfound
    rw [decide_eq_true_eq] at hsame
    dsimp only at hsame
    subst hsame
    exact hcandidate (Or.inl (List.prefix_refl _)) (List.mem_of_find?_eq_some hfound)
  · obtain ⟨pair, hmax, rfl⟩ := Option.map_eq_some_iff.mp hgrowing
    obtain ⟨⟨j, t⟩, hmem, rfl⟩ := List.mem_map.mp (maxPair_mem hmax)
    obtain ⟨hmem, hbegin⟩ := List.mem_filter.mp hmem
    exact hcandidate (Or.inl (List.isPrefixOf_iff_prefix.mp hbegin)) hmem
  · obtain ⟨pair, hmax, rfl⟩ := Option.map_eq_some_iff.mp hshrinking
    obtain ⟨⟨j, t⟩, hmem, rfl⟩ := List.mem_map.mp (maxPair_mem hmax)
    obtain ⟨hmem, hbegin⟩ := List.mem_filter.mp hmem
    exact hcandidate (Or.inr (List.isPrefixOf_iff_prefix.mp hbegin)) hmem

end Matching

section Loop

/-- What one block of a snapshot does to the merged blocks. -/
inductive Merged (block : Block) : List Block × List ℕ → List Block × List ℕ → Prop
  | seen (merged : List Block) (matched : List ℕ) (i : ℕ) :
      Merged block (merged, matched) (merged, i :: matched)
  | grown (merged : List Block) (matched : List ℕ) (i : ℕ) (old : Block)
      (hget : merged[i]? = some old) (hkind : old.kind = .text) (htext : block.kind = .text)
      (hlength : old.text.length ≤ block.text.length)
      (hmatch : old.id = block.id ∧ startsWith block.id "sse-" = true ∨
        (i ∉ matched ∧ old.text <+: block.text)) :
      Merged block (merged, matched) (merged.set i (grow old block), i :: matched)
  | full (merged : List Block) (matched : List ℕ) (hfull : maxBlocks ≤ merged.length) :
      Merged block (merged, matched) (merged, matched)
  | added (merged : List Block) (matched : List ℕ) (id : String)
      (hroom : merged.length < maxBlocks) (hfree : id ∉ merged.map Block.id)
      (hid : id = block.id ∨ (block.kind = .text ∧
        ∃ i < maxBlocks, id = "text-" ++ toString i)) :
      Merged block (merged, matched)
        (merged ++ [{ block with id := id }], merged.length :: matched)

theorem mergeStep_merged {merged : List Block} {matched : List ℕ} {block : Block}
    (hclean : ∀ b ∈ merged, Clean b) (hblock : Clean block) :
    Merged block (merged, matched) (mergeStep (merged, matched) block) := by
  unfold mergeStep
  dsimp only
  cases hindex : blockIndex merged matched block with
  | some i =>
    dsimp only
    split
    · rename_i old hkind hget
      rw [blockIndex, hkind] at hindex
      obtain ⟨old', hget', hold, hmatch⟩ := textIndex_some hindex
      rw [hget] at hget'
      obtain rfl := Option.some.inj hget'
      split
      · rename_i hlength
        refine Merged.grown merged matched i old hget hold hkind hlength (hmatch.imp id ?_)
        rintro ⟨hfree, hbegin | hbegin⟩
        · exact ⟨hfree, hbegin⟩
        · rw [hbegin.eq_of_length (Nat.le_antisymm hbegin.length_le hlength)]
          exact ⟨hfree, List.prefix_refl _⟩
      · exact Merged.seen merged matched i
    · exact Merged.seen merged matched i
  | none =>
    dsimp only
    split
    · rename_i hfull
      exact Merged.full merged matched hfull
    · rename_i hfull
      have hroom : merged.length < maxBlocks := by omega
      rcases block_kind block with hkind | hkind
      · by_cases hused : block.id ∈ merged.map Block.id
        · have hcount : (merged.map Block.id).length < maxBlocks := by rwa [List.length_map]
          obtain ⟨i, hi, hfresh, hfree⟩ := freshId_some "text-" hcount
          rw [if_pos hused, if_pos hkind, hfresh]
          exact Merged.added merged matched _ hroom hfree (Or.inr ⟨hkind, i, hi, rfl⟩)
        · rw [if_neg hused]
          exact Merged.added merged matched _ hroom hused (Or.inl rfl)
      · have hunused : block.id ∉ merged.map Block.id := by
          intro hused
          obtain ⟨b, hb, hid⟩ := List.mem_map.mp hused
          rw [blockIndex, hkind] at hindex
          have hnone := List.findIdx?_eq_none_iff.mp hindex b hb
          rcases block_kind b with hbkind | hbkind
          · exact text_id_ne_tool_id (clean_text (hclean b hb) hbkind) (clean_tool hblock hkind) hid
          · simp [hid, hbkind] at hnone
        rw [if_neg hunused]
        exact Merged.added merged matched _ hroom hunused (Or.inl rfl)

/-- A stored block after a part of a snapshot: its text is its own, or one of the snapshot that
extends it, or has its identifier in the stream. -/
structure GrownFrom (snapshot : List Block) (old new : Block) : Prop where
  id : new.id = old.id
  kind : new.kind = old.kind
  length : old.text.length ≤ new.text.length
  text : new.text = old.text ∨
    ∃ block ∈ snapshot, block.text = new.text ∧
      (old.text <+: new.text ∨ block.id = old.id ∧ startsWith block.id "sse-" = true)

/-- The state of the loop after some blocks of a snapshot. -/
structure Merging (snapshot stored : List Block) (acc : List Block × List ℕ) : Prop where
  grown : ∀ (i : ℕ) (old : Block), stored[i]? = some old →
    ∃ new, acc.1[i]? = some new ∧ GrownFrom snapshot old new
  untouched : ∀ i < stored.length, i ∉ acc.2 → acc.1[i]? = stored[i]?
  order : stored.map Block.id <+: acc.1.map Block.id
  clean : ∀ b ∈ acc.1, Clean b
  unique : (acc.1.map Block.id).Nodup
  count : acc.1.length ≤ maxBlocks
  texts : ∀ b ∈ acc.1, b.kind = .text → HasText (stored ++ snapshot) b.text

theorem set_ids {merged : List Block} {i : ℕ} {old new : Block} (hget : merged[i]? = some old)
    (hid : new.id = old.id) : (merged.set i new).map Block.id = merged.map Block.id := by
  apply List.ext_getElem?
  intro j
  rw [List.getElem?_map, List.getElem?_map]
  by_cases hj : i = j
  · subst hj
    obtain ⟨hi, _⟩ := List.getElem?_eq_some_iff.mp hget
    rw [List.getElem?_set_self hi, hget]
    exact congrArg some hid
  · rw [List.getElem?_set_ne hj]

variable {snapshot stored : List Block} {block : Block} {acc acc' : List Block × List ℕ}

theorem merging_step (h : Merging snapshot stored acc) (hmem : block ∈ snapshot)
    (hblock : Clean block) (hstep : Merged block acc acc') :
    Merging snapshot stored acc' := by
  cases hstep with
  | seen merged matched i =>
    exact ⟨h.grown, fun j hj hfree => h.untouched j hj fun hin =>
      hfree (List.mem_cons_of_mem _ hin), h.order, h.clean, h.unique, h.count, h.texts⟩
  | full merged matched hfull => exact h
  | grown merged matched i old hget hkind htext hlength hmatch =>
    obtain ⟨hi, hiold⟩ := List.getElem?_eq_some_iff.mp hget
    have hids := @set_ids merged i old (grow old block) hget rfl
    refine ⟨?_, ?_, ?_, ?_, ?_, ?_, ?_⟩
    · intro j st hst
      obtain ⟨new, hnew, hgrown⟩ := h.grown j st hst
      by_cases hj : i = j
      · subst hj
        rw [hget] at hnew
        obtain rfl := Option.some.inj hnew
        refine ⟨grow old block, List.getElem?_set_self hi, hgrown.id, ?_, ?_, Or.inr
          ⟨block, hmem, rfl, ?_⟩⟩
        · exact htext.trans (hkind.symm.trans hgrown.kind)
        · exact Nat.le_trans hgrown.length hlength
        · rcases hmatch with ⟨hid, hstem⟩ | ⟨hfree, hbegin⟩
          · exact Or.inr ⟨hid.symm.trans hgrown.id, hstem⟩
          · have hstored := h.untouched i (List.getElem?_eq_some_iff.mp hst).1 hfree
            rw [hst, hget] at hstored
            obtain rfl := Option.some.inj hstored
            exact Or.inl hbegin
      · exact ⟨new, (List.getElem?_set_ne hj).trans hnew, hgrown⟩
    · intro j hj hfree
      rw [List.mem_cons, not_or] at hfree
      exact (List.getElem?_set_ne (Ne.symm hfree.1)).trans (h.untouched j hj hfree.2)
    · rw [hids]
      exact h.order
    · intro b hb
      rcases List.mem_or_eq_of_mem_set hb with hb | rfl
      · exact h.clean b hb
      · exact clean_renamed hblock (h.clean old (hiold ▸ List.getElem_mem hi)) htext hkind
    · rw [hids]
      exact h.unique
    · rw [List.length_set]
      exact h.count
    · intro b hb hbkind
      rcases List.mem_or_eq_of_mem_set hb with hb | rfl
      · exact h.texts b hb hbkind
      · exact ⟨block, List.mem_append_right _ hmem, htext, rfl⟩
  | added merged matched id hroom hfree hid =>
    refine ⟨?_, ?_, ?_, ?_, ?_, ?_, ?_⟩
    · intro j st hst
      obtain ⟨new, hnew, hgrown⟩ := h.grown j st hst
      obtain ⟨hj, _⟩ := List.getElem?_eq_some_iff.mp hnew
      exact ⟨new, (List.getElem?_append_left hj).trans hnew, hgrown⟩
    · intro j hj hnot
      rw [List.mem_cons, not_or] at hnot
      obtain ⟨new, hnew, _⟩ := h.grown j _ (List.getElem?_eq_getElem hj)
      obtain ⟨hlt, _⟩ := List.getElem?_eq_some_iff.mp hnew
      exact (List.getElem?_append_left hlt).trans (h.untouched j hj hnot.2)
    · rw [List.map_append]
      exact h.order.trans (List.prefix_append _ _)
    · intro b hb
      rcases List.mem_append.mp hb with hb | hb
      · exact h.clean b hb
      · rw [List.mem_singleton] at hb
        subst hb
        rcases hid with rfl | ⟨hkind, i, hi, rfl⟩
        · exact hblock
        · have hclean := clean_text hblock hkind
          obtain ⟨hvalid, hstem⟩ := positional_valid hi
          refine Or.inl ⟨hclean.kind, hvalid, ?_, hclean.stripped, hclean.filled, hclean.toolId,
            hclean.seenAt⟩
          simp only [hstem, Bool.true_or]
    · rw [List.map_append, List.nodup_append]
      refine ⟨h.unique, List.nodup_singleton _, ?_⟩
      intro x hx y hy hxy
      rw [List.map_singleton, List.mem_singleton] at hy
      subst hy hxy
      exact hfree hx
    · rw [List.length_append, List.length_singleton]
      exact hroom
    · intro b hb hbkind
      rcases List.mem_append.mp hb with hb | hb
      · exact h.texts b hb hbkind
      · rw [List.mem_singleton] at hb
        subst hb
        exact ⟨block, List.mem_append_right _ hmem, hbkind, rfl⟩

/-- The loop over a whole snapshot. -/
theorem merging_loop (hclean : ∀ b ∈ stored, Clean b) (hunique : (stored.map Block.id).Nodup)
    (hcount : stored.length ≤ maxBlocks) (hsnapshot : ∀ b ∈ snapshot, Clean b) :
    Merging snapshot stored (snapshot.foldl mergeStep (stored, [])) := by
  have hfrom : ∀ (rest : List Block) (acc : List Block × List ℕ), (∀ b ∈ rest, b ∈ snapshot) →
      Merging snapshot stored acc → Merging snapshot stored (rest.foldl mergeStep acc) := by
    intro rest
    induction rest with
    | nil => exact fun acc _ h => h
    | cons block rest ih =>
      intro acc hmem h
      have hblock := hmem block List.mem_cons_self
      exact ih _ (fun b hb => hmem b (List.mem_cons_of_mem _ hb))
        (merging_step h hblock (hsnapshot block hblock)
          (mergeStep_merged h.clean (hsnapshot block hblock)))
  refine hfrom snapshot (stored, []) (fun _ hb => hb) ⟨?_, fun _ _ _ => rfl, List.prefix_refl _,
    hclean, hunique, hcount, ?_⟩
  · exact fun i old hold => ⟨old, hold, rfl, rfl, Nat.le_refl _, Or.inl rfl⟩
  · exact fun b hb hkind => ⟨b, List.mem_append_left _ hb, hkind, rfl⟩

end Loop

section Retention

/-- The stored lists that merges build. -/
structure WellFormed (blocks : List Block) : Prop where
  clean : ∀ b ∈ blocks, Clean b
  unique : (blocks.map Block.id).Nodup
  count : blocks.length ≤ maxBlocks
  total : totalText blocks ≤ maxChars

variable (lib : Stdlib)

theorem normalize_wellFormed {blocks : List Block} (hclean : ∀ b ∈ blocks, Clean b)
    (hunique : (blocks.map Block.id).Nodup) :
    WellFormed (normalizeDisplayBlocks lib (blocks.map Block.raw)) := by
  unfold normalizeDisplayBlocks
  have hkept := @collapse_kept lib (readBlocks 0 ((blocks.map Block.raw).take maxBlocks))
  obtain ⟨hread, htotal, hcount⟩ := readBlocks_clean 0 ((blocks.map Block.raw).take maxBlocks)
  have hsublist : List.Sublist (readBlocks 0 ((blocks.map Block.raw).take maxBlocks)) blocks := by
    rw [← List.map_take]
    exact (readBlocks_sublist 0 fun b hb => hclean b (List.mem_of_mem_take hb)).trans
      (List.take_sublist _ _)
  refine ⟨hkept.clean hread, ?_, ?_, ?_⟩
  · exact hunique.sublist (hkept.order.trans (hsublist.map Block.id))
  · have hlength := hkept.order.length_le
    rw [List.length_map, List.length_map] at hlength
    rw [List.length_take] at hcount
    omega
  · have := hkept.total
    have := htotal (Nat.zero_le _)
    omega

theorem normalize_all_clean (value : List RawBlock) :
    ∀ b ∈ normalizeDisplayBlocks lib value, Clean b := by
  unfold normalizeDisplayBlocks
  exact (@collapse_kept lib _).clean (readBlocks_clean 0 _).1

/-- A snapshot as the merge reads it. -/
def snapshotBlocks (incoming : List Block) : List Block :=
  normalizeDisplayBlocks lib (incoming.map Block.raw)

/-- The blocks after the loop, before they are cut and collapsed. -/
def mergedBlocks (previous incoming : List Block) : List Block :=
  ((snapshotBlocks lib incoming).foldl mergeStep (deserializeDisplayBlocks lib previous, [])).1

variable {lib} {previous incoming : List Block}

theorem deserialize_wellFormed (h : WellFormed previous) :
    WellFormed (deserializeDisplayBlocks lib previous) :=
  normalize_wellFormed lib h.clean h.unique

theorem merged_merging (h : WellFormed previous) :
    Merging (snapshotBlocks lib incoming) (deserializeDisplayBlocks lib previous)
      ((snapshotBlocks lib incoming).foldl mergeStep (deserializeDisplayBlocks lib previous, [])) :=
  merging_loop (deserialize_wellFormed h).clean (deserialize_wellFormed h).unique
    (deserialize_wellFormed h).count (normalize_all_clean lib _)

theorem merge_wellFormed (h : WellFormed previous) :
    WellFormed (mergeDisplayBlocks lib previous incoming) := by
  unfold mergeDisplayBlocks
  split
  · exact h
  · have hmerging := @merged_merging lib previous incoming h
    exact normalize_wellFormed lib hmerging.clean hmerging.unique

def observe (lib : Stdlib) (stored : List Block) (snapshot : List Block) : List Block × Unit :=
  (mergeDisplayBlocks lib stored snapshot, ())

theorem run_wellFormed (snapshots : List (List Block)) :
    WellFormed (final (observe lib) [] snapshots) :=
  final_invariant (observe lib) (fun _ => True) WellFormed (fun _ _ _ h => merge_wellFormed h) []
    ⟨fun _ hb => absurd hb List.not_mem_nil, List.nodup_nil, Nat.zero_le _, Nat.zero_le _⟩ snapshots
    fun _ _ => trivial

theorem unique_block {blocks : List Block} (h : (blocks.map Block.id).Nodup) {b b' : Block}
    (hb : b ∈ blocks) (hb' : b' ∈ blocks) (hid : b.id = b'.id) : b = b' :=
  List.inj_on_of_nodup_map h hb hb' hid

/-- The lengths of texts that all go on under their identifiers. -/
theorem totalText_le_of_ids {blocks kept : List Block} (hunique : (blocks.map Block.id).Nodup)
    (h : ∀ b ∈ blocks, b.text ≠ [] → ∃ y ∈ kept, y.id = b.id ∧ b.text.length ≤ y.text.length) :
    totalText blocks ≤ totalText kept := by
  induction blocks generalizing kept with
  | nil => exact Nat.zero_le _
  | cons b rest ih =>
    rw [List.map_cons, List.nodup_cons] at hunique
    have hrest := fun b' hb' => h b' (List.mem_cons_of_mem _ hb')
    by_cases hempty : b.text = []
    · have := ih hunique.2 hrest
      simp only [totalText, hempty, List.length_nil]
      omega
    · obtain ⟨y, hy, hid, hlength⟩ := h b List.mem_cons_self hempty
      obtain ⟨before, after, rfl⟩ := List.append_of_mem hy
      have hle : totalText rest ≤ totalText (before ++ after) := by
        refine ih hunique.2 ?_
        intro b' hb' hfilled
        obtain ⟨y', hy', hid', hlength'⟩ := hrest b' hb' hfilled
        refine ⟨y', ?_, hid', hlength'⟩
        rcases List.mem_append.mp hy' with hy' | hy'
        · exact List.mem_append_left _ hy'
        · rcases List.mem_cons.mp hy' with rfl | hy'
          · have hsame : b.id = b'.id := hid.symm.trans hid'
            exact absurd (hsame ▸ List.mem_map_of_mem hb') hunique.1
          · exact List.mem_append_right _ hy'
      rw [totalText_append] at hle ⊢
      simp only [totalText]
      omega

/-- A text that a stored block may have after a snapshot: its own, or a text of the snapshot that
is at least as long and extends it, or has its identifier in the stream. -/
def Continues (snapshot : List Block) (b : Block) (t : Text) : Prop :=
  t = b.text ∨ ∃ block ∈ snapshot, block.text = t ∧ b.text.length ≤ t.length ∧
    (b.text <+: t ∨ block.id = b.id ∧ startsWith block.id "sse-" = true)

/-- What a stored block has come to after the loop: the collapse of the stored list has left it as
the version `x`, and `x` has gone on with the snapshot. -/
def ComesTo (lib : Stdlib) (snapshot previous : List Block) (b m : Block) : Prop :=
  ∃ x ∈ collapseProgressiveVersions lib previous, Becomes lib previous b.text x.text ∧
    m.id = x.id ∧ Continues snapshot x m.text

/-- A stored block has been collapsed, before or after it has gone on with the snapshot. -/
def CollapsedInto (lib : Stdlib) (snapshot previous merged : List Block) (b y : Block) : Prop :=
  ∃ m ∈ merged, ComesTo lib snapshot previous b m ∧
    Becomes lib (previous ++ snapshot) m.text y.text

/-- What a stored block has come to does not fit behind the merged blocks ahead of it. -/
def CutOff (lib : Stdlib) (snapshot previous merged : List Block) (b : Block) : Prop :=
  ∃ (before : List Block) (m : Block) (after : List Block), merged = before ++ m :: after ∧
    ComesTo lib snapshot previous b m ∧
    maxChars < totalText (readBlocks 0 (before.map Block.raw)) + m.text.length

/-- What a merge keeps: some stored blocks under their identifiers and in their order, each with
a text at least as long, and of the other ones versions at least as long, unless the limit of the
texts has cut them off. -/
def Retains (lib : Stdlib) (snapshot previous merged result : List Block) : Prop :=
  ∃ kept : List String, List.Sublist kept (previous.map Block.id) ∧
    List.Sublist kept (result.map Block.id) ∧
    (∀ b ∈ previous, b.kind = .text →
      (b.id ∈ kept ∧ ∃ y ∈ result, y.id = b.id ∧ y.kind = .text ∧
        b.text.length ≤ y.text.length ∧
        (y.text = b.text ∨ CollapsedInto lib snapshot previous merged b y)) ∨
      (b.id ∉ kept ∧ ((∃ y ∈ result, y.kind = .text ∧ b.text.length ≤ y.text.length ∧
          CollapsedInto lib snapshot previous merged b y) ∨
        CutOff lib snapshot previous merged b))) ∧
    ((∀ b ∈ previous, b.kind = .text → b.id ∈ kept) → totalText previous ≤ totalText result)

theorem clean_filled {b : Block} (h : Clean b) (hfilled : b.text ≠ []) : b.kind = .text := by
  rcases h with h | h
  · exact h.kind
  · exact absurd h.text hfilled

theorem retains_refl (snapshot merged : List Block) :
    Retains lib snapshot previous merged previous := by
  refine ⟨previous.map Block.id, List.Sublist.refl _, List.Sublist.refl _, ?_, fun _ =>
    Nat.le_refl _⟩
  intro b hb hkind
  exact Or.inl ⟨List.mem_map_of_mem hb, b, hb, rfl, hkind, Nat.le_refl _, Or.inl rfl⟩

theorem ComesTo.length_le {snapshot : List Block} {b m : Block}
    (h : ComesTo lib snapshot previous b m) : b.text.length ≤ m.text.length := by
  obtain ⟨x, _, hbecomes, _, hsame | ⟨block, _, htext, hlength, _⟩⟩ := h
  · rw [hsame]
    exact hbecomes.length_le
  · exact Nat.le_trans hbecomes.length_le hlength

section Pieces

variable {snapshot merged result : List Block} {matched : List ℕ}
  (hprevious : WellFormed previous)
  (hmerging : Merging snapshot (collapseProgressiveVersions lib previous) (merged, matched))
  (hafter : Kept lib (readBlocks 0 (merged.map Block.raw)) result)
include hmerging

/-- A version that the collapse has left goes on with the snapshot in one of the merged blocks. -/
theorem comesTo_grown {b st : Block} (hst : st ∈ collapseProgressiveVersions lib previous)
    (hstkind : st.kind = .text) (hbecomes : Becomes lib previous b.text st.text) :
    ∃ m ∈ merged, m.id = st.id ∧ m.kind = .text ∧ ComesTo lib snapshot previous b m := by
  obtain ⟨i, hi⟩ := List.mem_iff_getElem?.mp hst
  obtain ⟨m, hm, hgrown⟩ := hmerging.grown i st hi
  refine ⟨m, List.mem_of_getElem? hm, hgrown.id, hgrown.kind.trans hstkind, st, hst, hbecomes,
    hgrown.id, ?_⟩
  rcases hgrown.text with hsame | ⟨block, hblock, htext, hmatch⟩
  · exact Or.inl hsame
  · exact Or.inr ⟨block, hblock, htext, hgrown.length, hmatch⟩

/-- The merged texts are stored or are in the snapshot. -/
theorem merged_texts {t : Text} (h : HasText (readBlocks 0 (merged.map Block.raw)) t) :
    HasText (previous ++ snapshot) t := by
  obtain ⟨c, hc, hkind, rfl⟩ := h
  have hmem := (readBlocks_sublist 0 hmerging.clean).subset hc
  obtain ⟨d, hd, hdkind, hsame⟩ := hmerging.texts c hmem hkind
  rcases List.mem_append.mp hd with hd | hd
  · rw [← hsame]
    exact ((collapse_kept previous).hasText hd hdkind).append_left snapshot
  · exact ⟨d, List.mem_append_right _ hd, hdkind, hsame⟩

include hprevious hafter

/-- A block that is there in the end has come from the stored one with its identifier. -/
theorem survives {b : Block} (hb : b ∈ previous) (hkind : b.kind = .text)
    (hstored : b.id ∈ (collapseProgressiveVersions lib previous).map Block.id)
    (hresult : b.id ∈ result.map Block.id) :
    ∃ y ∈ result, y.id = b.id ∧ y.kind = .text ∧ b.text.length ≤ y.text.length ∧
      CollapsedInto lib snapshot previous merged b y := by
  obtain ⟨y, hy, hyid⟩ := List.mem_map.mp hresult
  obtain ⟨st, hst, hstid⟩ := List.mem_map.mp hstored
  obtain ⟨x, hx, hxid, hxkind, hbecomes⟩ := (collapse_kept previous).origin st hst
  have hxb : x = b := unique_block hprevious.unique hx hb (hxid.trans hstid)
  subst hxb
  obtain ⟨m, hm, hmid, hmkind, hcomes⟩ :=
    comesTo_grown hmerging hst (hxkind.symm.trans hkind) hbecomes
  obtain ⟨m', hm', hm'id, hm'kind, hlater⟩ := hafter.origin y hy
  have hmem := (readBlocks_sublist 0 hmerging.clean).subset hm'
  have hmm : m' = m := unique_block hmerging.unique hmem hm
    (hm'id.trans (hyid.trans (hstid.symm.trans hmid.symm)))
  subst hmm
  exact ⟨y, hy, hyid, hm'kind.symm.trans hmkind,
    Nat.le_trans hcomes.length_le hlater.length_le, m', hm, hcomes,
    hlater.mono fun _ => merged_texts hmerging⟩

omit hprevious in
/-- A stored block has a version in the end, or is cut off. -/
theorem collapsed_or_cut {b : Block} (hb : b ∈ previous) (hkind : b.kind = .text) :
    (∃ y ∈ result, y.kind = .text ∧ b.text.length ≤ y.text.length ∧
      CollapsedInto lib snapshot previous merged b y) ∨
        CutOff lib snapshot previous merged b := by
  obtain ⟨st, hst, hstkind, hbecomes⟩ := (collapse_kept previous).covered b hb hkind
  obtain ⟨m, hm, _, hmkind, hcomes⟩ := comesTo_grown hmerging hst hstkind hbecomes
  rcases readBlocks_cut 0 hmerging.clean hm with hread | ⟨before, after, hsplit, hcut⟩
  · obtain ⟨y, hy, hykind, hlater⟩ := hafter.covered m hread hmkind
    exact Or.inl ⟨y, hy, hykind, Nat.le_trans hcomes.length_le hlater.length_le, m, hm, hcomes,
      hlater.mono fun _ => merged_texts hmerging⟩
  · rw [Nat.zero_add] at hcut
    exact Or.inr ⟨before, m, after, hsplit, hcomes, hcut⟩

/-- A collapse, a loop over a snapshot, a cut and another collapse retain the blocks together. -/
theorem retains_of_kept : Retains lib snapshot previous merged result := by
  obtain ⟨added, hids⟩ :
    (collapseProgressiveVersions lib previous).map Block.id <+: merged.map Block.id :=
    hmerging.order
  have hunique : (merged.map Block.id).Nodup := hmerging.unique
  have hdisjoint : ∀ id ∈ (collapseProgressiveVersions lib previous).map Block.id,
      id ∉ added := by
    rw [← hids] at hunique
    exact fun id hid hadded => (List.nodup_append.mp hunique).2.2 id hid id hadded rfl
  let kept := (result.map Block.id).filter fun id =>
    decide (id ∈ (collapseProgressiveVersions lib previous).map Block.id)
  have hkept : ∀ {id}, id ∈ kept ↔ id ∈ result.map Block.id ∧
      id ∈ (collapseProgressiveVersions lib previous).map Block.id := by
    intro id
    rw [List.mem_filter, decide_eq_true_eq]
  have hstored :
      List.Sublist kept ((collapseProgressiveVersions lib previous).map Block.id) := by
    have hsub := (hafter.order.trans ((readBlocks_sublist 0 hmerging.clean).map Block.id)).filter
      fun id => decide (id ∈ (collapseProgressiveVersions lib previous).map Block.id)
    rw [← hids, List.filter_append] at hsub
    have hall : ((collapseProgressiveVersions lib previous).map Block.id).filter
          (fun id => decide (id ∈ (collapseProgressiveVersions lib previous).map Block.id)) =
        (collapseProgressiveVersions lib previous).map Block.id :=
      List.filter_eq_self.mpr fun id hid => decide_eq_true hid
    have hnone : added.filter
        (fun id => decide (id ∈ (collapseProgressiveVersions lib previous).map Block.id)) =
          [] := by
      rw [List.filter_eq_nil_iff]
      intro id hadded
      rw [decide_eq_true_eq]
      exact fun hid => hdisjoint id hid hadded
    rwa [hall, hnone, List.append_nil] at hsub
  refine ⟨kept, hstored.trans (collapse_kept previous).order, List.filter_sublist, ?_, ?_⟩
  · intro b hb hkind
    by_cases hid : b.id ∈ kept
    · obtain ⟨hresult, hin⟩ := hkept.mp hid
      obtain ⟨y, hy, hyid, hykind, hlength, hgoes⟩ :=
        survives hprevious hmerging hafter hb hkind hin hresult
      exact Or.inl ⟨hid, y, hy, hyid, hykind, hlength, Or.inr hgoes⟩
    · exact Or.inr ⟨hid, collapsed_or_cut hmerging hafter hb hkind⟩
  · intro hall
    apply totalText_le_of_ids hprevious.unique
    intro b hb hfilled
    have hkind := clean_filled (hprevious.clean b hb) hfilled
    obtain ⟨hresult, hin⟩ := hkept.mp (hall b hb hkind)
    obtain ⟨y, hy, hyid, _, hlength, _⟩ :=
      survives hprevious hmerging hafter hb hkind hin hresult
    exact ⟨y, hy, hyid, hlength⟩

omit hprevious hafter in
/-- Nothing is cut off from blocks that fit together. -/
theorem fits_uncut (hfits : totalText merged ≤ maxChars) (b : Block) :
    ¬CutOff lib snapshot previous merged b := by
  rintro ⟨before, m, after, rfl, _, hcut⟩
  have hread := totalText_sublist (readBlocks_sublist 0
    fun b (hb : b ∈ before) => hmerging.clean b (List.mem_append_left _ hb))
  rw [totalText_append] at hfits
  simp only [totalText] at hfits
  omega

end Pieces

theorem deserialize_collapses (h : WellFormed previous) :
    deserializeDisplayBlocks lib previous = collapseProgressiveVersions lib previous :=
  normalize_clean h.clean h.count h.total

theorem merged_merging_collapsed (h : WellFormed previous) :
    Merging (snapshotBlocks lib incoming) (collapseProgressiveVersions lib previous)
      ((snapshotBlocks lib incoming).foldl mergeStep
        (deserializeDisplayBlocks lib previous, [])) := by
  have hmerging := @merged_merging lib previous incoming h
  rwa [deserialize_collapses h] at hmerging ⊢

theorem merge_retains (h : WellFormed previous) :
    Retains lib (snapshotBlocks lib incoming) previous (mergedBlocks lib previous incoming)
      (mergeDisplayBlocks lib previous incoming) := by
  have hmerging := @merged_merging_collapsed lib previous incoming h
  unfold mergeDisplayBlocks
  split
  · exact retains_refl _ _
  · refine retains_of_kept h hmerging ?_
    show Kept lib _ (collapseProgressiveVersions lib (readBlocks 0 (List.take maxBlocks
      ((mergedBlocks lib previous incoming).map Block.raw))))
    rw [List.take_of_length_le (by rw [List.length_map]; exact hmerging.count)]
    exact collapse_kept _

end Retention

section Examples

def commonPrefix : Text → Text → ℕ
  | a :: t, b :: t' => if a = b then commonPrefix t t' + 1 else 0
  | _, _ => 0

/-- The ratio of two texts that share a start and an end, and nothing between them. -/
def edgeRatio (a b : Text) : ℚ :=
  let start := commonPrefix a b
  let stop := commonPrefix (a.drop start).reverse (b.drop start).reverse
  2 * (start + stop) / (a.length + b.length)

def edgeLib : Stdlib where
  casefold := fun t => t.map Char.toLower
  sequenceRatio := edgeRatio
  sha256 := String.ofList

def textBlock (id : String) (text : Text) : Block := { kind := .text, id := id, text := text }

def opening : Text := List.replicate 200 'a'

/-- Two paragraphs with one opening behind a short one that has begun with it. -/
def shownFirst : List Block :=
  [textBlock "text-0" ['a', 'a', 'a'],
    textBlock "text-1" (opening ++ List.replicate 64 'c'),
    textBlock "text-2" (opening ++ List.replicate 64 'b' ++ List.replicate 65 'd')]

def grownFirst : List Block :=
  [textBlock "text-0" (opening ++ List.replicate 64 'b' ++ List.replicate 64 'c')]

/-- The grown paragraph is a version of both others, which are no versions of each other. The
last one takes its place, and nothing that is left is a version of the second one. -/
theorem collapse_loses_text :
    final (observe edgeLib) [] [shownFirst] = shownFirst ∧
      mergeDisplayBlocks edgeLib shownFirst grownFirst =
        [textBlock "text-0" (opening ++ List.replicate 64 'b' ++ List.replicate 65 'd')] ∧
      totalText (mergeDisplayBlocks edgeLib shownFirst grownFirst) < totalText shownFirst ∧
      progressiveVersions edgeLib (opening ++ List.replicate 64 'c')
        (opening ++ List.replicate 64 'b' ++ List.replicate 65 'd') = false := by
  decide +kernel

def half : ℕ := 1024 * 1024

def longA : Text := List.replicate half 'a'

def longB : Text := List.replicate half 'b'

def fullPage : List Block := [textBlock "text-0" longA, textBlock "text-1" longB]

def grownPage : List Block := [textBlock "text-0" (longA ++ ['c'])]

theorem solid_clean {id : String} {t : Text} (hid : validId id = true)
    (hstem : startsWith id "text-" = true) (hsolid : ∀ c ∈ t, isSpace c = false) (hne : t ≠ []) :
    Clean (textBlock id t) :=
  Or.inl ⟨rfl, hid, by simp only [textBlock, hstem, Bool.true_or], strip_solid hsolid,
    hne, rfl, rfl⟩

theorem longA_solid : ∀ c ∈ longA, isSpace c = false := by
  intro c hc
  rw [List.eq_of_mem_replicate hc]
  decide

theorem longB_solid : ∀ c ∈ longB, isSpace c = false := by
  intro c hc
  rw [List.eq_of_mem_replicate hc]
  decide

theorem longA_ne : longA ≠ [] := by
  rw [ne_eq, ← List.length_eq_zero_iff, longA, List.length_replicate]
  decide

theorem longB_ne : longB ≠ [] := by
  rw [ne_eq, ← List.length_eq_zero_iff, longB, List.length_replicate]
  decide

theorem longA_length : longA.length = half := List.length_replicate

theorem longB_length : longB.length = half := List.length_replicate

/-- Texts that start differently are no versions of each other. -/
theorem progressive_heads {lib : Stdlib} {x y : Text} {a b : Char} (hx : x.head? = some a)
    (hy : y.head? = some b) (hab : a ≠ b) : progressiveVersions lib x y = false := by
  have htake : x.take 96 ≠ y.take 96 := by
    intro h
    have hhead := congrArg List.head? h
    cases x with
    | nil => cases hx
    | cons c rest =>
      cases y with
      | nil => cases hy
      | cons d rest' =>
        simp only [List.take_succ_cons, List.head?_cons, Option.some.injEq] at hx hy hhead
        exact hab (hx.symm.trans (hhead.trans hy))
  unfold progressiveVersions
  dsimp only
  by_cases hlt : y.length < x.length
  · rw [if_pos hlt, if_pos hlt]
    simp [Ne.symm htake]
  · rw [if_neg hlt, if_neg hlt]
    simp [htake]

variable {lib : Stdlib}

theorem longA_head : longA.head? = some 'a' := by
  rw [longA, List.head?_replicate]
  rfl

theorem longB_head : longB.head? = some 'b' := by
  rw [longB, List.head?_replicate]
  rfl

theorem clean_longA : Clean (textBlock "text-0" longA) :=
  solid_clean (by decide) (by decide) longA_solid longA_ne

theorem clean_longB : Clean (textBlock "text-1" longB) :=
  solid_clean (by decide) (by decide) longB_solid longB_ne

theorem clean_grown : Clean (textBlock "text-0" (longA ++ ['c'])) := by
  refine solid_clean (by decide) (by decide) ?_ (by simp)
  intro c hc
  rcases List.mem_append.mp hc with hc | hc
  · exact longA_solid c hc
  · rw [List.mem_singleton.mp hc]
    decide

theorem collapse_pair {i j : String} {x y : Text} (h : progressiveVersions lib x y = false) :
    collapseProgressiveVersions lib [textBlock i x, textBlock j y] =
      [textBlock i x, textBlock j y] := by
  simp [collapseProgressiveVersions, collapseStep, textBlock, isVersion, h]

theorem collapse_single (a : Block) : collapseProgressiveVersions lib [a] = [a] := by
  simp [collapseProgressiveVersions, collapseStep]

theorem fullPage_clean : ∀ b ∈ fullPage, Clean b := by
  intro b hb
  rcases List.mem_cons.mp hb with rfl | hb
  · exact clean_longA
  · rw [List.mem_singleton.mp hb]
    exact clean_longB

theorem totalText_pair {i j : String} (x y : Text) :
    totalText [textBlock i x, textBlock j y] = x.length + y.length := by
  simp only [totalText, textBlock, Nat.add_zero]

theorem totalText_single {i : String} (x : Text) : totalText [textBlock i x] = x.length := by
  simp only [totalText, textBlock, Nat.add_zero]

theorem fullPage_normal : normalizeDisplayBlocks lib (fullPage.map Block.raw) = fullPage := by
  rw [normalize_clean fullPage_clean (by decide)]
  · exact collapse_pair (progressive_heads longA_head longB_head (by decide))
  · unfold fullPage maxChars
    rw [totalText_pair, longA_length, longB_length]
    unfold half
    omega

theorem positional_unstable :
    startsWith "text-0" "sse-" = false ∧ startsWith "text-1" "sse-" = false := by
  decide

/-- A page that fills the limit is stored as it is. -/
theorem fullPage_stored : mergeDisplayBlocks lib [] fullPage = fullPage := by
  have hfirst : mergeStep ([], []) (textBlock "text-0" longA) =
      ([textBlock "text-0" longA], [0]) := by
    simp [mergeStep, blockIndex, textIndex, mergeCandidates, maxPair, textBlock, maxBlocks,
      positional_unstable]
  have hsecond : mergeStep ([textBlock "text-0" longA], [0]) (textBlock "text-1" longB) =
      (fullPage, [1, 0]) := by
    simp [mergeStep, blockIndex, textIndex, mergeCandidates, maxPair, textBlock,
      maxBlocks, fullPage, positional_unstable]
  unfold mergeDisplayBlocks
  rw [if_neg (by simp [fullPage]), fullPage_normal]
  have hloop : fullPage.foldl mergeStep (deserializeDisplayBlocks lib [], []) =
      (fullPage, [1, 0]) := by
    show mergeStep (mergeStep ([], []) (textBlock "text-0" longA)) (textBlock "text-1" longB) = _
    rw [hfirst, hsecond]
  rw [hloop]
  exact fullPage_normal

theorem grownPage_normal : normalizeDisplayBlocks lib (grownPage.map Block.raw) = grownPage := by
  have hclean : ∀ b ∈ grownPage, Clean b := by
    intro b hb
    rw [List.mem_singleton.mp hb]
    exact clean_grown
  rw [normalize_clean hclean (by decide)]
  · exact collapse_single _
  · unfold grownPage maxChars
    rw [totalText_single, List.length_append, longA_length, List.length_singleton]
    unfold half
    omega

/-- The second of two paragraphs is left out when both do not fit together. -/
theorem readBlocks_overfull {i j : String} {x y : Text} (hx : Clean (textBlock i x))
    (hy : Clean (textBlock j y)) (hne : y ≠ []) (hfits : x.length ≤ maxChars)
    (hover : maxChars < x.length + y.length) :
    readBlocks 0 ([textBlock i x, textBlock j y].map Block.raw) = [textBlock i x] := by
  have hfirst : readBlock 0 (textBlock i x).raw = some (textBlock i x) := by
    rw [readBlock_raw hx, if_neg]
    simp only [textBlock]
    omega
  have hsecond : readBlock (0 + x.length) (textBlock j y).raw = none := by
    rw [readBlock_raw hy, if_pos]
    simp only [textBlock]
    exact ⟨hne, by omega⟩
  rw [List.map_cons, readBlocks, hfirst]
  show _ :: readBlocks (0 + x.length) [(textBlock j y).raw] = _
  rw [readBlocks, hsecond]
  rfl

theorem overfull_normal :
    normalizeDisplayBlocks lib
      ([textBlock "text-0" (longA ++ ['c']), textBlock "text-1" longB].map Block.raw) =
      grownPage := by
  have hlength : (longA ++ ['c']).length = half + 1 := by
    rw [List.length_append, longA_length, List.length_singleton]
  have hfits : half + 1 ≤ maxChars := by
    unfold half maxChars
    omega
  have hover : maxChars < half + 1 + half := by
    unfold half maxChars
    omega
  have hcount (a b : Block) : ([a, b].map Block.raw).length ≤ maxBlocks := by
    rw [List.length_map]
    show 2 ≤ 256
    omega
  unfold normalizeDisplayBlocks grownPage
  rw [List.take_of_length_le (hcount _ _), readBlocks_overfull clean_grown clean_longB longB_ne
    (by rwa [hlength]) (by rwa [hlength, longB_length])]
  exact collapse_single _

/-- A text that continues the first of two blocks is matched with that one. -/
theorem step_pair {i j : String} {x y z : Text} (hi : startsWith i "sse-" = false)
    (hbegin : x.isPrefixOf z = true) (hother : y.isPrefixOf z = false) (hne : y ≠ z) :
    mergeStep ([textBlock i x, textBlock j y], []) (textBlock i z) =
      ([textBlock i z, textBlock j y], [0]) := by
  have hlength : x.length ≤ z.length := (List.isPrefixOf_iff_prefix.mp hbegin).length_le
  by_cases hsame : x = z
  · simp [mergeStep, blockIndex, textIndex, mergeCandidates, maxPair, textBlock, grow, hi, hsame]
  · simp [mergeStep, blockIndex, textIndex, mergeCandidates, maxPair, textBlock, grow, hi, hbegin,
      hother, hne, hsame, hlength]

theorem grown_matches :
    mergeStep (fullPage, []) (textBlock "text-0" (longA ++ ['c'])) =
      ([textBlock "text-0" (longA ++ ['c']), textBlock "text-1" longB], [0]) := by
  have hbegin : longA.isPrefixOf (longA ++ ['c']) = true :=
    List.isPrefixOf_iff_prefix.mpr (List.prefix_append _ _)
  have hother : longB.isPrefixOf (longA ++ ['c']) = false := by
    rw [Bool.eq_false_iff, ne_eq, List.isPrefixOf_iff_prefix]
    intro ⟨rest, hrest⟩
    have hhead := congrArg List.head? hrest
    rw [List.head?_append, List.head?_append, longA_head, longB_head, Option.some_or,
      Option.some_or] at hhead
    exact absurd hhead (by decide)
  have hne : longB ≠ longA ++ ['c'] := by
    intro h
    rw [h, List.isPrefixOf_iff_prefix.mpr (List.prefix_refl _)] at hother
    exact Bool.noConfusion hother
  exact step_pair positional_unstable.1 hbegin hother hne

/-- One more character on the first paragraph takes the second one from the page. -/
theorem full_page_loses_text :
    mergeDisplayBlocks lib (mergeDisplayBlocks lib [] fullPage) grownPage = grownPage := by
  have hread : deserializeDisplayBlocks lib fullPage = fullPage := fullPage_normal
  have hloop : grownPage.foldl mergeStep (fullPage, []) =
      ([textBlock "text-0" (longA ++ ['c']), textBlock "text-1" longB], [0]) := by
    unfold grownPage
    rw [List.foldl_cons, List.foldl_nil, grown_matches]
  have hne : grownPage ≠ [] := List.cons_ne_nil _ _
  rw [fullPage_stored]
  unfold mergeDisplayBlocks
  rw [if_neg hne, grownPage_normal, hread, hloop]
  exact overfull_normal

/-- A block is lost when only a block with another id and an unrelated text is left. -/
theorem lost_from_pair {i j k : String} {x y z : Text} (hid : k ≠ j)
    (hversion : progressiveVersions lib y z = false) :
    ∃ lost ∈ [textBlock i x, textBlock j y], lost.kind = .text ∧
      ∀ b ∈ [textBlock k z], b.id ≠ lost.id ∧ progressiveVersions lib lost.text b.text = false := by
  refine ⟨textBlock j y, List.mem_cons_of_mem _ List.mem_cons_self, rfl, ?_⟩
  intro b hb
  rw [List.mem_singleton.mp hb]
  exact ⟨hid, hversion⟩

theorem full_page_lost :
    ∃ lost ∈ fullPage, lost.kind = .text ∧
      ∀ b ∈ grownPage, b.id ≠ lost.id ∧ progressiveVersions lib lost.text b.text = false := by
  have hhead : (longA ++ ['c']).head? = some 'a' := by
    rw [List.head?_append, longA_head, Option.some_or]
  have hids : ("text-0" : String) ≠ "text-1" := by decide
  unfold fullPage grownPage
  exact lost_from_pair hids (progressive_heads longB_head hhead (by decide))

end Examples

end Prompta.BlockRetention
