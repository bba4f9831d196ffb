import Prompta.BlockRetention

/-!
The normal form of display blocks. Where being a progressive version is symmetric, no two text
blocks of a normalized list are versions of each other, and so the list is read back as it is.
The lists that merges build have distinct identifiers and a bounded number of blocks, so a merge
always finds the positional identifier it looks for.
-/
namespace Prompta.NormalBlocks

open Texts DisplayBlocks BlockRetention Runs

section NormalForm

/-- Not two texts of which the later one is a version of the earlier one. -/
def Apart (lib : Stdlib) (a b : Block) : Prop :=
  a.kind = .text → b.kind = .text → progressiveVersions lib a.text b.text = false

variable {lib : Stdlib}

theorem apart_of_new {a b : Block} (h : isVersion lib b a = false) : Apart lib a b := by
  intro hkind _
  simpa [isVersion, hkind] using h

theorem apart_symm (hsym : ∀ x y, progressiveVersions lib x y = progressiveVersions lib y x)
    {a b : Block} (h : Apart lib a b) : Apart lib b a := by
  intro hb ha
  rw [hsym]
  exact h ha hb

theorem apart_append {visible : List Block} {block : Block}
    (hvisible : visible.Pairwise (Apart lib))
    (hnew : ∀ v ∈ visible, Apart lib v block) : (visible ++ [block]).Pairwise (Apart lib) := by
  apply List.pairwise_append.mpr
  refine ⟨hvisible, List.pairwise_singleton _ _, ?_⟩
  intro v hv b hb
  rw [List.mem_singleton.mp hb]
  exact hnew v hv

/-- A block that takes the place of its versions is no version of those that stay. -/
theorem collapsed_apart (hsym : ∀ x y, progressiveVersions lib x y = progressiveVersions lib y x)
    {visible visible' : List Block} {block : Block} (hvisible : visible.Pairwise (Apart lib))
    (h : Collapsed lib visible block visible') : visible'.Pairwise (Apart lib) := by
  cases h with
  | kept hnew =>
    apply apart_append hvisible
    intro v hv hkind hblock
    exact apart_of_new (hnew hblock v hv) hkind hblock
  | covered v hmem hkind hversion hlength => exact hvisible
  | replaced before rest original hsplit htext hbefore horiginal hlonger =>
    rw [hsplit] at hvisible
    obtain ⟨hleft, hright, hcross⟩ := List.pairwise_append.mp hvisible
    have hrest := (List.pairwise_cons.mp hright).2
    apply List.pairwise_append.mpr
    refine ⟨hleft, ?_, ?_⟩
    · apply List.pairwise_cons.mpr
      refine ⟨?_, hrest.sublist List.filter_sublist⟩
      intro v hv
      obtain ⟨-, hstays⟩ := List.mem_filter.mp hv
      have hv' : isVersion lib block v = false := by simpa using hstays
      exact apart_symm hsym (apart_of_new hv')
    · intro v hv b hb
      rcases List.mem_cons.mp hb with rfl | hb
      · exact apart_of_new (hbefore v hv)
      · exact hcross v hv b (List.mem_cons_of_mem _ (List.mem_of_mem_filter hb))

theorem collapse_apart (hsym : ∀ x y, progressiveVersions lib x y = progressiveVersions lib y x)
    (items : List Block) : (collapseProgressiveVersions lib items).Pairwise (Apart lib) := by
  have hloop : ∀ (items visible : List Block), visible.Pairwise (Apart lib) →
      (items.foldl (collapseStep lib) visible).Pairwise (Apart lib) := by
    intro items
    induction items with
    | nil => exact fun visible hvisible => hvisible
    | cons block rest ih =>
      intro visible hvisible
      exact ih _ (collapsed_apart hsym hvisible (collapseStep_collapsed visible block))
  exact hloop items [] List.Pairwise.nil

/-- A block apart from all that are visible is put behind them. -/
theorem collapseStep_apart {visible : List Block} {block : Block}
    (h : ∀ v ∈ visible, Apart lib v block) :
    collapseStep lib visible block = visible ++ [block] := by
  unfold collapseStep
  by_cases hkind : block.kind ≠ .text
  · rw [if_pos hkind]
  · rw [if_neg hkind]
    have htext : block.kind = .text := not_not.mp hkind
    have hnone : visible.filter (isVersion lib block) = [] := by
      apply List.filter_eq_nil_iff.mpr
      intro v hv hversion
      have hprogressive := isVersion_progressive hversion
      rw [h v hv (isVersion_text hversion) htext] at hprogressive
      exact Bool.false_ne_true hprogressive
    rw [hnone]

/-- Blocks that are apart are not collapsed. -/
theorem collapse_fixed {items : List Block} (h : items.Pairwise (Apart lib)) :
    collapseProgressiveVersions lib items = items := by
  have hloop : ∀ items visible : List Block, (visible ++ items).Pairwise (Apart lib) →
      items.foldl (collapseStep lib) visible = visible ++ items := by
    intro items
    induction items with
    | nil =>
      intro visible _
      exact (List.append_nil visible).symm
    | cons block rest ih =>
      intro visible hapart
      have hnew : ∀ v ∈ visible, Apart lib v block := fun v hv =>
        (List.pairwise_append.mp hapart).2.2 v hv block List.mem_cons_self
      have hassoc : visible ++ block :: rest = (visible ++ [block]) ++ rest := by simp
      rw [List.foldl_cons, collapseStep_apart hnew, hassoc]
      rw [hassoc] at hapart
      exact ih _ hapart
  exact hloop items [] h

/-- What is read again fits in both limits. -/
theorem normalize_bounds (lib : Stdlib) (value : List RawBlock) :
    (normalizeDisplayBlocks lib value).length ≤ maxBlocks ∧
      totalText (normalizeDisplayBlocks lib value) ≤ maxChars := by
  unfold normalizeDisplayBlocks
  have hkept := @collapse_kept lib (readBlocks 0 (value.take maxBlocks))
  obtain ⟨-, htotal, hcount⟩ := readBlocks_clean 0 (value.take maxBlocks)
  have hlength := hkept.order.length_le
  rw [List.length_map, List.length_map] at hlength
  rw [List.length_take] at hcount
  have hfits := htotal (Nat.zero_le _)
  have hsmaller := hkept.total
  omega

/-- A normalized list is read back as it is, when the tuple is handed in as a list, and its texts
are apart, in either order. -/
theorem normalize_idempotent (lib : Stdlib)
    (hsym : ∀ x y, progressiveVersions lib x y = progressiveVersions lib y x)
    (value : List RawBlock) :
    normalizeDisplayBlocks lib ((normalizeDisplayBlocks lib value).map Block.raw) =
        normalizeDisplayBlocks lib value ∧
      (normalizeDisplayBlocks lib value).Pairwise (fun a b => a.kind = .text → b.kind = .text →
        progressiveVersions lib a.text b.text = false ∧
          progressiveVersions lib b.text a.text = false) := by
  have hapart : (normalizeDisplayBlocks lib value).Pairwise (Apart lib) := collapse_apart hsym _
  constructor
  · obtain ⟨hcount, htotal⟩ := normalize_bounds lib value
    have hread := readBlocks_fits 0 (normalize_all_clean lib value) (by omega)
    have hshort : (normalizeDisplayBlocks lib value).map Block.raw =
        ((normalizeDisplayBlocks lib value).map Block.raw).take maxBlocks := by
      rw [List.take_of_length_le]
      rw [List.length_map]
      exact hcount
    have hstep : normalizeDisplayBlocks lib ((normalizeDisplayBlocks lib value).map Block.raw) =
        collapseProgressiveVersions lib (readBlocks 0
          (((normalizeDisplayBlocks lib value).map Block.raw).take maxBlocks)) := rfl
    rw [hstep, ← hshort, hread]
    exact collapse_fixed hapart
  · apply hapart.imp
    intro a b h ha hb
    exact ⟨h ha hb, apart_symm hsym h hb ha⟩

/-- Only texts of one length are compared in the order in which they come. -/
theorem progressive_symm (h : ∀ x y : Text, x.length = y.length →
      lib.sequenceRatio (x.take 512) (y.take ((x.take 512).length + 64)) =
        lib.sequenceRatio (y.take 512) (x.take ((y.take 512).length + 64))) (x y : Text) :
    progressiveVersions lib x y = progressiveVersions lib y x := by
  unfold progressiveVersions
  rcases Nat.lt_trichotomy x.length y.length with hlt | heq | hgt
  · simp [hlt, Nat.lt_asymm hlt]
  · have hratio := h x y heq
    simp only [heq, Nat.lt_irrefl, if_false] at hratio ⊢
    rw [hratio]
    simp only [ne_comm]
  · simp [hgt, Nat.lt_asymm hgt]

/-- Library functions for runs on texts that are equal or have nothing in common. -/
def equalLib : Stdlib where
  casefold := fun t => t.map Char.toLower
  sequenceRatio := fun a b => if a = b then 1 else 0
  sha256 := String.ofList

theorem sample_eq_iff {x y : Text} (hlength : x.length = y.length) :
    x.take 512 = y.take ((x.take 512).length + 64) ↔ x.length ≤ 512 ∧ x = y := by
  constructor
  · intro h
    have hlengths := congrArg List.length h
    simp only [List.length_take] at hlengths
    have hshort : x.length ≤ 512 := by omega
    refine ⟨hshort, ?_⟩
    rw [List.take_of_length_le hshort, List.take_of_length_le (by omega)] at h
    exact h
  · intro h
    obtain ⟨hshort, rfl⟩ := h
    rw [List.take_of_length_le hshort, List.take_of_length_le (by omega)]

theorem equal_symm (x y : Text) :
    progressiveVersions equalLib x y = progressiveVersions equalLib y x := by
  apply progressive_symm
  intro x y hlength
  have hsame : x.take 512 = y.take ((x.take 512).length + 64) ↔
      y.take 512 = x.take ((y.take 512).length + 64) := by
    rw [sample_eq_iff hlength, sample_eq_iff hlength.symm, hlength, eq_comm]
  show (if x.take 512 = y.take ((x.take 512).length + 64) then (1 : ℚ) else 0) =
    if y.take 512 = x.take ((y.take 512).length + 64) then 1 else 0
  simp only [hsame]

/-- A padded text and a tool, which are read back as they were read first. -/
theorem normalize_idempotent_padded :
    normalizeDisplayBlocks equalLib ((normalizeDisplayBlocks equalLib
        [{ kind := some "text", id := some "text-0", text := some [' ', 'h', 'i', ' '] },
          { kind := some "tool", id := some "dom-tool-0" }]).map Block.raw) =
      [⟨.text, "text-0", ['h', 'i'], none, none⟩, ⟨.tool, "dom-tool-0", [], none, none⟩] :=
  (normalize_idempotent equalLib equal_symm _).1.trans (by decide +kernel)

end NormalForm

section Identifiers

variable {lib : Stdlib}

/-- Where a block takes a new place under an identifier that is in use, another one is found. -/
def SearchSucceeds (acc : List Block × List ℕ) (block : Block) : Prop :=
  blockIndex acc.1 acc.2 block = none → acc.1.length < maxBlocks → block.id ∈ acc.1.map Block.id →
    ∃ id, freshId (if block.kind = .text then "text-" else "dom-tool-")
      (acc.1.map Block.id) = some id ∧
      id ∉ acc.1.map Block.id

def mergeRun (acc : List Block × List ℕ) (block : Block) : (List Block × List ℕ) × Unit :=
  (mergeStep acc block, ())

theorem search_succeeds (acc : List Block × List ℕ) (block : Block) : SearchSucceeds acc block := by
  intro _ hroom _
  have hused : (acc.1.map Block.id).length < maxBlocks := by
    rw [List.length_map]
    exact hroom
  obtain ⟨i, -, hfresh, hfree⟩ := freshId_some _ hused
  exact ⟨_, hfresh, hfree⟩

/-- What merges have stored has distinct identifiers and at most 256 blocks, and in the merge of
any further snapshot every search for an identifier finds one. -/
theorem identifiers_unique (lib : Stdlib) (snapshots : List (List Block)) :
    ((final (observe lib) [] snapshots).map Block.id).Nodup ∧
      (final (observe lib) [] snapshots).length ≤ 256 ∧
      ∀ incoming, Meets mergeRun SearchSucceeds
        (deserializeDisplayBlocks lib (final (observe lib) [] snapshots), [])
        (snapshotBlocks lib incoming) := by
  have hstored := @run_wellFormed lib snapshots
  refine ⟨hstored.unique, hstored.count, ?_⟩
  intro incoming
  rw [meets_iff_events]
  intro e _
  exact search_succeeds e.pre e.input

end Identifiers

end Prompta.NormalBlocks
