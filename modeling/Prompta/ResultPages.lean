import Mathlib.Algebra.Order.Ring.Rat
import Mathlib.Data.Rat.Cast.Order
import Mathlib.Tactic.Linarith
import Prompta.Schema
import Prompta.SortedSelections

/-!
The refresh of the list of runs. The first page of the results comes fresh, and runs that were
loaded from older pages are kept beside it, under the status they had when they were loaded. A
kept run that has left the result since then and sorts before the end of the page comes back.
-/
namespace Prompta.ResultPages

open Schema SortedSelections

section Pages

structure RunSummary where
  sendId : String
  jobName : String := ""
  title : String := ""
  preview : String := ""
  status : ResultStatus
  hasResponse : Bool := false
  needsAttention : Option Bool := none
  queuedFollowup : Option Bool := none
  lastReplyRevision : String := ""
  lastReadRevision : String := ""
  lastReplyAt : ℚ := 0
  createdAt : ℚ
  activityAt : Option ℚ := none
  updatedAt : ℚ
  finishedAt : ℚ := 0
  deriving DecidableEq

inductive ChatListStatus
  | any
  | only (status : ResultStatus)
  | needsAttention
  deriving DecidableEq

/-- The loaded run still satisfies the filter, by what was loaded of it. -/
def satisfies (status : ChatListStatus) (item : RunSummary) : Bool :=
  match status with
  | .any => true
  | .only status => decide (item.status = status)
  | .needsAttention => item.needsAttention.getD false

/-- `Map.set` by the run's identifier: a new key goes behind the others. -/
def setItem (items : List RunSummary) (item : RunSummary) : List RunSummary :=
  if items.any fun a => decide (a.sendId = item.sendId) then
    items.map fun a => if a.sendId = item.sendId then item else a
  else items ++ [item]

def byId (items : List RunSummary) : List RunSummary := items.foldl setItem []

variable (localeCompare : String → String → ℤ)

def compareRuns (a b : RunSummary) : ℚ :=
  let activity := b.activityAt.getD b.createdAt - a.activityAt.getD a.createdAt
  if activity ≠ 0 then activity
  else
    let created := b.createdAt - a.createdAt
    if created ≠ 0 then created else localeCompare b.sendId a.sendId

/-- `a` may stand before `b`. -/
def Newest (a b : RunSummary) : Prop := compareRuns localeCompare a b ≤ 0

instance : DecidableRel (Newest localeCompare) := fun a b =>
  inferInstanceAs (Decidable (compareRuns localeCompare a b ≤ 0))

def retainedRuns (existing : List RunSummary) (total pageSize : ℤ) (status : ChatListStatus) :
    List RunSummary :=
  if total ≤ pageSize then [] else existing.filter (satisfies status)

def reconcileResultPage (existing firstPage : List RunSummary) (total pageSize : ℤ)
    (status : ChatListStatus) : List RunSummary :=
  ((byId (retainedRuns existing total pageSize status ++ firstPage)).insertionSort
    (Newest localeCompare)).take (max 0 total).toNat

end Pages

section Keys

/-- The run's identifier is among those of the list. -/
def Listed (items : List RunSummary) (item : RunSummary) : Prop :=
  ∃ a ∈ items, a.sendId = item.sendId

variable {items more : List RunSummary} {item x : RunSummary}

theorem setItem_listed (h : Listed items item) :
    setItem items item = items.map fun a => if a.sendId = item.sendId then item else a := by
  unfold setItem
  rw [if_pos]
  obtain ⟨a, ha, hid⟩ := h
  rw [List.any_eq_true]
  exact ⟨a, ha, decide_eq_true hid⟩

theorem setItem_new (h : ¬Listed items item) : setItem items item = items ++ [item] := by
  unfold setItem
  rw [if_neg]
  intro hany
  obtain ⟨a, ha, hid⟩ := List.any_eq_true.mp hany
  exact h ⟨a, ha, of_decide_eq_true hid⟩

theorem setItem_ids (h : Listed items item) :
    (setItem items item).map RunSummary.sendId = items.map RunSummary.sendId := by
  rw [setItem_listed h, List.map_map]
  apply List.map_congr_left
  intro a _
  dsimp only [Function.comp]
  split
  · rename_i hid
    exact hid.symm
  · rfl

theorem setItem_nodup (h : (items.map RunSummary.sendId).Nodup) :
    ((setItem items item).map RunSummary.sendId).Nodup := by
  by_cases hlisted : Listed items item
  · rw [setItem_ids hlisted]
    exact h
  · rw [setItem_new hlisted, List.map_append, List.nodup_append]
    refine ⟨h, List.nodup_singleton _, ?_⟩
    intro k hk k' hk' hsame
    obtain ⟨a, ha, rfl⟩ := List.mem_map.mp hk
    obtain ⟨b, hb, rfl⟩ := List.mem_map.mp hk'
    rw [List.mem_singleton.mp hb] at hsame
    exact hlisted ⟨a, ha, hsame⟩

/-- The run that is set replaces the one of its key. -/
theorem mem_setItem : x ∈ setItem items item ↔ x = item ∨ (x ∈ items ∧ x.sendId ≠ item.sendId) := by
  by_cases hlisted : Listed items item
  · rw [setItem_listed hlisted, List.mem_map]
    constructor
    · intro h
      obtain ⟨a, ha, rfl⟩ := h
      by_cases hid : a.sendId = item.sendId
      · exact Or.inl (if_pos hid)
      · rw [if_neg hid]
        exact Or.inr ⟨ha, hid⟩
    · intro h
      rcases h with rfl | ⟨hx, hid⟩
      · obtain ⟨a, ha, hid⟩ := hlisted
        exact ⟨a, ha, if_pos hid⟩
      · exact ⟨x, hx, if_neg hid⟩
  · rw [setItem_new hlisted, List.mem_append, List.mem_singleton]
    constructor
    · intro h
      rcases h with hx | rfl
      · refine Or.inr ⟨hx, ?_⟩
        intro hid
        exact hlisted ⟨x, hx, hid⟩
      · exact Or.inl rfl
    · intro h
      rcases h with rfl | ⟨hx, -⟩
      · exact Or.inr rfl
      · exact Or.inl hx

theorem foldl_nodup (more : List RunSummary) (h : (items.map RunSummary.sendId).Nodup) :
    ((more.foldl setItem items).map RunSummary.sendId).Nodup := by
  induction more generalizing items with
  | nil => exact h
  | cons item rest ih => exact ih (setItem_nodup h)

/-- What is set later, under keys of its own, takes the place of what was there. -/
theorem mem_foldl (hkeys : (more.map RunSummary.sendId).Nodup) :
    x ∈ more.foldl setItem items ↔ x ∈ more ∨ (x ∈ items ∧ ¬Listed more x) := by
  induction more generalizing items with
  | nil =>
    have hnone : ¬Listed [] x := fun ⟨a, ha, _⟩ => absurd ha List.not_mem_nil
    simp [hnone]
  | cons item rest ih =>
    obtain ⟨hfresh, hrest⟩ := List.nodup_cons.mp hkeys
    rw [List.foldl_cons, ih hrest, mem_setItem]
    have hitem : ¬Listed rest item := by
      intro h
      obtain ⟨a, ha, hid⟩ := h
      apply hfresh
      rw [← hid]
      exact List.mem_map_of_mem ha
    have hcons : Listed (item :: rest) x ↔ item.sendId = x.sendId ∨ Listed rest x := by
      unfold Listed
      simp only [List.mem_cons, exists_eq_or_imp]
    rw [hcons, List.mem_cons]
    constructor
    · intro h
      rcases h with hx | ⟨rfl | ⟨hx, hid⟩, hlisted⟩
      · exact Or.inl (Or.inr hx)
      · exact Or.inl (Or.inl rfl)
      · exact Or.inr ⟨hx, not_or.mpr ⟨Ne.symm hid, hlisted⟩⟩
    · intro h
      rcases h with (rfl | hx) | ⟨hx, hlisted⟩
      · exact Or.inr ⟨Or.inl rfl, hitem⟩
      · exact Or.inl hx
      · obtain ⟨hid, hlisted⟩ := not_or.mp hlisted
        exact Or.inr ⟨Or.inr ⟨hx, Ne.symm hid⟩, hlisted⟩

theorem byId_nodup (items : List RunSummary) : ((byId items).map RunSummary.sendId).Nodup :=
  foldl_nodup items List.nodup_nil

/-- The fresh runs and those of the kept ones that are not among them. -/
theorem mem_byId {kept fresh : List RunSummary} (hkept : (kept.map RunSummary.sendId).Nodup)
    (hfresh : (fresh.map RunSummary.sendId).Nodup) :
    x ∈ byId (kept ++ fresh) ↔ x ∈ fresh ∨ (x ∈ kept ∧ ¬Listed fresh x) := by
  unfold byId
  rw [List.foldl_append, mem_foldl hfresh, mem_foldl hkept]
  simp

end Keys

section Order

/-- What the comparison of texts promises, and that it tells the identifiers apart. -/
structure Collation (localeCompare : String → String → ℤ) (ids : List String) : Prop where
  antisymm : ∀ a b, localeCompare a b ≤ 0 ↔ 0 ≤ localeCompare b a
  trans : ∀ a b c, localeCompare a b ≤ 0 → localeCompare b c ≤ 0 → localeCompare a c ≤ 0
  separates : ∀ a ∈ ids, ∀ b ∈ ids, localeCompare a b = 0 → a = b

def activityTime (a : RunSummary) : ℚ := a.activityAt.getD a.createdAt

variable {localeCompare : String → String → ℤ} {ids : List String} {a b d : RunSummary}

/-- Latest activity first, then the latest run, then the greatest identifier. -/
theorem newest_iff : Newest localeCompare a b ↔
    activityTime b < activityTime a ∨ (activityTime b = activityTime a ∧
      (b.createdAt < a.createdAt ∨
        (b.createdAt = a.createdAt ∧ localeCompare b.sendId a.sendId ≤ 0))) := by
  have hzero : ∀ x y : ℚ, x - y ≠ 0 → (x - y ≤ 0 ↔ x < y) := by
    intro x y hne
    constructor
    · intro hle
      exact lt_of_le_of_ne (sub_nonpos.mp hle) fun hsame => hne (sub_eq_zero.mpr hsame)
    · exact fun hlt => sub_nonpos.mpr (le_of_lt hlt)
  unfold Newest compareRuns activityTime
  dsimp only
  by_cases hactivity : b.activityAt.getD b.createdAt - a.activityAt.getD a.createdAt ≠ 0
  · rw [if_pos hactivity, hzero _ _ hactivity]
    simp [sub_ne_zero.mp hactivity]
  · rw [if_neg hactivity]
    rw [not_not, sub_eq_zero] at hactivity
    rw [hactivity]
    by_cases hcreated : b.createdAt - a.createdAt ≠ 0
    · rw [if_pos hcreated, hzero _ _ hcreated]
      simp [sub_ne_zero.mp hcreated]
    · rw [if_neg hcreated]
      rw [not_not, sub_eq_zero] at hcreated
      rw [hcreated]
      simp

theorem newest_total (h : Collation localeCompare ids) (a b : RunSummary) :
    Newest localeCompare a b ∨ Newest localeCompare b a := by
  rw [newest_iff, newest_iff]
  rcases lt_trichotomy (activityTime a) (activityTime b) with hactivity | hactivity | hactivity
  · exact Or.inr (Or.inl hactivity)
  · rcases lt_trichotomy a.createdAt b.createdAt with hcreated | hcreated | hcreated
    · exact Or.inr (Or.inr ⟨hactivity, Or.inl hcreated⟩)
    · by_cases hid : localeCompare b.sendId a.sendId ≤ 0
      · exact Or.inl (Or.inr ⟨hactivity.symm, Or.inr ⟨hcreated.symm, hid⟩⟩)
      · have hid' := (h.antisymm a.sendId b.sendId).mpr (by omega)
        exact Or.inr (Or.inr ⟨hactivity, Or.inr ⟨hcreated, hid'⟩⟩)
    · exact Or.inl (Or.inr ⟨hactivity.symm, Or.inl hcreated⟩)
  · exact Or.inl (Or.inl hactivity)

theorem newest_trans (h : Collation localeCompare ids) (hab : Newest localeCompare a b)
    (hbd : Newest localeCompare b d) : Newest localeCompare a d := by
  rw [newest_iff] at hab hbd ⊢
  rcases hab with hab | ⟨hactivity, hab⟩
  · rcases hbd with hbd | ⟨hactivity', -⟩
    · exact Or.inl (lt_trans hbd hab)
    · exact Or.inl (hactivity' ▸ hab)
  rcases hbd with hbd | ⟨hactivity', hbd⟩
  · exact Or.inl (hactivity ▸ hbd)
  refine Or.inr ⟨hactivity'.trans hactivity, ?_⟩
  rcases hab with hab | ⟨hcreated, hab⟩
  · rcases hbd with hbd | ⟨hcreated', -⟩
    · exact Or.inl (lt_trans hbd hab)
    · exact Or.inl (hcreated' ▸ hab)
  rcases hbd with hbd | ⟨hcreated', hbd⟩
  · exact Or.inl (hcreated ▸ hbd)
  · exact Or.inr ⟨hcreated'.trans hcreated, h.trans _ _ _ hbd hab⟩

theorem newest_activity (hab : Newest localeCompare a b) : activityTime b ≤ activityTime a := by
  rcases newest_iff.mp hab with hlt | ⟨heq, -⟩
  · exact le_of_lt hlt
  · exact le_of_eq heq

theorem newest_created (hactivity : activityTime a = activityTime b)
    (hab : Newest localeCompare a b) :
    b.createdAt ≤ a.createdAt := by
  rcases newest_iff.mp hab with hlt | ⟨-, hlt | ⟨heq, -⟩⟩
  · exact absurd hactivity.symm (ne_of_lt hlt)
  · exact le_of_lt hlt
  · exact le_of_eq heq

theorem newest_locale (hactivity : activityTime a = activityTime b)
    (hcreated : a.createdAt = b.createdAt)
    (hab : Newest localeCompare a b) : localeCompare b.sendId a.sendId ≤ 0 := by
  rcases newest_iff.mp hab with hlt | ⟨-, hlt | ⟨-, hle⟩⟩
  · exact absurd hactivity.symm (ne_of_lt hlt)
  · exact absurd hcreated.symm (ne_of_lt hlt)
  · exact hle

/-- Runs that may stand in either order are one. -/
theorem newest_ids (h : Collation localeCompare ids) (ha : a.sendId ∈ ids) (hb : b.sendId ∈ ids)
    (hab : Newest localeCompare a b) (hba : Newest localeCompare b a) : a.sendId = b.sendId := by
  have hactivity : activityTime a = activityTime b :=
    le_antisymm (newest_activity hba) (newest_activity hab)
  have hcreated : a.createdAt = b.createdAt :=
    le_antisymm (newest_created hactivity.symm hba) (newest_created hactivity hab)
  have hright := newest_locale hactivity hcreated hab
  have hleft := newest_locale hactivity.symm hcreated.symm hba
  apply h.separates a.sendId ha b.sendId hb
  have := (h.antisymm b.sendId a.sendId).mp hright
  omega

/-- `a` sorts before `b`. -/
def Before (localeCompare : String → String → ℤ) (a b : RunSummary) : Prop :=
  compareRuns localeCompare a b < 0

theorem before_iff (h : Collation localeCompare ids) :
    Before localeCompare a b ↔ ¬Newest localeCompare b a := by
  have hflip : ∀ x y : ℚ, y - x < 0 ↔ ¬x - y ≤ 0 := by
    intro x y
    rw [sub_neg, sub_nonpos, not_le]
  have hswap : ∀ x y : ℚ, y - x ≠ 0 ↔ x - y ≠ 0 := by
    intro x y
    rw [sub_ne_zero, sub_ne_zero, ne_comm]
  unfold Before Newest compareRuns
  dsimp only
  by_cases hactivity : b.activityAt.getD b.createdAt - a.activityAt.getD a.createdAt ≠ 0
  · rw [if_pos hactivity, if_pos ((hswap _ _).mp hactivity)]
    exact hflip _ _
  · rw [if_neg hactivity, if_neg fun hne => hactivity ((hswap _ _).mpr hne)]
    by_cases hcreated : b.createdAt - a.createdAt ≠ 0
    · rw [if_pos hcreated, if_pos ((hswap _ _).mp hcreated)]
      exact hflip _ _
    · rw [if_neg hcreated, if_neg fun hne => hcreated ((hswap _ _).mpr hne), Int.cast_lt_zero,
        Int.cast_nonpos]
      have := h.antisymm a.sendId b.sendId
      omega

end Order

section Refresh

variable (localeCompare : String → String → ℤ) (existing firstPage : List RunSummary)

/-- The list after a refresh: sorted, every run once, the fresh page whole, and no loaded run
ahead of the page's end that the page has not. -/
structure Refreshed (result : List RunSummary) : Prop where
  sorted : result.Pairwise (Newest localeCompare)
  nodup : (result.map RunSummary.sendId).Nodup
  fresh : ∀ item ∈ firstPage, item ∈ result
  gone : ∀ last, firstPage.getLast? = some last → ∀ x ∈ existing, ¬Listed firstPage x →
    Before localeCompare x last → ¬Listed result x

/-- No loaded run that satisfies the filter is missing from the page ahead of the page's end. -/
def NothingStale (status : ChatListStatus) : Prop :=
  ∀ last, firstPage.getLast? = some last → ∀ x ∈ existing, satisfies status x = true →
    ¬Listed firstPage x → ¬Before localeCompare x last

variable {localeCompare existing firstPage} {ids : List String} {status : ChatListStatus}
  {total pageSize : ℤ}

theorem retained_filter (hmore : pageSize < total) :
    retainedRuns existing total pageSize status = existing.filter (satisfies status) := by
  unfold retainedRuns
  rw [if_neg (by omega)]

def olderRuns (existing firstPage : List RunSummary) (status : ChatListStatus) : List RunSummary :=
  (byId (existing.filter (satisfies status) ++ firstPage)).filter fun x =>
    !firstPage.any fun a => decide (a.sendId = x.sendId)

/-- A loaded run stays when it satisfies the filter and is not on the page. -/
theorem mem_union {x : RunSummary} (hexisting : (existing.map RunSummary.sendId).Nodup)
    (hfirst : (firstPage.map RunSummary.sendId).Nodup) :
    x ∈ byId (existing.filter (satisfies status) ++ firstPage) ↔
      x ∈ firstPage ∨ ((x ∈ existing ∧ satisfies status x = true) ∧ ¬Listed firstPage x) := by
  rw [mem_byId (hexisting.sublist (List.filter_sublist.map _)) hfirst, List.mem_filter]

/-- The older runs are the loaded ones that are not on the page. -/
theorem mem_olderRuns {x : RunSummary} (hexisting : (existing.map RunSummary.sendId).Nodup)
    (hfirst : (firstPage.map RunSummary.sendId).Nodup) : x ∈ olderRuns existing firstPage status ↔
      (x ∈ existing ∧ satisfies status x = true) ∧ ¬Listed firstPage x := by
  have hlisted : (!firstPage.any fun a => decide (a.sendId = x.sendId)) = true ↔
      ¬Listed firstPage x := by
    rw [Bool.not_eq_true', ← Bool.not_eq_true, List.any_eq_true]
    simp only [decide_eq_true_eq]
    rfl
  unfold olderRuns
  rw [List.mem_filter, hlisted, mem_union hexisting hfirst]
  constructor
  · intro h
    obtain ⟨hx | hx, hnew⟩ := h
    · exact absurd ⟨x, hx, rfl⟩ hnew
    · exact hx
  · exact fun h => ⟨Or.inr h, h.2⟩

/-- The page and the kept runs are all runs of the union. -/
theorem union_perm (hexisting : (existing.map RunSummary.sendId).Nodup)
    (hfirst : (firstPage.map RunSummary.sendId).Nodup) :
    (firstPage ++ olderRuns existing firstPage status).Perm
      (byId (existing.filter (satisfies status) ++ firstPage)) := by
  apply (List.perm_ext_iff_of_nodup ?_ (List.Nodup.of_map _ (byId_nodup _))).mpr
  · intro x
    rw [List.mem_append, mem_olderRuns hexisting hfirst, mem_union hexisting hfirst]
  · apply List.nodup_append.mpr
    refine ⟨List.Nodup.of_map _ hfirst, ?_, ?_⟩
    · exact (List.Nodup.of_map _ (byId_nodup _)).sublist List.filter_sublist
    · intro x hx y hy hsame
      exact ((mem_olderRuns hexisting hfirst).mp hy).2 ⟨x, hx, by rw [hsame]⟩

def sortedUnion (localeCompare : String → String → ℤ) (existing firstPage : List RunSummary)
    (status : ChatListStatus) : List RunSummary :=
  (byId (existing.filter (satisfies status) ++ firstPage)).insertionSort (Newest localeCompare)

theorem reconcile_eq (hmore : pageSize < total) :
    reconcileResultPage localeCompare existing firstPage total pageSize status =
      (sortedUnion localeCompare existing firstPage status).take total.toNat := by
  unfold reconcileResultPage sortedUnion
  rw [retained_filter hmore]
  congr 1
  omega

theorem sortedUnion_sorted (h : Collation localeCompare ids) :
    (sortedUnion localeCompare existing firstPage status).Pairwise (Newest localeCompare) := by
  have : Std.Total (Newest localeCompare) := ⟨newest_total h⟩
  have : IsTrans RunSummary (Newest localeCompare) := ⟨fun _ _ _ => newest_trans h⟩
  exact List.pairwise_insertionSort _ _

/-- Sorting leaves the members of the union. -/
theorem mem_sortedUnion {x : RunSummary} (hexisting : (existing.map RunSummary.sendId).Nodup)
    (hfirst : (firstPage.map RunSummary.sendId).Nodup) :
    x ∈ sortedUnion localeCompare existing firstPage status ↔
      x ∈ firstPage ∨ ((x ∈ existing ∧ satisfies status x = true) ∧ ¬Listed firstPage x) := by
  unfold sortedUnion
  rw [List.mem_insertionSort, mem_union hexisting hfirst]

theorem reconcile_sorted (h : Collation localeCompare ids) (hmore : pageSize < total) :
    (reconcileResultPage localeCompare existing firstPage total pageSize status).Pairwise
      (Newest localeCompare) := by
  rw [reconcile_eq hmore]
  exact (sortedUnion_sorted h).sublist (List.take_sublist _ _)

theorem reconcile_nodup (hmore : pageSize < total) :
    ((reconcileResultPage localeCompare existing firstPage total pageSize status).map
      RunSummary.sendId).Nodup := by
  rw [reconcile_eq hmore]
  have hperm := (List.perm_insertionSort (Newest localeCompare)
    (byId (existing.filter (satisfies status) ++ firstPage))).map RunSummary.sendId
  have hnodup := hperm.nodup_iff.mpr (byId_nodup _)
  exact hnodup.sublist ((List.take_sublist _ _).map _)

/-- A run of the page may stand before whatever may stand behind the last one. -/
theorem newest_of_last (h : Collation localeCompare ids)
    (hsorted : firstPage.Pairwise (Newest localeCompare))
    {last item x : RunSummary} (hlast : firstPage.getLast? = some last) (hitem : item ∈ firstPage)
    (hx : Newest localeCompare last x) : Newest localeCompare item x := by
  obtain ⟨init, rfl⟩ := List.getLast?_eq_some_iff.mp hlast
  rcases List.mem_append.mp hitem with hinit | hend
  · exact newest_trans h
      ((List.pairwise_append.mp hsorted).2.2 item hinit last List.mem_cons_self) hx
  · rw [List.mem_singleton.mp hend]
    exact hx

/-- Without stale runs the page comes first, and the kept runs follow. -/
theorem sortedUnion_page
    (h : Collation localeCompare ((existing ++ firstPage).map RunSummary.sendId))
    (hexisting : (existing.map RunSummary.sendId).Nodup)
    (hfirst : (firstPage.map RunSummary.sendId).Nodup)
    (hsorted : firstPage.Pairwise (Newest localeCompare))
    (hstale : NothingStale localeCompare existing firstPage status) :
    sortedUnion localeCompare existing firstPage status =
      firstPage ++ (olderRuns existing firstPage status).insertionSort (Newest localeCompare) := by
  have : Std.Total (Newest localeCompare) := ⟨newest_total h⟩
  have : IsTrans RunSummary (Newest localeCompare) := ⟨fun _ _ _ => newest_trans h⟩
  have hids : ∀ x ∈ byId (existing.filter (satisfies status) ++ firstPage),
      x.sendId ∈ (existing ++ firstPage).map RunSummary.sendId := by
    intro x hx
    apply List.mem_map_of_mem
    rcases (mem_union hexisting hfirst).mp hx with hx | ⟨⟨hx, -⟩, -⟩
    · exact List.mem_append_right _ hx
    · exact List.mem_append_left _ hx
  unfold sortedUnion
  apply sort_unique
  · intro a ha b hb hab hba
    exact List.inj_on_of_nodup_map (byId_nodup _) ha hb
      (newest_ids h (hids a ha) (hids b hb) hab hba)
  · exact ((List.perm_insertionSort _ _).append_left firstPage).trans (union_perm hexisting hfirst)
  · apply List.pairwise_append.mpr
    refine ⟨hsorted, List.pairwise_insertionSort _ _, ?_⟩
    intro item hitem x hx
    obtain ⟨⟨hloaded, hkept⟩, hnew⟩ := (mem_olderRuns hexisting hfirst).mp
      ((List.mem_insertionSort _).mp hx)
    cases hlast : firstPage.getLast? with
    | none =>
      rw [List.getLast?_eq_none_iff] at hlast
      rw [hlast] at hitem
      exact absurd hitem List.not_mem_nil
    | some last =>
      have hafter : Newest localeCompare last x := by
        by_contra hbefore
        exact hstale last hlast x hloaded hkept hnew ((before_iff h).mpr hbefore)
      exact newest_of_last h hsorted hlast hitem hafter

/-- A refresh gives a sorted list with the whole fresh page and nothing that has left it, if and
only if no stale run satisfies the filter. -/
theorem refresh_iff (localeCompare : String → String → ℤ) (existing firstPage : List RunSummary)
    (total pageSize : ℤ) (status : ChatListStatus)
    (h : Collation localeCompare ((existing ++ firstPage).map RunSummary.sendId))
    (hexisting : (existing.map RunSummary.sendId).Nodup)
    (hfirst : (firstPage.map RunSummary.sendId).Nodup)
    (hsorted : firstPage.Pairwise (Newest localeCompare))
    (hsize : (firstPage.length : ℤ) = pageSize)
    (hmore : pageSize < total) :
    Refreshed localeCompare existing firstPage
        (reconcileResultPage localeCompare existing firstPage total pageSize status) ↔
      NothingStale localeCompare existing firstPage status := by
  constructor
  · intro hrefreshed last hlast x hx hkept hnew hbefore
    apply hrefreshed.gone last hlast x hx hnew hbefore
    have hpage := hrefreshed.fresh last (List.mem_of_getLast? hlast)
    have hmem : x ∈ sortedUnion localeCompare existing firstPage status :=
      (mem_sortedUnion hexisting hfirst).mpr (Or.inr ⟨⟨hx, hkept⟩, hnew⟩)
    have hunion : (sortedUnion localeCompare existing firstPage status).Pairwise
        (Newest localeCompare) :=
      sortedUnion_sorted h
    rw [reconcile_eq hmore] at hpage ⊢
    rw [← List.take_append_drop total.toNat (sortedUnion _ _ _ _)] at hmem hunion
    rcases List.mem_append.mp hmem with hshown | hcut
    · exact ⟨x, hshown, rfl⟩
    · have hafter := (List.pairwise_append.mp hunion).2.2 last hpage x hcut
      exact absurd hafter ((before_iff h).mp hbefore)
  · intro hstale
    refine ⟨reconcile_sorted h hmore, reconcile_nodup hmore, ?_, ?_⟩
    · intro item hitem
      rw [reconcile_eq hmore, sortedUnion_page h hexisting hfirst hsorted hstale, List.take_append,
        List.take_of_length_le (by omega)]
      exact List.mem_append_left _ hitem
    · intro last hlast x hx hnew hbefore hlisted
      obtain ⟨a, ha, hid⟩ := hlisted
      rw [reconcile_eq hmore] at ha
      rcases (mem_sortedUnion hexisting hfirst).mp (List.mem_of_mem_take ha) with ha
          | ⟨⟨ha, hkept⟩, -⟩
      · exact hnew ⟨a, ha, hid⟩
      · obtain rfl : a = x := List.inj_on_of_nodup_map hexisting ha hx hid
        exact hstale last hlast a hx hkept hnew hbefore

end Refresh

section Examples

/-- The order of the code points, which is that of the collation on digits, small letters and
hyphens. -/
def codeOrder (a b : String) : ℤ := if a = b then 0 else if a ≤ b then -1 else 1

theorem codeOrder_le {a b : String} : codeOrder a b ≤ 0 ↔ a ≤ b := by
  unfold codeOrder
  by_cases hsame : a = b
  · rw [hsame]
    simp
  · by_cases hle : a ≤ b
    · simp [hsame, hle]
    · simp [hsame, hle]

theorem codeOrder_ge {a b : String} : 0 ≤ codeOrder a b ↔ b ≤ a := by
  unfold codeOrder
  by_cases hsame : a = b
  · rw [hsame]
    simp
  · by_cases hle : a ≤ b
    · have hnot : ¬b ≤ a := fun hge => hsame (String.le_antisymm hle hge)
      simp [hsame, hle, hnot]
    · have hge : b ≤ a := (String.le_total a b).resolve_left hle
      simp [hsame, hle, hge]

theorem codeOrder_collation (ids : List String) : Collation codeOrder ids where
  antisymm _ _ := codeOrder_le.trans codeOrder_ge.symm
  trans _ _ _ hab hbd :=
    codeOrder_le.mpr (String.le_trans (codeOrder_le.mp hab) (codeOrder_le.mp hbd))
  separates _ _ _ _ hzero :=
    String.le_antisymm (codeOrder_le.mp (le_of_eq hzero)) (codeOrder_ge.mp (le_of_eq hzero.symm))

def queuedRun (sendId : String) (createdAt : ℚ) : RunSummary where
  sendId := sendId
  status := .queued
  createdAt := createdAt
  updatedAt := createdAt

/-- An older run stays behind the page. -/
theorem refresh_iff_older :
    Refreshed codeOrder [queuedRun "manual-2" 2, queuedRun "manual-1" 1] [queuedRun "manual-2" 2]
        (reconcileResultPage codeOrder [queuedRun "manual-2" 2, queuedRun "manual-1" 1]
          [queuedRun "manual-2" 2] 2 1 (.only .queued)) ↔
      NothingStale codeOrder [queuedRun "manual-2" 2, queuedRun "manual-1" 1]
        [queuedRun "manual-2" 2]
        (.only .queued) :=
  refresh_iff codeOrder _ _ 2 1 _ (codeOrder_collation _) (by decide) (by decide)
    (List.pairwise_singleton _ _) rfl (by decide)

/-- A run that was queued when it was loaded and is queued no more stands ahead of the page. -/
theorem completed_run_returns :
    ¬∀ (localeCompare : String → String → ℤ) (existing firstPage : List RunSummary)
      (total pageSize : ℤ) (status : ChatListStatus),
      Collation localeCompare ((existing ++ firstPage).map RunSummary.sendId) →
      (existing.map RunSummary.sendId).Nodup → (firstPage.map RunSummary.sendId).Nodup →
      firstPage.Pairwise (Newest localeCompare) → (firstPage.length : ℤ) = pageSize →
      pageSize < total → Refreshed localeCompare existing firstPage
        (reconcileResultPage localeCompare existing firstPage total pageSize status) := by
  intro h
  have hrefreshed := h codeOrder
    [queuedRun "manual-3" 3, queuedRun "manual-2" 2, queuedRun "manual-1" 1]
    [queuedRun "manual-2" 2]
    2 1 (.only .queued) (codeOrder_collation _) (by decide) (by decide)
      (List.pairwise_singleton _ _)
    rfl (by decide)
  refine hrefreshed.gone _ rfl (queuedRun "manual-3" 3) List.mem_cons_self ?_ ?_ ?_
  · intro hlisted
    obtain ⟨a, ha, hid⟩ := hlisted
    rw [List.mem_singleton.mp ha] at hid
    exact absurd hid (by decide)
  · unfold Before
    decide +kernel
  · refine ⟨queuedRun "manual-3" 3, ?_, rfl⟩
    decide +kernel

end Examples

end Prompta.ResultPages
