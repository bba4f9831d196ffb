import Mathlib.Algebra.Order.Floor.Ring
import Mathlib.Data.Rat.Floor
import Prompta.Service

/-!
The list of local runs and the marks of the sidebar. Which runs need attention is decided
twice, in the query of a page and for the marks. The query looks at the newest reply row of
a chat, the marks at its newest turn; a merge receipt is a row and no turn.
-/
namespace Prompta.AttentionMarkers

open Tables Texts DisplayBlocks Schema ResponseStore ReplyStore

def liveObservationSeconds : Time := 15 * 60

def seenLive (observedAt now : Time) : Bool :=
  decide (0 < observedAt) && decide (observedAt ≤ now) &&
    decide (now < observedAt + liveObservationSeconds)

/-- `visible_reply_status` of an original turn. -/
def visibleResultStatus (status : ResultStatus) (observedAt now : Time) : ResultStatus :=
  match status with
  | .interrupted => if seenLive observedAt now then .generating else status
  | .outcomeUnknown => if seenLive observedAt now then .generating else status
  | .unavailable => if seenLive observedAt now then .generating else status
  | _ => status

def visibleOriginalStatus (status : ResultStatus) (observedAt now : Time) : ResultStatus :=
  match status with
  | .interrupted => if seenLive observedAt now then .generating else status
  | .unavailable => if seenLive observedAt now then .generating else status
  | _ => status

section Page

variable (c : Chats) (now : Time)

/-- The time of the last turn that the user asked for. -/
def activityAt (r : ResultRow) : Time :=
  (((branchRows c r.sendId).filter ReplyRow.queuedByUser).map ReplyRow.createdAt).foldl max
  r.createdAt

/-- The boundaries of `str.splitlines`. -/
def isLineBreak (ch : Char) : Bool :=
  ch.toNat ∈ [0x0a, 0x0b, 0x0c, 0x0d, 0x1c, 0x1d, 0x1e, 0x85, 0x2028, 0x2029]

structure Summary where
  sendId : String
  jobName : String
  title : Text
  status : ResultStatus
  preview : Text
  hasResponse : Bool
  createdAt : Time
  activityAt : Time
  updatedAt : Time
  finishedAt : Time
  deriving DecidableEq

def summary (r : ResultRow) : Summary where
  sendId := r.sendId
  jobName := r.jobName
  title :=
    if r.jobName = "" then (((r.userText.take 180).takeWhile fun ch => !isLineBreak ch).take 100)
    else r.jobName.toList
  status := visibleOriginalStatus r.status r.liveObservedAt now
  preview := if r.assistantText = [] then r.userText.take 180 else r.assistantText.take 180
  hasResponse := decide (r.assistantText ≠ [])
  createdAt := r.createdAt
  activityAt := activityAt c r
  updatedAt := r.updatedAt
  finishedAt := r.finishedAt

/-- `strftime('%s', 'now')` gives whole seconds. -/
def liveCutoff : Time := (⌊now⌋ : ℚ) - liveObservationSeconds

def attentionFilter (r : ResultRow) : Bool :=
  match (branchRows c r.sendId).getLast? with
  | none =>
    (decide (r.status = .interrupted) || decide (r.status = .unavailable) ||
      decide (r.status = .outcomeUnknown)) && decide (r.liveObservedAt ≤ liveCutoff now)
  | some latest =>
    decide (latest.status = .preflightFailed) ||
      ((decide (latest.status = .outcomeUnknown) || decide (latest.status = .interrupted)) &&
        decide (latest.liveObservedAt ≤ liveCutoff now))

inductive PageStatus
  | any
  | only (status : ResultStatus)
  | needsAttention
  deriving DecidableEq

def statusFilter (status : PageStatus) (r : ResultRow) : Bool :=
  match status with
  | .any => true
  | .only status => decide (r.status = status)
  | .needsAttention => attentionFilter c now r

def lowerAscii (t : Text) : Text := t.map Char.toLower

/-- The escaped pattern of `ILIKE` finds the query anywhere in a text. -/
def queryFilter (query : Text) (r : ResultRow) : Bool :=
  [r.jobName.toList, r.userText, r.assistantText].any fun t =>
    decide (lowerAscii query <:+: lowerAscii t)

inductive PageError
  | invalidStatus
  | invalidPagination
  deriving DecidableEq, Repr

def PageError.message : PageError → String
  | .invalidStatus => "Invalid result status"
  | .invalidPagination => "Invalid results pagination or search"

structure ResultsPage where
  items : List Summary
  total : ℕ
  limit : ℕ
  offset : ℕ

def pageOrder (a b : ResultRow) : Prop :=
  activityAt c b < activityAt c a ∨ (activityAt c b = activityAt c a ∧
    (b.createdAt < a.createdAt ∨ (b.createdAt = a.createdAt ∧ b.sendId ≤ a.sendId)))

instance : DecidableRel (pageOrder c) := fun a b =>
  inferInstanceAs (Decidable (activityAt c b < activityAt c a ∨ (activityAt c b = activityAt c a ∧
    (b.createdAt < a.createdAt ∨ (b.createdAt = a.createdAt ∧ b.sendId ≤ a.sendId)))))

def selectedRows (query : Text) (status : PageStatus) : List ResultRow :=
  (c.results.rows.filter fun r => statusFilter c now status r &&
    (decide (query = []) || queryFilter query r)).insertionSort (pageOrder c)

def page (limit offset : ℕ) (query : Text) (status : PageStatus) : Except PageError ResultsPage :=
  if status = .only .submitted then .error .invalidStatus
  else if 200 < query.length ∨ ¬ (1 ≤ limit ∧ limit ≤ 100) ∨ 100000 < offset then
    .error .invalidPagination
  else
    .ok
      { items := (((selectedRows c now query status).drop offset).take limit).map (summary c now)
        total := (selectedRows c now query status).length
        limit, offset }

/-- The run is on a page of the runs that need attention. -/
def OnAttentionPage (sendId : String) : Prop :=
  ∃ limit offset results, page c now limit offset [] .needsAttention = .ok results ∧
    ∃ item ∈ results.items, item.sendId = sendId

end Page

section Markers

variable (lib : Stdlib) (c : Chats) (now : Time)

/-- What `annotate_response_markers` adds to a summary. -/
structure ResponseMarker where
  lastReplyRevision : String
  lastReplyAt : Time
  queuedFollowup : Bool
  status : ResultStatus
  needsAttention : Bool
  deriving DecidableEq

def answerRevision (kind identity : String) (text : Text) : String :=
  lib.sha256 (kind.toList ++ Char.ofNat 0 :: identity.toList ++ Char.ofNat 0 :: text)

/-- The revision and the time of the last completed answer. -/
def answerMarker (r : ResultRow) : String × Time :=
  match ((branchRows c r.sendId).filter fun reply =>
      decide (reply.status = .completed) && decide (reply.assistantText ≠ [])).getLast? with
  | some reply => (answerRevision lib "manual" reply.replyId reply.assistantText, reply.updatedAt)
  | none =>
    if r.status = .completed ∧ r.assistantText ≠ [] then
      (answerRevision lib "initial" r.sendId r.assistantText, r.finishedAt)
    else ("", 0)

/-- The status of the sidebar for a turn, where it has one. -/
def turnStatus : ReplyStatus → Option ResultStatus
  | .queued => some .queued
  | .prepared => some .queued
  | .dispatching => some .accepted
  | .accepted => some .accepted
  | .generating => some .generating
  | .completed => some .completed
  | .interrupted => some .interrupted
  | .outcomeUnknown => some .outcomeUnknown
  | .stopped => some .stopped
  | .preflightFailed => none
  | .cancelled => none
  | .merged => none

/-- The newest turn of the chat after the original one. Merge receipts are left out. -/
def latestTurn (sendId : String) : Option ReplyRow :=
  ((branchRows c sendId).filter fun reply => decide (reply.status ≠ .merged)).getLast?

def responseMarker (r : ResultRow) : ResponseMarker :=
  let answer := answerMarker lib c r
  match latestTurn c r.sendId with
  | some latest =>
    let status := visibleReplyStatus latest.status latest.liveObservedAt now
    { lastReplyRevision := answer.1
      lastReplyAt := answer.2
      queuedFollowup := latest.queuedByUser && decide (status = .queued ∨ status = .prepared)
      status := (turnStatus status).getD (visibleOriginalStatus r.status r.liveObservedAt now)
      needsAttention := decide (status = .preflightFailed ∨ status = .outcomeUnknown ∨
        status = .interrupted) }
  | none =>
    let status := visibleResultStatus r.status r.liveObservedAt now
    { lastReplyRevision := answer.1
      lastReplyAt := answer.2
      queuedFollowup := false
      status
      needsAttention := decide (status = .interrupted ∨ status = .unavailable ∨
        status = .outcomeUnknown) }

/-- The newest turn has failed and was not seen live of late. -/
def TurnFailed (r : ResultRow) : Prop :=
  match latestTurn c r.sendId with
  | some latest =>
    latest.status = .preflightFailed ∨
      ((latest.status = .outcomeUnknown ∨ latest.status = .interrupted) ∧
        seenLive latest.liveObservedAt now = false)
  | none =>
    (r.status = .interrupted ∨ r.status = .unavailable ∨ r.status = .outcomeUnknown) ∧
      seenLive r.liveObservedAt now = false

/-- The newest turn of the chat has failed, but its newest reply row is a merge receipt. -/
def MergeHides (r : ResultRow) : Prop :=
  (∃ receipt ∈ (branchRows c r.sendId).getLast?, receipt.status = .merged) ∧ TurnFailed c now r

/-- A turn that was never seen live, by a clock of less than a quarter of an hour. -/
def EarlyClock (r : ResultRow) : Prop :=
  match (branchRows c r.sendId).getLast? with
  | some latest =>
    (latest.status = .outcomeUnknown ∨ latest.status = .interrupted) ∧ latest.liveObservedAt ≤ 0 ∧
      now < latest.liveObservedAt + liveObservationSeconds
  | none =>
    (r.status = .interrupted ∨ r.status = .unavailable ∨ r.status = .outcomeUnknown) ∧
      r.liveObservedAt ≤ 0 ∧ now < r.liveObservedAt + liveObservationSeconds

/-- Every row has been seen live before now, if at all. -/
def ObservedBefore : Prop :=
  (∀ r ∈ c.results.rows, r.liveObservedAt ≤ now) ∧ ∀ r ∈ c.replies.rows, r.liveObservedAt ≤ now

end Markers

theorem seenLive_eq_false_iff {observedAt now : Time} (h : observedAt ≤ now) :
    seenLive observedAt now = false ↔
      observedAt ≤ 0 ∨ observedAt + liveObservationSeconds ≤ now := by
  rw [seenLive, Bool.and_eq_false_iff, Bool.and_eq_false_iff, decide_eq_false_iff_not,
    decide_eq_false_iff_not, decide_eq_false_iff_not, not_lt, not_lt]
  constructor
  · rintro ((h0 | hlate) | hpast)
    · exact Or.inl h0
    · exact absurd h hlate
    · exact Or.inr hpast
  · rintro (h0 | hpast)
    · exact Or.inl (Or.inl h0)
    · exact Or.inr hpast

theorem liveCutoff_int (now : ℤ) : liveCutoff now = now - liveObservationSeconds := by
  rw [liveCutoff, Int.floor_intCast]

/-- What the query takes for stale is not seen live, unless the clock is early. -/
theorem stale_iff {observedAt : Time} {now : ℤ} (h : observedAt ≤ now) :
    observedAt ≤ liveCutoff now ↔ seenLive observedAt now = false ∧
      ¬ (observedAt ≤ 0 ∧ (now : ℚ) < observedAt + liveObservationSeconds) := by
  rw [liveCutoff_int, le_sub_iff_add_le, seenLive_eq_false_iff h]
  constructor
  · intro hpast
    refine ⟨Or.inr hpast, ?_⟩
    rintro ⟨_, hearly⟩
    exact absurd hpast (not_le.mpr hearly)
  · rintro ⟨h0 | hpast, hearly⟩
    · by_contra hlate
      exact hearly ⟨h0, not_le.mp hlate⟩
    · exact hpast

theorem getLast?_filter_of_getLast? {α : Type*} {p : α → Bool} {l : List α} {a : α}
    (h : l.getLast? = some a) (ha : p a = true) : (l.filter p).getLast? = some a := by
  obtain ⟨init, rfl⟩ := List.getLast?_eq_some_iff.mp h
  rw [List.filter_append, List.filter_cons_of_pos ha, List.filter_nil, List.getLast?_concat]

section Agreement

variable (lib : Stdlib) (c : Chats)

/-- The replies that are shown as failed: a live observation hides all but a failed preflight. -/
theorem visibleReply_iff (status : ReplyStatus) (observedAt now : Time) :
    (visibleReplyStatus status observedAt now = .preflightFailed ∨
        visibleReplyStatus status observedAt now = .outcomeUnknown ∨
        visibleReplyStatus status observedAt now = .interrupted) ↔
      status = .preflightFailed ∨ ((status = .outcomeUnknown ∨ status = .interrupted) ∧
        seenLive observedAt now = false) := by
  have hseen : seenLive observedAt now = true ↔
      0 < observedAt ∧ observedAt ≤ now ∧ now < observedAt + 15 * 60 := by
    rw [seenLive, Bool.and_eq_true, Bool.and_eq_true, decide_eq_true_eq, decide_eq_true_eq,
      decide_eq_true_eq, and_assoc, liveObservationSeconds]
  by_cases hlive : seenLive observedAt now = true
  · have hlive' := hseen.mp hlive
    cases status <;> simp [visibleReplyStatus, hlive, hlive']
  · have hlive' : ¬ (0 < observedAt ∧ observedAt ≤ now ∧ now < observedAt + 15 * 60) :=
      fun h => hlive (hseen.mpr h)
    rw [Bool.not_eq_true] at hlive
    cases status <;> simp [visibleReplyStatus, if_neg hlive', hlive]

/-- The first turns that are shown as failed: a live observation hides every failure. -/
theorem visibleResult_iff (status : ResultStatus) (observedAt now : Time) :
    (visibleResultStatus status observedAt now = .interrupted ∨
        visibleResultStatus status observedAt now = .unavailable ∨
        visibleResultStatus status observedAt now = .outcomeUnknown) ↔
      (status = .interrupted ∨ status = .unavailable ∨ status = .outcomeUnknown) ∧
        seenLive observedAt now = false := by
  by_cases hlive : seenLive observedAt now = true
  · cases status <;> simp [visibleResultStatus, hlive]
  · rw [Bool.not_eq_true] at hlive
    cases status <;> simp [visibleResultStatus, hlive]

/-- The mark tells whether the newest turn has failed. -/
theorem needsAttention_iff (now : Time) (r : ResultRow) :
    (responseMarker lib c now r).needsAttention = true ↔ TurnFailed c now r := by
  unfold responseMarker TurnFailed
  cases latestTurn c r.sendId with
  | some latest =>
    dsimp only
    rw [decide_eq_true_eq]
    exact visibleReply_iff latest.status latest.liveObservedAt now
  | none =>
    dsimp only
    rw [decide_eq_true_eq]
    exact visibleResult_iff r.status r.liveObservedAt now

theorem seenLive_of_unseen {observedAt : Time} (now : Time) (h : observedAt ≤ 0) :
    seenLive observedAt now = false := by
  have hnot : ¬ 0 < observedAt := not_lt.mpr h
  simp [seenLive, hnot]

theorem latestTurn_eq_none {sendId : String} (h : (branchRows c sendId).getLast? = none) :
    latestTurn c sendId = none := by
  rw [latestTurn, List.getLast?_eq_none_iff.mp h]
  rfl

/-- A turn that was never seen live counts as failed whatever the clock. -/
theorem EarlyClock.failed {c : Chats} {now : Time} {r : ResultRow} (h : EarlyClock c now r) :
    TurnFailed c now r := by
  unfold EarlyClock at h
  cases hnewest : (branchRows c r.sendId).getLast? with
  | none =>
    rw [hnewest] at h
    obtain ⟨hstatus, hunseen, _⟩ := h
    rw [TurnFailed, latestTurn_eq_none c hnewest]
    exact ⟨hstatus, seenLive_of_unseen now hunseen⟩
  | some newest =>
    rw [hnewest] at h
    obtain ⟨hstatus, hunseen, _⟩ := h
    have hturn : newest.status ≠ .merged := by
      intro hmerged
      rw [hmerged] at hstatus
      exact hstatus.elim (fun h => nomatch h) (fun h => nomatch h)
    rw [TurnFailed, latestTurn, getLast?_filter_of_getLast? hnewest (decide_eq_true hturn)]
    exact Or.inr ⟨hstatus, seenLive_of_unseen now hunseen⟩

/-- The query finds the failed turns that no merge receipt hides and no early clock excuses. -/
theorem attentionFilter_iff {now : ℤ} (hlive : ObservedBefore c now) {r : ResultRow}
    (hr : r ∈ c.results.rows) :
    attentionFilter c now r = true ↔
      TurnFailed c now r ∧ ¬ MergeHides c now r ∧ ¬ EarlyClock c now r := by
  unfold attentionFilter EarlyClock MergeHides
  cases hnewest : (branchRows c r.sendId).getLast? with
  | none =>
    have hturn := latestTurn_eq_none c hnewest
    have hstale := stale_iff (hlive.1 r hr)
    simp only [TurnFailed, hturn, Bool.and_eq_true, Bool.or_eq_true, decide_eq_true_eq, hstale,
      or_assoc]
    constructor
    · rintro ⟨hstatus, hseen, hearly⟩
      refine ⟨⟨hstatus, hseen⟩, ?_, fun h => hearly h.2⟩
      rintro ⟨⟨_, hnone, _⟩, _⟩
      exact nomatch hnone
    · rintro ⟨⟨hstatus, hseen⟩, _, hearly⟩
      exact ⟨hstatus, hseen, fun h => hearly ⟨hstatus, h⟩⟩
  | some newest =>
    have hmem : newest ∈ c.replies.rows := by
      have h := List.mem_of_getLast? hnewest
      rw [branchRows, List.mem_insertionSort] at h
      exact List.mem_of_mem_filter h
    have hstale := stale_iff (hlive.2 newest hmem)
    by_cases hmerged : newest.status = .merged
    · simp only [hmerged, reduceCtorEq, decide_false, Bool.or_self, Bool.false_and,
        Bool.false_eq_true, false_iff]
      rintro ⟨hfailed, hhides, _⟩
      exact hhides ⟨⟨newest, rfl, hmerged⟩, hfailed⟩
    · have hturn : latestTurn c r.sendId = some newest :=
        getLast?_filter_of_getLast? hnewest (decide_eq_true hmerged)
      simp only [TurnFailed, hturn, Bool.and_eq_true, Bool.or_eq_true, decide_eq_true_eq, hstale]
      constructor
      · rintro (hpreflight | ⟨hstatus, hseen, hearly⟩)
        · refine ⟨Or.inl hpreflight, ?_, ?_⟩
          · rintro ⟨⟨receipt, hreceipt, hthis⟩, _⟩
            obtain rfl := Option.some.inj hreceipt
            exact hmerged hthis
          · rintro ⟨hstatus | hstatus, _⟩
            · rw [hpreflight] at hstatus
              cases hstatus
            · rw [hpreflight] at hstatus
              cases hstatus
        · refine ⟨Or.inr ⟨hstatus, hseen⟩, ?_, fun h => hearly h.2⟩
          rintro ⟨⟨receipt, hreceipt, hthis⟩, _⟩
          obtain rfl := Option.some.inj hreceipt
          exact hmerged hthis
      · rintro ⟨hpreflight | ⟨hstatus, hseen⟩, _, hearly⟩
        · exact Or.inl hpreflight
        · exact Or.inr ⟨hstatus, hseen, fun h => hearly ⟨hstatus, h⟩⟩

/-- The rows of one page. -/
theorem mem_window {α : Type*} {l : List α} {a : α} (limit offset : ℕ) :
    a ∈ (l.drop offset).take limit ↔ ∃ i, offset ≤ i ∧ i < offset + limit ∧ l[i]? = some a := by
  rw [List.mem_iff_getElem?]
  constructor
  · rintro ⟨j, hj⟩
    rw [List.getElem?_take] at hj
    split at hj
    · rw [List.getElem?_drop] at hj
      exact ⟨offset + j, by omega, by omega, hj⟩
    · cases hj
  · rintro ⟨i, hle, hlt, hi⟩
    refine ⟨i - offset, ?_⟩
    rw [List.getElem?_take, if_pos (by omega), List.getElem?_drop,
      show offset + (i - offset) = i by omega]
    exact hi

/-- The pages show the first 100100 of the selected rows. -/
theorem onAttentionPage_iff (now : Time) (sendId : String) :
    OnAttentionPage c now sendId ↔ ∃ i r, i < 100100 ∧
      (selectedRows c now [] .needsAttention)[i]? = some r ∧ r.sendId = sendId := by
  constructor
  · rintro ⟨limit, offset, results, hpage, item, hitem, hid⟩
    unfold page at hpage
    rw [if_neg (fun h => nomatch h)] at hpage
    split at hpage
    · cases hpage
    · rename_i hbounds
      rw [not_or, not_or, not_not] at hbounds
      cases hpage
      obtain ⟨r, hr, rfl⟩ := List.mem_map.mp hitem
      obtain ⟨i, _, hlt, hi⟩ := (mem_window limit offset).mp hr
      exact ⟨i, r, by omega, hi, hid⟩
  · rintro ⟨i, r, hlt, hi, rfl⟩
    have hbounds : ¬ (200 < ([] : Text).length ∨ ¬ (1 ≤ 100 ∧ 100 ≤ 100) ∨
        100000 < i / 100 * 100) := by
      simp only [List.length_nil]
      omega
    let rows := selectedRows c now [] .needsAttention
    let window := (rows.drop (i / 100 * 100)).take 100
    refine ⟨100, i / 100 * 100, ⟨window.map (summary c now), rows.length, 100, i / 100 * 100⟩, ?_,
      summary c now r, ?_, rfl⟩
    · unfold page
      rw [if_neg (fun h => nomatch h), if_neg hbounds]
    · refine List.mem_map_of_mem ?_
      exact (mem_window 100 (i / 100 * 100)).mpr ⟨i, by omega, by omega, hi⟩

theorem mem_selectedRows (now : Time) (r : ResultRow) :
    r ∈ selectedRows c now [] .needsAttention ↔
      r ∈ c.results.rows ∧ attentionFilter c now r = true := by
  rw [selectedRows, List.mem_insertionSort, List.mem_filter]
  simp [statusFilter]

/-- A run of the table is on a page of its own row only. -/
theorem onAttentionPage_row {now : Time} {r : ResultRow} (hr : r ∈ c.results.rows) :
    OnAttentionPage c now r.sendId ↔
      ∃ i, i < 100100 ∧ (selectedRows c now [] .needsAttention)[i]? = some r := by
  rw [onAttentionPage_iff]
  constructor
  · rintro ⟨i, other, hlt, hi, hid⟩
    have hother : other ∈ c.results.rows :=
      ((mem_selectedRows c now other).mp (List.mem_of_getElem? hi)).1
    have hsame : other = r := by
      have hfound := Table.lookup_of_mem hother
      rw [hid, Table.lookup_of_mem hr] at hfound
      exact (Option.some.inj hfound).symm
    exact ⟨i, hlt, hsame ▸ hi⟩
  · rintro ⟨i, hlt, hi⟩
    exact ⟨i, r, hlt, hi, rfl⟩

theorem selectedRows_nodup (now : Time) : (selectedRows c now [] .needsAttention).Nodup := by
  rw [selectedRows, (List.perm_insertionSort _ _).nodup_iff]
  exact (List.Nodup.of_map _ c.results.nodup).filter _

/-- The runs of the attention pages are the marked ones exactly when no merge receipt hides a
failed turn, no clock is too early, and the pages reach the last run. -/
theorem attention_agrees_iff (now : ℤ) (hlive : ObservedBefore c now) :
    (∀ r ∈ c.results.rows, OnAttentionPage c now r.sendId ↔
        (responseMarker lib c now r).needsAttention = true) ↔
      (∀ r ∈ c.results.rows, ¬ MergeHides c now r ∧ ¬ EarlyClock c now r) ∧
        (selectedRows c now [] .needsAttention).length ≤ 100100 := by
  constructor
  · intro hagree
    constructor
    · intro r hr
      by_contra hexcused
      have hnot : ¬ attentionFilter c now r = true := by
        rw [attentionFilter_iff c hlive hr]
        exact fun h => hexcused h.2
      have hfailed : TurnFailed c now r := by
        rcases not_and_or.mp hexcused with hhides | hearly
        · exact (not_not.mp hhides).2
        · exact (not_not.mp hearly).failed
      have hpage := (hagree r hr).mpr ((needsAttention_iff lib c now r).mpr hfailed)
      obtain ⟨i, _, hi⟩ := (onAttentionPage_row c hr).mp hpage
      exact hnot ((mem_selectedRows c now r).mp (List.mem_of_getElem? hi)).2
    · by_contra hlong
      have hlast : 100100 < (selectedRows c now [] .needsAttention).length := by omega
      have hi := List.getElem?_eq_getElem hlast
      obtain ⟨hr, hfilter⟩ := (mem_selectedRows c now _).mp (List.getElem_mem hlast)
      have hmark := (needsAttention_iff lib c now _).mpr
        ((attentionFilter_iff c hlive hr).mp hfilter).1
      obtain ⟨j, hj, hrow⟩ := (onAttentionPage_row c hr).mp ((hagree _ hr).mpr hmark)
      have hsame := (List.getElem?_inj hlast (selectedRows_nodup c now)).mp (hi.trans hrow.symm)
      omega
  · rintro ⟨hclear, hlength⟩ r hr
    rw [onAttentionPage_row c hr, needsAttention_iff]
    constructor
    · rintro ⟨i, _, hi⟩
      have hfilter := ((mem_selectedRows c now r).mp (List.mem_of_getElem? hi)).2
      exact ((attentionFilter_iff c hlive hr).mp hfilter).1
    · intro hfailed
      have hfilter := (attentionFilter_iff c hlive hr).mpr ⟨hfailed, hclear r hr⟩
      obtain ⟨i, hlt, hi⟩ := List.getElem_of_mem ((mem_selectedRows c now r).mpr ⟨hr, hfilter⟩)
      exact ⟨i, by omega, by rw [List.getElem?_eq_getElem hlt, hi]⟩

end Agreement

section Run

open Service Runs

def reached (run : List Call) : Chats := (final (step plainLib) Store.empty run).chats

/-- A first prompt fails for good, with or without a follow-up that was merged into it. -/
def failedPrompt (followups : List Call) : List Call :=
  ⟨.queue (.enqueue ⟨"manual-1", ['h', 'i'], "", [], false, false⟩ true), 10⟩ :: followups ++
    [⟨.queue (.claimNext "worker-1" 30 false none fun _ => true), 13⟩,
      ⟨.queue (.failClaim "manual-1" "worker-1" .deadLettered "rejected" true), 14⟩]

def mergedFollowup : List Call :=
  [⟨.reply (.queueFollowup "manual-1" "followup-00000001" ['y', 'o'] true), 11⟩]

instance (c : Chats) (now : Time) : Decidable (ObservedBefore c now) :=
  inferInstanceAs (Decidable ((∀ r ∈ c.results.rows, r.liveObservedAt ≤ now) ∧
    ∀ r ∈ c.replies.rows, r.liveObservedAt ≤ now))

theorem attention_agrees_failed :
    ∃ r ∈ (reached (failedPrompt [])).results.rows,
      (responseMarker plainLib (reached (failedPrompt [])) (2000 : ℤ) r).needsAttention = true ∧
        OnAttentionPage (reached (failedPrompt [])) (2000 : ℤ) r.sendId := by
  have hlive : ObservedBefore (reached (failedPrompt [])) (2000 : ℤ) := by decide +kernel
  have hfound : ∀ r ∈ (reached (failedPrompt [])).results.rows,
      attentionFilter (reached (failedPrompt [])) (2000 : ℤ) r = true := by decide +kernel
  have hagree := (attention_agrees_iff plainLib (reached (failedPrompt [])) 2000 hlive).mpr
    ⟨fun r hr => ((attentionFilter_iff _ hlive hr).mp (hfound r hr)).2, by decide +kernel⟩
  have hmarked : (reached (failedPrompt [])).results.rows.any (fun r =>
      (responseMarker plainLib (reached (failedPrompt [])) (2000 : ℤ) r).needsAttention) =
      true := by
    decide +kernel
  obtain ⟨r, hr, hmark⟩ := List.any_eq_true.mp hmarked
  exact ⟨r, hr, hmark, (hagree r hr).mpr hmark⟩

/-- A merged follow-up takes a failed prompt off the attention pages, and leaves its mark. -/
theorem merge_hides_failure :
    ObservedBefore (reached (failedPrompt mergedFollowup)) (2000 : ℤ) ∧
      ∃ r ∈ (reached (failedPrompt mergedFollowup)).results.rows,
        (responseMarker plainLib (reached (failedPrompt mergedFollowup))
          (2000 : ℤ) r).needsAttention =
          true ∧
        ¬ OnAttentionPage (reached (failedPrompt mergedFollowup)) (2000 : ℤ) r.sendId := by
  refine ⟨by decide +kernel, ?_⟩
  have hrow : (reached (failedPrompt mergedFollowup)).results.rows.any (fun r =>
      (responseMarker plainLib (reached (failedPrompt mergedFollowup))
        (2000 : ℤ) r).needsAttention &&
        !attentionFilter (reached (failedPrompt mergedFollowup)) (2000 : ℤ) r) = true := by
    decide +kernel
  obtain ⟨r, hr, hmark⟩ := List.any_eq_true.mp hrow
  rw [Bool.and_eq_true, Bool.not_eq_true'] at hmark
  refine ⟨r, hr, hmark.1, ?_⟩
  intro hpage
  obtain ⟨i, _, hi⟩ := (onAttentionPage_row _ hr).mp hpage
  have hfound := ((mem_selectedRows _ _ r).mp (List.mem_of_getElem? hi)).2
  rw [hmark.2] at hfound
  exact Bool.noConfusion hfound

end Run

end Prompta.AttentionMarkers
