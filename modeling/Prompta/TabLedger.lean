import Prompta.Runs
import Prompta.Tables
import Prompta.Texts

/-!
The ledger of owned browser tabs. Every process reads and writes it in transactions of
its own; the claim of an expired tab keeps its transaction open while the tab is closed,
and until it ends every other write finds the ledger locked. A recorded tab is a row of
the ledger; its life ends when the row is deleted.
-/
namespace Prompta.TabLedger

open Runs Tables Texts

structure OwnedTab where
  targetId : String
  openedAt : Time
  lastActivityAt : Time
  deriving DecidableEq

abbrev Tabs := Table OwnedTab String OwnedTab.targetId

def maxOwnedTabAge : Time := 15 * 60

/-- The open transaction of `claim_expired_tab`: whether it yielded `mark_closed`, and
whether that was called. -/
structure Claim where
  process : ℕ
  targetId : String
  cutoff : Time
  expired : Bool
  closed : Bool

/-- The committed rows, none before the file exists, and the claim that locks them. -/
structure Ledger where
  tabs : Option Tabs
  claim : Option Claim

inductive Operation
  | recordOwnedTab (targetId : String) (openedAt : Time)
  | touchOwnedTab (targetId : String) (now : Time)
  | forgetOwnedTabs (targetIds : List String)
  | claimExpiredTab (targetId : String) (cutoff : Time)
  | markClosed
  | commit
  | rollback

structure Call where
  process : ℕ
  operation : Operation

/-- What the caller sees: a locked ledger raises, and `idle` is a call that no process
can make. -/
inductive Output
  | done
  | touched (renewed : Bool)
  | claimed (markClosed : Bool)
  | locked
  | idle
  deriving DecidableEq

def Ledger.entry (s : Ledger) (targetId : String) : Option OwnedTab :=
  s.tabs.bind fun tabs => tabs.lookup targetId

def keepEarlier (openedAt : Time) (r : OwnedTab) : OwnedTab :=
  { r with openedAt := min r.openedAt openedAt }

def renew (now : Time) (r : OwnedTab) : OwnedTab :=
  { r with lastActivityAt := now }

theorem keepEarlier_targetId (openedAt : Time) (r : OwnedTab) :
    (keepEarlier openedAt r).targetId = r.targetId := rfl

theorem renew_targetId (now : Time) (r : OwnedTab) : (renew now r).targetId = r.targetId := rfl

/-- The insertion with its `ON CONFLICT` clause: a known tab keeps its activity. -/
def recordTab (tabs : Tabs) (targetId : String) (openedAt : Time) : Tabs :=
  match tabs.lookup targetId with
  | some _ =>
    tabs.updateAt targetId (fun _ => true) (keepEarlier openedAt) (keepEarlier_targetId openedAt)
  | none => tabs.insertNew ⟨targetId, openedAt, openedAt⟩

/-- An unexpired tab whose activity is not later than `now`. -/
def renewable (now : Time) (r : OwnedTab) : Bool :=
  decide (r.lastActivityAt ≤ now) && decide (now - maxOwnedTabAge < r.lastActivityAt)

def touchTab (tabs : Tabs) (targetId : String) (now : Time) : Tabs × Bool :=
  (tabs.updateAt targetId (renewable now) (renew now) (renew_targetId now),
    tabs.hits targetId (renewable now))

def isExpired (cutoff : Time) (r : OwnedTab) : Bool := decide (r.lastActivityAt ≤ cutoff)

/-- The rows after the transaction of a claim is committed. -/
def Claim.commit (c : Claim) (tabs : Tabs) : Tabs :=
  if c.closed then tabs.delete fun r => decide (r.targetId = c.targetId) && isExpired c.cutoff r
  else tabs

def unlockedStep (tabs : Option Tabs) (process : ℕ) : Operation → Ledger × Output
  | .recordOwnedTab targetId openedAt =>
    (⟨some (recordTab (tabs.getD Table.empty) targetId openedAt), none⟩, .done)
  | .touchOwnedTab targetId now =>
    match tabs with
    | some rows => (⟨some (touchTab rows targetId now).1, none⟩,
      .touched (touchTab rows targetId now).2)
    | none => (⟨none, none⟩, .touched false)
  | .forgetOwnedTabs targetIds =>
    (⟨tabs.map fun rows => rows.delete fun r => decide (r.targetId ∈ targetIds), none⟩, .done)
  | .claimExpiredTab targetId cutoff =>
    match tabs with
    | some rows =>
      let expired := rows.hits targetId (isExpired cutoff)
      (⟨tabs, some ⟨process, targetId, cutoff, expired, false⟩⟩, .claimed expired)
    | none => (⟨none, none⟩, .claimed false)
  | .markClosed => (⟨tabs, none⟩, .idle)
  | .commit => (⟨tabs, none⟩, .idle)
  | .rollback => (⟨tabs, none⟩, .idle)

/-- A call while a claim is open: only its own process can go on with it. -/
def lockedStep (tabs : Option Tabs) (c : Claim) (process : ℕ) : Operation → Ledger × Output
  | .recordOwnedTab _ _ => (⟨tabs, some c⟩, .locked)
  | .touchOwnedTab _ _ => (⟨tabs, some c⟩, .locked)
  | .forgetOwnedTabs targetIds => (⟨tabs, some c⟩, if targetIds = [] then .done else .locked)
  | .claimExpiredTab _ _ => (⟨tabs, some c⟩, .locked)
  | .markClosed =>
    if process = c.process ∧ c.expired = true then (⟨tabs, some { c with closed := true }⟩, .done)
    else (⟨tabs, some c⟩, .idle)
  | .commit =>
    if process = c.process then (⟨tabs.map c.commit, none⟩, .done) else (⟨tabs, some c⟩, .idle)
  | .rollback =>
    if process = c.process then (⟨tabs, none⟩, .done) else (⟨tabs, some c⟩, .idle)

def step (s : Ledger) (call : Call) : Ledger × Output :=
  match s.claim with
  | some c => lockedStep s.tabs c call.process call.operation
  | none => unlockedStep s.tabs call.process call.operation

/-- What one step does to the entry of one tab. -/
inductive EntryStep (s : Ledger) (call : Call) (targetId : String) :
    Option OwnedTab → Option OwnedTab → Prop
  | kept (entry : Option OwnedTab) : EntryStep s call targetId entry entry
  | opened (openedAt : Time) (h : call.operation = .recordOwnedTab targetId openedAt) :
      EntryStep s call targetId none (some ⟨targetId, openedAt, openedAt⟩)
  | recorded (openedAt : Time) (r : OwnedTab)
      (h : call.operation = .recordOwnedTab targetId openedAt) :
      EntryStep s call targetId (some r) (some (keepEarlier openedAt r))
  | renewed (now : Time) (r : OwnedTab) (h : call.operation = .touchOwnedTab targetId now)
      (hrenew : renewable now r = true) : EntryStep s call targetId (some r) (some (renew now r))
  | forgotten (targetIds : List String) (r : OwnedTab)
      (h : call.operation = .forgetOwnedTabs targetIds) :
      EntryStep s call targetId (some r) none
  | closed (c : Claim) (r : OwnedTab) (h : call = ⟨c.process, .commit⟩) (hclaim : s.claim = some c)
      (hclosed : c.closed = true) (htarget : c.targetId = targetId)
      (hexpired : isExpired c.cutoff r = true) : EntryStep s call targetId (some r) none

/-- The entries after a record. -/
theorem lookup_recordTab (tabs : Tabs) (targetId k : String) (openedAt : Time) :
    (recordTab tabs targetId openedAt).lookup k =
      if k = targetId then
        some ((tabs.lookup k).elim (OwnedTab.mk k openedAt openedAt) (keepEarlier openedAt))
      else tabs.lookup k := by
  unfold recordTab
  split_ifs with hk
  · subst hk
    cases hfound : tabs.lookup k with
    | none =>
      have hnew : tabs.lookup (OwnedTab.mk k openedAt openedAt).targetId = none := hfound
      exact Table.lookup_insertNew_self hnew
    | some r =>
      show (tabs.updateAt k _ _ _).lookup k = _
      rw [Table.lookup_updateAt_self, hfound]
      rfl
  · split
    · exact Table.lookup_updateAt_ne tabs targetId k _ _ _ hk
    · exact Table.lookup_insertNew_ne tabs ⟨targetId, openedAt, openedAt⟩ hk

/-- The entries after a touch. -/
theorem lookup_touchTab (tabs : Tabs) (targetId k : String) (now : Time) :
    (touchTab tabs targetId now).1.lookup k =
      if k = targetId then (tabs.lookup k).map fun r => if renewable now r then renew now r else r
      else tabs.lookup k := by
  unfold touchTab
  split_ifs with hk
  · subst hk
    exact Table.lookup_updateAt_self tabs k (renewable now) (renew now) (renew_targetId now)
  · exact Table.lookup_updateAt_ne tabs targetId k (renewable now) (renew now)
      (renew_targetId now) hk

theorem unlocked_entry (s : Ledger) (call : Call) (targetId : String) (hs : s.claim = none) :
    EntryStep s call targetId (s.entry targetId)
      ((unlockedStep s.tabs call.process call.operation).1.entry targetId) := by
  obtain ⟨tabs, claim⟩ := s
  obtain ⟨process, operation⟩ := call
  cases operation with
  | recordOwnedTab k openedAt =>
    have hentry : (Ledger.mk tabs claim).entry targetId =
        (tabs.getD Table.empty).lookup targetId := by
      cases tabs <;> rfl
    have hafter : (unlockedStep tabs process (.recordOwnedTab k openedAt)).1.entry targetId =
        (recordTab (tabs.getD Table.empty) k openedAt).lookup targetId := rfl
    rw [hentry, hafter, lookup_recordTab]
    split_ifs with hk
    · subst hk
      cases (tabs.getD Table.empty).lookup targetId with
      | none => exact EntryStep.opened openedAt rfl
      | some r => exact EntryStep.recorded openedAt r rfl
    · exact EntryStep.kept _
  | touchOwnedTab k now =>
    cases tabs with
    | none => exact EntryStep.kept none
    | some tabs =>
      have hafter : (unlockedStep (some tabs) process (.touchOwnedTab k now)).1.entry targetId =
          (touchTab tabs k now).1.lookup targetId := rfl
      have hentry : (Ledger.mk (some tabs) claim).entry targetId = tabs.lookup targetId := rfl
      rw [hentry, hafter, lookup_touchTab]
      split_ifs with hk
      · subst hk
        cases tabs.lookup targetId with
        | none => exact EntryStep.kept none
        | some r =>
          by_cases hrenew : renewable now r = true
          · rw [Option.map_some, if_pos hrenew]
            exact EntryStep.renewed now r rfl hrenew
          · rw [Option.map_some, if_neg hrenew]
            exact EntryStep.kept (some r)
      · exact EntryStep.kept _
  | forgetOwnedTabs targetIds =>
    cases tabs with
    | none => exact EntryStep.kept none
    | some tabs =>
      have hafter : (unlockedStep (some tabs) process (.forgetOwnedTabs targetIds)).1.entry
          targetId =
          (tabs.delete fun r => decide (r.targetId ∈ targetIds)).lookup targetId := rfl
      have hentry : (Ledger.mk (some tabs) claim).entry targetId = tabs.lookup targetId := rfl
      rw [hentry, hafter, Table.lookup_delete]
      cases tabs.lookup targetId with
      | none => exact EntryStep.kept none
      | some r =>
        rw [Option.filter_some]
        split
        · exact EntryStep.kept (some r)
        · exact EntryStep.forgotten targetIds r rfl
  | claimExpiredTab k cutoff => cases tabs <;> exact EntryStep.kept _
  | markClosed => exact EntryStep.kept _
  | commit => exact EntryStep.kept _
  | rollback => exact EntryStep.kept _

/-- Behind the lock only the commit of the claim changes an entry. -/
theorem locked_entry (s : Ledger) (call : Call) (targetId : String) (c : Claim)
    (hs : s.claim = some c) :
    EntryStep s call targetId (s.entry targetId)
      ((lockedStep s.tabs c call.process call.operation).1.entry targetId) := by
  obtain ⟨tabs, claim⟩ := s
  obtain ⟨process, operation⟩ := call
  cases operation with
  | recordOwnedTab k openedAt => exact EntryStep.kept _
  | touchOwnedTab k now => exact EntryStep.kept _
  | forgetOwnedTabs targetIds => exact EntryStep.kept _
  | claimExpiredTab k cutoff => exact EntryStep.kept _
  | markClosed =>
    simp only [lockedStep]
    split <;> exact EntryStep.kept _
  | rollback =>
    simp only [lockedStep]
    split <;> exact EntryStep.kept _
  | commit =>
    simp only [lockedStep]
    split_ifs with hprocess
    · cases tabs with
      | none => exact EntryStep.kept none
      | some tabs =>
        show EntryStep _ _ targetId (tabs.lookup targetId) ((c.commit tabs).lookup targetId)
        unfold Claim.commit
        split_ifs with hclosed
        · rw [Table.lookup_delete]
          cases hfound : tabs.lookup targetId with
          | none => exact EntryStep.kept none
          | some r =>
            rw [Option.filter_some]
            split_ifs with hkept
            · exact EntryStep.kept (some r)
            · simp only [Bool.not_eq_true', Bool.not_eq_false, Bool.and_eq_true,
                decide_eq_true_eq] at hkept
              refine EntryStep.closed c r (by rw [hprocess]) hs hclosed ?_ hkept.2
              rw [← hkept.1]
              exact Table.lookup_key hfound
        · exact EntryStep.kept _
    · exact EntryStep.kept _

theorem step_entry (s : Ledger) (call : Call) (targetId : String) :
    EntryStep s call targetId (s.entry targetId) ((step s call).1.entry targetId) := by
  unfold step
  split
  · next c hclaim => exact locked_entry s call targetId c hclaim
  · next hclaim => exact unlocked_entry s call targetId hclaim

theorem EntryStep.activity {s : Ledger} {call : Call} {targetId : String} {a b : OwnedTab}
    (h : EntryStep s call targetId (some a) (some b)) : a.lastActivityAt ≤ b.lastActivityAt := by
  cases h with
  | kept => exact le_refl _
  | recorded openedAt r h => exact le_refl _
  | renewed now r h hrenew =>
    rw [renewable, Bool.and_eq_true, decide_eq_true_eq] at hrenew
    exact hrenew.1

/-- Only a record brings an entry back. -/
theorem EntryStep.reopened {s : Ledger} {call : Call} {targetId : String} {b : OwnedTab}
    (h : EntryStep s call targetId none (some b)) :
    ∃ openedAt, call.operation = .recordOwnedTab targetId openedAt := by
  cases h with
  | opened openedAt h => exact ⟨openedAt, h⟩

/-- A touch that succeeds finds an entry that is not idle for the maximum age, and renews it. -/
theorem touched_entry {s : Ledger} {call : Call} {targetId : String} {now : Time}
    (hcall : call.operation = .touchOwnedTab targetId now)
    (h : (step s call).2 = .touched true) :
    ∃ r, s.entry targetId = some r ∧ renewable now r = true ∧
      (step s call).1.entry targetId = some (renew now r) := by
  unfold step at h ⊢
  rw [hcall] at h ⊢
  cases hclaim : s.claim with
  | some c =>
    rw [hclaim] at h
    exact absurd h (by simp [lockedStep])
  | none =>
    rw [hclaim] at h
    cases htabs : s.tabs with
    | none =>
      rw [htabs] at h
      exact absurd h (by simp [unlockedStep])
    | some tabs =>
      rw [htabs] at h
      have hhits : tabs.hits targetId (renewable now) = true := by
        simpa [unlockedStep, touchTab] using h
      obtain ⟨r, hfound, hrenew⟩ := Table.hits_iff.mp hhits
      refine ⟨r, by rw [Ledger.entry, htabs]; exact hfound, hrenew, ?_⟩
      have hafter := lookup_touchTab tabs targetId targetId now
      rw [if_pos rfl, hfound, Option.map_some, if_pos hrenew] at hafter
      exact hafter

/-- A claim that yields `mark_closed` finds an entry whose activity is not later than the cutoff. -/
theorem claimed_entry {s : Ledger} {call : Call} {targetId : String} {cutoff : Time}
    (hcall : call.operation = .claimExpiredTab targetId cutoff)
    (h : (step s call).2 = .claimed true) :
    ∃ r, s.entry targetId = some r ∧ r.lastActivityAt ≤ cutoff := by
  unfold step at h
  rw [hcall] at h
  cases hclaim : s.claim with
  | some c =>
    rw [hclaim] at h
    exact absurd h (by simp [lockedStep])
  | none =>
    rw [hclaim] at h
    cases htabs : s.tabs with
    | none =>
      rw [htabs] at h
      exact absurd h (by simp [unlockedStep])
    | some tabs =>
      rw [htabs] at h
      have hhits : tabs.hits targetId (isExpired cutoff) = true := by
        simpa [unlockedStep] using h
      obtain ⟨r, hfound, hexpired⟩ := Table.hits_iff.mp hhits
      exact ⟨r, by rw [Ledger.entry, htabs]; exact hfound, of_decide_eq_true hexpired⟩

/-- The entry of a claim that yielded `mark_closed` stays expired while the claim is open. -/
def ClaimHolds (s : Ledger) : Prop :=
  ∀ c, s.claim = some c → (c.closed = true → c.expired = true) ∧
    (c.expired = true → ∀ r, s.entry c.targetId = some r → isExpired c.cutoff r = true)

theorem claim_step (s : Ledger) (call : Call) (h : ClaimHolds s) : ClaimHolds (step s call).1 := by
  unfold step
  cases hclaim : s.claim with
  | none =>
    intro c hc
    obtain ⟨process, operation⟩ := call
    cases operation with
    | claimExpiredTab k cutoff =>
      cases htabs : s.tabs with
      | none =>
        rw [htabs] at hc
        cases hc
      | some tabs =>
        rw [htabs] at hc
        obtain rfl := Option.some.inj hc
        refine ⟨fun hclosed => (by cases hclosed), fun hexpired r hr => ?_⟩
        obtain ⟨r', hfound, hr'⟩ := Table.hits_iff.mp hexpired
        have hsame : tabs.lookup k = some r := hr
        rw [hfound] at hsame
        rw [← Option.some.inj hsame]
        exact hr'
    | touchOwnedTab k now => cases htabs : s.tabs <;> (rw [htabs] at hc; cases hc)
    | recordOwnedTab k openedAt => cases hc
    | forgetOwnedTabs targetIds => cases hc
    | markClosed => cases hc
    | commit => cases hc
    | rollback => cases hc
  | some c =>
    have hc := h c hclaim
    have hsame : ClaimHolds ⟨s.tabs, some c⟩ := by
      intro c' hc'
      obtain rfl := Option.some.inj hc'
      exact hc
    obtain ⟨process, operation⟩ := call
    cases operation with
    | recordOwnedTab k openedAt => exact hsame
    | touchOwnedTab k now => exact hsame
    | forgetOwnedTabs targetIds => exact hsame
    | claimExpiredTab k cutoff => exact hsame
    | markClosed =>
      simp only [lockedStep]
      split_ifs with hprocess
      · intro c' hc'
        obtain rfl := Option.some.inj hc'
        exact ⟨fun _ => hprocess.2, hc.2⟩
      · exact hsame
    | commit =>
      simp only [lockedStep]
      split_ifs with hprocess
      · exact fun c' hc' => (by cases hc')
      · exact hsame
    | rollback =>
      simp only [lockedStep]
      split_ifs with hprocess
      · exact fun c' hc' => (by cases hc')
      · exact hsame

/-- The commit of a claim whose tab was marked closed leaves no entry of that tab. -/
theorem closed_entry {s : Ledger} {c : Claim} (h : ClaimHolds s) (hclaim : s.claim = some c)
    (hclosed : c.closed = true) :
    (step s ⟨c.process, .commit⟩).1.entry c.targetId = none := by
  obtain ⟨hexpired, hrow⟩ := h c hclaim
  have hstep : (step s ⟨c.process, .commit⟩).1 = ⟨s.tabs.map c.commit, none⟩ := by
    simp [step, hclaim, lockedStep]
  rw [hstep]
  cases htabs : s.tabs with
  | none => rfl
  | some tabs =>
    show (c.commit tabs).lookup c.targetId = none
    rw [Claim.commit, if_pos hclosed, Table.lookup_delete]
    cases hfound : tabs.lookup c.targetId with
    | none => rfl
    | some r =>
      have hentry : s.entry c.targetId = some r := by
        rw [Ledger.entry, htabs]
        exact hfound
      have hkey : r.targetId = c.targetId := Table.lookup_key hfound
      rw [Option.filter_some_neg]
      simp [hkey, hrow (hexpired hclosed) r hentry]

section Runs

variable (tabs : Option Tabs) (run : List Call) (targetId : String)

def ledgerEvents : List (Event Ledger Call Output) := events step ⟨tabs, none⟩ run

/-- The entry of a tab is there after each of the events. -/
def Lives (es : List (Event Ledger Call Output)) : Prop := ∀ e ∈ es, e.post.entry targetId ≠ none

/-- A committed touch of the entry, or the record that opens it. -/
def Refreshes (e : Event Ledger Call Output) (now : Time) : Prop :=
  (e.input.operation = .touchOwnedTab targetId now ∧ e.output = .touched true) ∨
    (e.input.operation = .recordOwnedTab targetId now ∧ e.output = .done ∧
      e.pre.entry targetId = none)

/-- The commit of a claim whose tab was marked closed. -/
def ClosesTab (e : Event Ledger Call Output) : Prop :=
  ∃ c, e.pre.claim = some c ∧ c.targetId = targetId ∧ c.closed = true ∧
    e.input = ⟨c.process, .commit⟩

def Records (e : Event Ledger Call Output) : Prop :=
  ∃ openedAt, e.input.operation = .recordOwnedTab targetId openedAt ∧ e.output = .done

variable {tabs run targetId}

theorem event_entry {e : Event Ledger Call Output} (he : e ∈ ledgerEvents tabs run) :
    EntryStep e.pre e.input targetId (e.pre.entry targetId) (e.post.entry targetId) := by
  have hstep := event_step step _ run e he
  have hchange := step_entry e.pre e.input targetId
  rw [hstep] at hchange
  exact hchange

/-- The activity of an entry, bounded below while it lives. -/
theorem activity_kept {e : Event Ledger Call Output} (he : e ∈ ledgerEvents tabs run) {now : Time}
    (hlives : e.post.entry targetId ≠ none)
    (h : ∃ r, e.pre.entry targetId = some r ∧ now ≤ r.lastActivityAt) :
    ∃ r, e.post.entry targetId = some r ∧ now ≤ r.lastActivityAt := by
  obtain ⟨r, hpre, hnow⟩ := h
  obtain ⟨r', hpost⟩ := Option.ne_none_iff_exists'.mp hlives
  have hchange := @event_entry tabs run targetId e he
  rw [hpre, hpost] at hchange
  exact ⟨r', hpost, le_trans hnow hchange.activity⟩

theorem refreshed_entry {e : Event Ledger Call Output} (he : e ∈ ledgerEvents tabs run) {now : Time}
    (h : Refreshes targetId e now) :
    ∃ r, e.post.entry targetId = some r ∧ now ≤ r.lastActivityAt := by
  have hstep := event_step step _ run e he
  rcases h with ⟨hcall, houtput⟩ | ⟨hcall, houtput, hnone⟩
  · obtain ⟨r, _, _, hpost⟩ := touched_entry hcall (by rw [hstep]; exact houtput)
    rw [hstep] at hpost
    exact ⟨renew now r, hpost, le_refl now⟩
  · have hpost : e.post.entry targetId = some ⟨targetId, now, now⟩ := by
      obtain ⟨pre, ⟨process, operation⟩, output, post⟩ := e
      obtain ⟨rows, claim⟩ := pre
      dsimp only at hcall houtput hnone hstep ⊢
      subst hcall
      cases claim with
      | some c =>
        have hlocked := congrArg Prod.snd hstep
        rw [houtput] at hlocked
        cases hlocked
      | none =>
        have hafter : (step ⟨rows, none⟩ ⟨process, .recordOwnedTab targetId now⟩).1 = post :=
          congrArg Prod.fst hstep
        rw [← hafter]
        show (recordTab (rows.getD Table.empty) targetId now).lookup targetId = _
        have hempty : (rows.getD Table.empty).lookup targetId = none := by
          cases rows with
          | none => rfl
          | some rows => exact hnone
        rw [lookup_recordTab, if_pos rfl, hempty]
        rfl
    exact ⟨_, hpost, le_refl now⟩

/-- The last activity of an entry never decreases while it lives. -/
theorem activity_mono (left right : List Call) (s : Ledger) {a : OwnedTab}
    (ha : (final step s left).entry targetId = some a)
    (hlives : Lives targetId (events step (final step s left) right)) :
    ∃ b, (final step s (left ++ right)).entry targetId = some b ∧
      a.lastActivityAt ≤ b.lastActivityAt := by
  rw [final_append]
  generalize final step s left = s' at ha hlives ⊢
  induction right generalizing s' a with
  | nil => exact ⟨a, ha, le_refl _⟩
  | cons call rest ih =>
    have hpost : (step s' call).1.entry targetId ≠ none := hlives _ List.mem_cons_self
    obtain ⟨b, hb⟩ := Option.ne_none_iff_exists'.mp hpost
    have hchange := step_entry s' call targetId
    rw [ha, hb] at hchange
    obtain ⟨b', hb', hle⟩ := ih (step s' call).1 hb fun e he => hlives e (List.mem_cons_of_mem _ he)
    exact ⟨b', hb', le_trans hchange.activity hle⟩

/-- A claim that yields `mark_closed` comes after no later refresh of a living entry. -/
theorem claimed_expired {before between after : List (Event Ledger Call Output)}
    {b e : Event Ledger Call Output} {now cutoff : Time}
    (hrun : ledgerEvents tabs run = before ++ b :: (between ++ e :: after))
    (hb : Refreshes targetId b now) (hlives : Lives targetId between)
    (he : e.input.operation = .claimExpiredTab targetId cutoff)
    (houtput : e.output = .claimed true) :
    now ≤ cutoff := by
  have hmem : ∀ c ∈ b :: (between ++ e :: after), c ∈ ledgerEvents tabs run := by
    intro c hc
    rw [hrun]
    exact List.mem_append_right before hc
  have hpre := carried_between step
    (fun s => ∃ r, s.entry targetId = some r ∧ now ≤ r.lastActivityAt)
    ⟨tabs, none⟩ run before between
    after b e hrun (refreshed_entry (hmem b List.mem_cons_self) hb) (by
      intro c hc
      exact activity_kept (hmem c (List.mem_cons_of_mem b (List.mem_append_left _ hc)))
        (hlives c hc))
  obtain ⟨r, hr, hnow⟩ := hpre
  have hin : e ∈ ledgerEvents tabs run :=
    hmem e (List.mem_cons_of_mem b (List.mem_append_right between List.mem_cons_self))
  have hstep := event_step step _ run e hin
  obtain ⟨r', hr', hcutoff⟩ := claimed_entry he (by rw [hstep]; exact houtput)
  rw [hr] at hr'
  rw [← Option.some.inj hr'] at hcutoff
  exact le_trans hnow hcutoff

/-- A record that opens an entry has been answered. -/
theorem record_done {e : Event Ledger Call Output} (he : e ∈ ledgerEvents tabs run)
    {openedAt : Time}
    (hcall : e.input.operation = .recordOwnedTab targetId openedAt)
    (hpre : e.pre.entry targetId = none)
    (hpost : e.post.entry targetId ≠ none) : e.output = .done := by
  have hstep := event_step step _ run e he
  obtain ⟨⟨rows, claim⟩, ⟨process, operation⟩, output, post⟩ := e
  dsimp only at hcall hpre hpost hstep ⊢
  subst hcall
  cases claim with
  | none => exact (congrArg Prod.snd hstep).symm
  | some c =>
    have hsame : (⟨rows, some c⟩ : Ledger) = post := congrArg Prod.fst hstep
    rw [← hsame] at hpost
    exact absurd hpre hpost

/-- A closed entry stays away until the tab is recorded again. -/
theorem closed_stays {before between after : List (Event Ledger Call Output)}
    {e f : Event Ledger Call Output}
    (hrun : ledgerEvents tabs run = before ++ e :: (between ++ f :: after))
    (he : ClosesTab targetId e)
    (hrecords : ∀ g ∈ between, ¬ Records targetId g) :
    f.pre.entry targetId = none ∧
      ∀ now, f.input.operation = .touchOwnedTab targetId now → f.output ≠ .touched true := by
  have hmem : ∀ c ∈ e :: (between ++ f :: after), c ∈ ledgerEvents tabs run := by
    intro c hc
    rw [hrun]
    exact List.mem_append_right before hc
  have hholds : ClaimHolds e.pre := by
    obtain ⟨left, _, _, hpre, _, _⟩ := event_pre step _ run before _ e hrun
    rw [hpre]
    exact final_invariant step (fun _ => True) ClaimHolds (fun s i _ => claim_step s i) ⟨tabs, none⟩
      (fun c hc => (by cases hc)) left fun _ _ => True.intro
  have hclosed : e.post.entry targetId = none := by
    obtain ⟨c, hclaim, htarget, hmarked, hcall⟩ := he
    have hstep := event_step step _ run e (hmem e List.mem_cons_self)
    have hentry := closed_entry hholds hclaim hmarked
    rw [← hcall, hstep, htarget] at hentry
    exact hentry
  have hstays : ∀ g ∈ between, g.pre.entry targetId = none → g.post.entry targetId = none := by
    intro g hg hpre
    by_contra hpost
    obtain ⟨r, hr⟩ := Option.ne_none_iff_exists'.mp hpost
    have hin : g ∈ ledgerEvents tabs run :=
      hmem g (List.mem_cons_of_mem e (List.mem_append_left _ hg))
    have hchange := @event_entry tabs run targetId g hin
    rw [hpre, hr] at hchange
    obtain ⟨openedAt, hcall⟩ := hchange.reopened
    exact hrecords g hg ⟨openedAt, hcall, record_done hin hcall hpre hpost⟩
  have hpre : f.pre.entry targetId = none :=
    carried_between step (fun s => s.entry targetId = none) _ run before between after e f
      hrun hclosed
      hstays
  refine ⟨hpre, ?_⟩
  intro now hcall htouched
  have hin : f ∈ ledgerEvents tabs run :=
    hmem f (List.mem_cons_of_mem e (List.mem_append_right between List.mem_cons_self))
  have hstep := event_step step _ run f hin
  obtain ⟨r, hr, _, _⟩ := touched_entry hcall (by rw [hstep]; exact htouched)
  rw [hpre] at hr
  cases hr

end Runs

/-- Activity never decreases, no refreshed entry is handed out for closing, an idle entry
cannot be touched, and a closed one is gone until the tab is recorded again. A record of a
known tab is no refresh of it. -/
theorem owned_tabs_safe (tabs : Option Tabs) (run : List Call) (targetId : String) :
    (∀ left right a, run = left ++ right → (final step ⟨tabs, none⟩ left).entry targetId = some a →
      Lives targetId (events step (final step ⟨tabs, none⟩ left) right) →
        ∃ b, (final step ⟨tabs, none⟩ run).entry targetId = some b ∧
          a.lastActivityAt ≤ b.lastActivityAt) ∧
    (∀ before b between e after now cutoff,
      ledgerEvents tabs run = before ++ b :: (between ++ e :: after) → Refreshes targetId b now →
      Lives targetId between → e.input.operation = .claimExpiredTab targetId cutoff →
      e.output = .claimed true → now ≤ cutoff) ∧
    (∀ e ∈ ledgerEvents tabs run, ∀ now, e.input.operation = .touchOwnedTab targetId now →
      e.output = .touched true →
        ∃ r, e.pre.entry targetId = some r ∧ now - r.lastActivityAt < maxOwnedTabAge) ∧
    ∀ before e between f after, ledgerEvents tabs run = before ++ e :: (between ++ f :: after) →
      ClosesTab targetId e → (∀ g ∈ between, ¬ Records targetId g) →
        f.pre.entry targetId = none ∧
          ∀ now, f.input.operation = .touchOwnedTab targetId now → f.output ≠ .touched true := by
  refine ⟨?_, ?_, ?_, ?_⟩
  · intro left right a hrun ha hlives
    rw [hrun]
    exact activity_mono left right _ ha hlives
  · intro before b between e after now cutoff hrun hb hlives he houtput
    exact claimed_expired hrun hb hlives he houtput
  · intro e he now hcall houtput
    have hstep := event_step step _ run e he
    obtain ⟨r, hr, hrenew, _⟩ := touched_entry hcall (by rw [hstep]; exact houtput)
    rw [renewable, Bool.and_eq_true, decide_eq_true_eq, decide_eq_true_eq] at hrenew
    exact ⟨r, hr, sub_lt_comm.mp hrenew.2⟩
  · intro before e between f after hrun he hrecords
    exact closed_stays hrun he hrecords

/-- A tab that is opened at 0 and recorded again at 1000 is handed out with a cutoff of 500. -/
theorem recorded_tab_claimed :
    ∃ opened recorded claimed,
      ledgerEvents none [⟨1, .recordOwnedTab "tab" 0⟩, ⟨1, .recordOwnedTab "tab" 1000⟩,
        ⟨2, .claimExpiredTab "tab" 500⟩] = [opened, recorded, claimed] ∧
      recorded.input.operation = .recordOwnedTab "tab" 1000 ∧ recorded.output = .done ∧
      recorded.post.entry "tab" ≠ none ∧
      claimed.input.operation = .claimExpiredTab "tab" 500 ∧ claimed.output = .claimed true := by
  refine ⟨_, _, _, rfl, rfl, rfl, ?_, rfl, ?_⟩
  · decide +kernel
  · decide +kernel

end Prompta.TabLedger
