import Prompta.TabSends

/-!
Fresh chats are sent at most once. The receipts of the tab, its requests on their way and the
queue are joined by one invariant: an identifier belongs to one payload, and an identifier
whose delivery is still to come has its receipt in the storage.
-/
namespace Prompta.FreshSends

open Runs Tables Texts DisplayBlocks Schema DeliveryQueue ManualQueue Service FollowupMerges
  FreshChats FreshQueueReceipt TabSends

section Invariant

variable (lib : Stdlib) (digest : Payload → String) (payloads : List Payload)

/-- What holds between the receipts of the tab, its requests and the queue. -/
structure Joined (w : World) : Prop where
  placed : Placed w.server
  inFlight : ∀ f ∈ w.sends, ∃ g ∈ w.fetches, g.send = f.send
  sent : ∀ f ∈ w.fetches, f.send.payload ∈ payloads ∧
    f.send.request.fingerprint = digest f.send.payload
  oneOwner : ∀ fingerprint fingerprint' requestId, Issued w fingerprint requestId →
    Issued w fingerprint' requestId → fingerprint = fingerprint'
  rows : ∀ fingerprint requestId, Issued w fingerprint requestId → Queued w requestId →
    ∃ p ∈ payloads, digest p = fingerprint ∧ Carries w.server requestId p
  oneOpen : ∀ fingerprint requestId requestId', Issued w fingerprint requestId →
    Issued w fingerprint requestId' → ¬ Queued w requestId → ¬ Queued w requestId' →
      requestId = requestId'
  saved : w.stored ≠ .unreadable → ∀ fingerprint requestId, Issued w fingerprint requestId →
    ¬ Queued w requestId →
      ∃ r ∈ w.stored.items, r.fingerprint = fingerprint ∧ r.requestId = requestId
  answered : ∀ a ∈ w.answers, ∀ sendId status, a.reply = .receipt sendId status →
    (w.server.queue.lookup sendId).isSome = true

variable {digest payloads}

theorem joined_empty : Joined digest payloads World.empty := by
  have hnone : ∀ fingerprint requestId, ¬ Issued World.empty fingerprint requestId := by
    rintro fingerprint requestId (⟨r, hr, _⟩ | ⟨f, hf, _⟩)
    · exact nomatch hr
    · exact nomatch hf
  constructor
  · exact reachable_placed plainLib []
  · exact fun f hf => nomatch hf
  · exact fun f hf => nomatch hf
  · intro fingerprint fingerprint' requestId h
    exact absurd h (hnone fingerprint requestId)
  · intro fingerprint requestId h
    exact absurd h (hnone fingerprint requestId)
  · intro fingerprint requestId requestId' h
    exact absurd h (hnone fingerprint requestId)
  · intro _ fingerprint requestId h
    exact absurd h (hnone fingerprint requestId)
  · exact fun a ha => nomatch ha

/-- The server goes on under the tab. A new row of an identifier of the tab carries its
payload. -/
theorem joined_server {w w' : World} (h : Joined digest payloads w)
    (hstored : w'.stored = w.stored) (hsends : w'.sends = w.sends)
    (hfetches : w'.fetches = w.fetches)
    (hplaced : Placed w'.server)
    (hkept : ∀ k, (w.server.queue.lookup k).isSome = true →
      (w'.server.queue.lookup k).isSome = true)
    (hcarries : ∀ requestId p, Carries w.server requestId p → Carries w'.server requestId p)
    (hnew : ∀ fingerprint requestId, Issued w fingerprint requestId → ¬ Queued w requestId →
      Queued w' requestId →
        ∃ p ∈ payloads, digest p = fingerprint ∧ Carries w'.server requestId p)
    (hanswers : ∀ a ∈ w'.answers, a ∈ w.answers ∨ ∀ sendId status,
      a.reply = .receipt sendId status → (w'.server.queue.lookup sendId).isSome = true) :
    Joined digest payloads w' := by
  have hissued : ∀ fingerprint requestId,
      Issued w' fingerprint requestId ↔ Issued w fingerprint requestId := by
    intro fingerprint requestId
    rw [Issued, Issued, hstored, hfetches]
  have hopen : ∀ requestId, ¬ Queued w' requestId → ¬ Queued w requestId :=
    fun requestId hno hqueued => hno (hkept _ hqueued)
  constructor
  · exact hplaced
  · rw [hsends, hfetches]
    exact h.inFlight
  · rw [hfetches]
    exact h.sent
  · intro fingerprint fingerprint' requestId ha hb
    rw [hissued] at ha hb
    exact h.oneOwner _ _ _ ha hb
  · intro fingerprint requestId ha hqueued
    rw [hissued] at ha
    by_cases hold : Queued w requestId
    · obtain ⟨p, hp, hfingerprint, hcarried⟩ := h.rows _ _ ha hold
      exact ⟨p, hp, hfingerprint, hcarries _ _ hcarried⟩
    · exact hnew _ _ ha hold hqueued
  · intro fingerprint requestId requestId' ha hb hopen₁ hopen₂
    rw [hissued] at ha hb
    exact h.oneOpen _ _ _ ha hb (hopen _ hopen₁) (hopen _ hopen₂)
  · intro hreadable fingerprint requestId ha hno
    rw [hissued] at ha
    rw [hstored] at hreadable ⊢
    exact h.saved hreadable _ _ ha (hopen _ hno)
  · intro a ha sendId status hreply
    rcases hanswers a ha with hold | hthis
    · exact hkept _ (h.answered a hold sendId status hreply)
    · exact hthis sendId status hreply

/-- The tab goes on with what it has issued. -/
theorem joined_page {w w' : World} (h : Joined digest payloads w)
    (hserver : w'.server = w.server) (hanswers : w'.answers = w.answers)
    (hinFlight : ∀ f ∈ w'.sends, ∃ g ∈ w'.fetches, g.send = f.send)
    (hsent : ∀ f ∈ w'.fetches, f.send.payload ∈ payloads ∧
      f.send.request.fingerprint = digest f.send.payload)
    (hissued : ∀ fingerprint requestId, Issued w' fingerprint requestId →
      Issued w fingerprint requestId)
    (hsaved : w'.stored ≠ .unreadable → w.stored ≠ .unreadable ∧ ∀ r ∈ w.stored.items,
      ¬ Queued w r.requestId → r ∈ w'.stored.items) :
    Joined digest payloads w' := by
  have hqueued : ∀ requestId, Queued w' requestId ↔ Queued w requestId := by
    intro requestId
    rw [Queued, Queued, hserver]
  constructor
  · rw [hserver]
    exact h.placed
  · exact hinFlight
  · exact hsent
  · intro fingerprint fingerprint' requestId ha hb
    exact h.oneOwner _ _ _ (hissued _ _ ha) (hissued _ _ hb)
  · intro fingerprint requestId ha hrow
    rw [hqueued] at hrow
    rw [hserver]
    exact h.rows _ _ (hissued _ _ ha) hrow
  · intro fingerprint requestId requestId' ha hb hno hno'
    rw [hqueued] at hno hno'
    exact h.oneOpen _ _ _ (hissued _ _ ha) (hissued _ _ hb) hno hno'
  · intro hreadable fingerprint requestId ha hno
    rw [hqueued] at hno
    obtain ⟨hbefore, hkept⟩ := hsaved hreadable
    obtain ⟨r, hr, hfingerprint, hid⟩ := h.saved hbefore _ _ (hissued _ _ ha) hno
    rw [← hid] at hno
    exact ⟨r, hkept r hr hno, hfingerprint, hid⟩
  · rw [hserver, hanswers]
    exact h.answered

/-- The tab issues an identifier that is not in use, for a payload without a receipt. -/
theorem joined_issue {w w' : World} (h : Joined digest payloads w) {fingerprint newId : String}
    {createdAt : ℕ} (hserver : w'.server = w.server) (hanswers : w'.answers = w.answers)
    (hinFlight : ∀ f ∈ w'.sends, ∃ g ∈ w'.fetches, g.send = f.send)
    (hsent : ∀ f ∈ w'.fetches, f.send.payload ∈ payloads ∧
      f.send.request.fingerprint = digest f.send.payload)
    (hissued : ∀ fingerprint' requestId, Issued w' fingerprint' requestId →
      Issued w fingerprint' requestId ∨ fingerprint' = fingerprint ∧ requestId = newId)
    (hfree : ¬ Queued w newId ∧ ∀ fingerprint', ¬ Issued w fingerprint' newId)
    (hreadable : w.stored ≠ .unreadable)
    (hnone : ∀ r ∈ w.stored.items, r.fingerprint ≠ fingerprint)
    (hstored : w'.stored = .saved (w.stored.items ++ [⟨fingerprint, newId, createdAt⟩])) :
    Joined digest payloads w' := by
  have hqueued : ∀ requestId, Queued w' requestId ↔ Queued w requestId := by
    intro requestId
    rw [Queued, Queued, hserver]
  have hclosed : ∀ requestId, Issued w fingerprint requestId → Queued w requestId := by
    intro requestId ha
    by_contra hno
    obtain ⟨r, hr, hfingerprint, _⟩ := h.saved hreadable _ _ ha hno
    exact hnone r hr hfingerprint
  constructor
  · rw [hserver]
    exact h.placed
  · exact hinFlight
  · exact hsent
  · intro a b requestId ha hb
    rcases hissued _ _ ha with ha | ⟨rfl, rfl⟩
    · rcases hissued _ _ hb with hb | ⟨rfl, rfl⟩
      · exact h.oneOwner _ _ _ ha hb
      · exact absurd ha (hfree.2 _)
    · rcases hissued _ _ hb with hb | ⟨rfl, _⟩
      · exact absurd hb (hfree.2 _)
      · rfl
  · intro a requestId ha hrow
    rw [hqueued] at hrow
    rw [hserver]
    rcases hissued _ _ ha with ha | ⟨rfl, rfl⟩
    · exact h.rows _ _ ha hrow
    · exact absurd hrow hfree.1
  · intro a requestId requestId' ha hb hno hno'
    rw [hqueued] at hno hno'
    rcases hissued _ _ ha with ha | ⟨rfl, rfl⟩
    · rcases hissued _ _ hb with hb | ⟨rfl, rfl⟩
      · exact h.oneOpen _ _ _ ha hb hno hno'
      · exact absurd (hclosed _ ha) hno
    · rcases hissued _ _ hb with hb | ⟨_, rfl⟩
      · exact absurd (hclosed _ hb) hno'
      · rfl
  · intro _ a requestId ha hno
    rw [hqueued] at hno
    rw [hstored, Stored.items]
    rcases hissued _ _ ha with ha | ⟨rfl, rfl⟩
    · obtain ⟨r, hr, hthis⟩ := h.saved hreadable _ _ ha hno
      exact ⟨r, List.mem_append_left _ hr, hthis⟩
    · exact ⟨_, List.mem_append_right _ List.mem_cons_self, rfl, rfl⟩
  · rw [hserver, hanswers]
    exact h.answered

section Page

variable (w : World) (reply : Option Reply) (browser : Browser)

/-- What becomes of the waiting Send. -/
inductive Continued : World × Option Returned → Prop
  | idle : Continued (w, none)
  | accepted (f : InFlight) (hf : f ∈ w.sends) (sends : List InFlight)
      (hsends : ∀ g ∈ sends, g ∈ w.sends) (status : String)
      (hreply : reply = some (.receipt (manualSendId f.send.request.requestId) status)) :
      Continued ({ w with sends, stored := (accepted w.stored browser f.send.request status).1 },
        some ⟨f.send.payload, some f.send.request,
          (accepted w.stored browser f.send.request status).2⟩)
  | returned (f : InFlight) (hf : f ∈ w.sends) (sends : List InFlight)
      (hsends : ∀ g ∈ sends, g ∈ w.sends) (report : Report) (hreport : report.ok = false) :
      Continued ({ w with sends }, some ⟨f.send.payload, some f.send.request, report⟩)
  | fetch (f : InFlight) (hf : f ∈ w.sends) (sends : List InFlight)
      (hsends : ∀ g ∈ sends, g ∈ w.sends) (phase : Phase) (method : Method) :
      Continued (({ w with sends } : World).fetch f.send phase method, none)

theorem findReceipt_some {requestId status : String}
    (h : findReceipt requestId reply = some status) :
    reply = some (.receipt (manualSendId requestId) status) := by
  unfold findReceipt at h
  split at h
  · split at h
    · rename_i sendId status' hid
      cases h
      rw [hid]
    · cases h
  · cases h

theorem resume_accepted {requestId status : String} {phase : Phase}
    (h : resume requestId reply phase = .accepted status) :
    reply = some (.receipt (manualSendId requestId) status) := by
  cases phase with
  | reconciling =>
    dsimp only [resume] at h
    split at h
    · rename_i hfind
      cases h
      exact findReceipt_some reply hfind
    · cases h
  | posting =>
    dsimp only [resume] at h
    split at h
    · split at h
      · rename_i hid
        cases h
        rw [hid]
      · cases h
    · split at h
      · cases h
      · cases h
    · cases h
  | confirming reason =>
    dsimp only [resume] at h
    split at h
    · rename_i hfind
      cases h
      exact findReceipt_some reply hfind
    · cases h
  | recovering =>
    dsimp only [resume] at h
    split at h
    · rename_i hfind
      cases h
      exact findReceipt_some reply hfind
    · cases h

theorem resume_returned {requestId : String} {phase : Phase} {report : Report}
    (h : resume requestId reply phase = .returned report) : report.ok = false := by
  cases phase with
  | reconciling =>
    dsimp only [resume] at h
    split at h
    · cases h
    · cases h
  | posting =>
    dsimp only [resume] at h
    split at h
    · split at h
      · cases h
      · cases h
    · split at h
      · cases h
      · cases h
    · cases h
  | confirming reason =>
    dsimp only [resume] at h
    split at h
    · cases h
    · cases h
      rfl
  | recovering =>
    dsimp only [resume] at h
    split at h
    · cases h
    · cases h
      rfl

theorem continueSend_continued (ticket : ℕ) :
    Continued w reply browser (continueSend w ticket reply browser) := by
  unfold continueSend
  cases hfind : w.sends.find? fun f => decide (f.ticket = ticket) with
  | none => exact Continued.idle
  | some f =>
    have hf := List.mem_of_find?_eq_some hfind
    have hsends : ∀ g ∈ w.sends.filter fun g => decide (g.ticket ≠ ticket), g ∈ w.sends :=
      fun g hg => List.mem_of_mem_filter hg
    dsimp only
    cases hnext : resume f.send.request.requestId reply f.phase with
    | accepted status =>
      exact Continued.accepted f hf _ hsends status (resume_accepted reply hnext)
    | returned report =>
      exact Continued.returned f hf _ hsends report (resume_returned reply hnext)
    | fetch phase method => exact Continued.fetch f hf _ hsends phase method

/-- Only an acknowledged receipt is reported as sent. -/
theorem accepted_cases (stored : Stored) (request : FreshRequest) (status : String) :
    (accepted stored browser request status).1 = stored ∧
        (accepted stored browser request status).2.ok = false ∨
      (accepted stored browser request status).1 =
        acknowledgeFreshQueueRequest stored browser request.fingerprint request.requestId := by
  unfold accepted
  split
  · exact Or.inl ⟨rfl, rfl⟩
  split
  · exact Or.inl ⟨rfl, rfl⟩
  split
  · exact Or.inl ⟨rfl, rfl⟩
  · exact Or.inr rfl

/-- The storage keeps all receipts but the one that is acknowledged. -/
theorem accepted_stored (stored : Stored) (request : FreshRequest) (status : String) :
    (stored = .unreadable → (accepted stored browser request status).1 = .unreadable) ∧
      (∀ r ∈ (accepted stored browser request status).1.items, r ∈ stored.items) ∧
      ∀ r ∈ stored.items, r.requestId ≠ request.requestId →
        r ∈ (accepted stored browser request status).1.items := by
  rcases accepted_cases browser stored request status with ⟨hsame, _⟩ | hacknowledged
  · rw [hsame]
    exact ⟨id, fun r hr => hr, fun r hr _ => hr⟩
  · rw [hacknowledged]
    rcases acknowledge_cases stored browser request.fingerprint request.requestId with
      hsame | ⟨hreadable, items, hsaved, hitems⟩
    · rw [hsame]
      exact ⟨id, fun r hr => hr, fun r hr _ => hr⟩
    · rw [hsaved]
      refine ⟨fun h => absurd h hreadable, fun r hr => ((hitems r).mp hr).1, ?_⟩
      intro r hr hother
      exact (hitems r).mpr ⟨hr, Or.inr hother⟩

variable {w reply browser}

/-- A request carries the receipt of its Send. -/
theorem issued_fetch {send : Send} {phase : Phase} {method : Method}
    {fingerprint requestId : String}
    (h : Issued (w.fetch send phase method) fingerprint requestId) :
    Issued w fingerprint requestId ∨
      send.request.fingerprint = fingerprint ∧ send.request.requestId = requestId := by
  rcases h with hrecord | ⟨g, hg, hthis⟩
  · exact Or.inl (Or.inl hrecord)
  · rcases List.mem_append.mp hg with hold | hnew
    · exact Or.inl (Or.inr ⟨g, hold, hthis⟩)
    · rw [List.mem_singleton] at hnew
      subst hnew
      exact Or.inr hthis

/-- A Send that waits has a request under way. -/
theorem inFlight_fetch {sends : List InFlight} {send : Send} {phase : Phase} {method : Method}
    (h : ∀ f ∈ w.sends, ∃ g ∈ w.fetches, g.send = f.send) (hsends : ∀ g ∈ sends, g ∈ w.sends) :
    ∀ f ∈ (({ w with sends } : World).fetch send phase method).sends,
      ∃ g ∈ (({ w with sends } : World).fetch send phase method).fetches, g.send = f.send := by
  intro f hf
  rcases List.mem_append.mp hf with hold | hnew
  · obtain ⟨g, hg, hsame⟩ := h f (hsends f hold)
    exact ⟨g, List.mem_append_left _ hg, hsame⟩
  · rw [List.mem_singleton] at hnew
    exact ⟨⟨send, method⟩, List.mem_append_right _ List.mem_cons_self, by rw [hnew]⟩

/-- Every request is for one of the payloads, under its fingerprint. -/
theorem sent_fetch {send : Send} {phase : Phase} {method : Method}
    (h : ∀ f ∈ w.fetches, f.send.payload ∈ payloads ∧
      f.send.request.fingerprint = digest f.send.payload)
    (hsend : send.payload ∈ payloads ∧ send.request.fingerprint = digest send.payload) :
    ∀ f ∈ (w.fetch send phase method).fetches, f.send.payload ∈ payloads ∧
      f.send.request.fingerprint = digest f.send.payload := by
  intro f hf
  rcases List.mem_append.mp hf with hold | hnew
  · exact h f hold
  · rw [List.mem_singleton] at hnew
    rw [hnew]
    exact hsend

/-- A Send that goes on issues nothing new. -/
theorem continued_issued (h : Joined digest payloads w) {outcome : World × Option Returned}
    (hcontinued : Continued w reply browser outcome) (fingerprint requestId : String)
    (hissued : Issued outcome.1 fingerprint requestId) : Issued w fingerprint requestId := by
  cases hcontinued with
  | idle => exact hissued
  | accepted f hf sends hsends status hreply =>
    rcases hissued with ⟨r, hr, hthis⟩ | hfetch
    · exact Or.inl ⟨r, (accepted_stored browser w.stored f.send.request status).2.1 r hr, hthis⟩
    · exact Or.inr hfetch
  | returned f hf sends hsends report hreport => exact hissued
  | fetch f hf sends hsends phase method =>
    rcases issued_fetch hissued with hold | hthis
    · exact hold
    · obtain ⟨g, hg, hsame⟩ := h.inFlight f hf
      rw [← hsame] at hthis
      exact Or.inr ⟨g, hg, hthis⟩

theorem continued_server {outcome : World × Option Returned}
    (hcontinued : Continued w reply browser outcome) : outcome.1.server = w.server := by
  cases hcontinued <;> rfl

theorem continued_unreadable {outcome : World × Option Returned}
    (hcontinued : Continued w reply browser outcome) (h : w.stored = .unreadable) :
    outcome.1.stored = .unreadable := by
  cases hcontinued with
  | idle => exact h
  | accepted f hf sends hsends status hreply =>
    exact (accepted_stored browser w.stored f.send.request status).1 h
  | returned f hf sends hsends report hreport => exact h
  | fetch f hf sends hsends phase method => exact h

/-- How a Send goes on keeps its receipt and its row together. -/
theorem joined_continue (h : Joined digest payloads w) {outcome : World × Option Returned}
    (hcontinued : Continued w reply browser outcome)
    (hreceipt : ∀ sendId status, reply = some (.receipt sendId status) →
      (w.server.queue.lookup sendId).isSome = true) :
    Joined digest payloads outcome.1 := by
  have hissued := continued_issued h hcontinued
  cases hcontinued with
  | idle => exact h
  | accepted f hf sends hsends status hreply =>
    obtain ⟨hunreadable, _, hkept⟩ := accepted_stored browser w.stored f.send.request status
    refine joined_page h rfl rfl (fun g hg => h.inFlight g (hsends g hg)) h.sent hissued ?_
    intro hreadable
    refine ⟨fun hbefore => hreadable (hunreadable hbefore), ?_⟩
    intro r hr hno
    refine hkept r hr ?_
    intro hsame
    rw [hsame] at hno
    exact hno (hreceipt _ status hreply)
  | returned f hf sends hsends report hreport =>
    exact joined_page h rfl rfl (fun g hg => h.inFlight g (hsends g hg)) h.sent hissued
      fun hreadable => ⟨hreadable, fun r hr _ => hr⟩
  | fetch f hf sends hsends phase method =>
    obtain ⟨g, hg, hsame⟩ := h.inFlight f hf
    have hsent := h.sent g hg
    rw [hsame] at hsent
    exact joined_page h rfl rfl (inFlight_fetch h.inFlight hsends) (sent_fetch h.sent hsent)
      hissued fun hreadable => ⟨hreadable, fun r hr _ => hr⟩

end Page

section Start

variable (digest) in
/-- What becomes of a new Send of the payload. -/
inductive Started (w : World) (payload : Payload) (newId : String) (createdAt : ℕ) :
    World × Option Returned → Prop
  | refused (report : Report) (hreport : report.ok = false) :
      Started w payload newId createdAt (w, some ⟨payload, none, report⟩)
  | reused (entry : PendingFreshRequest) (hmem : entry ∈ w.stored.items) (send : Send)
      (hpayload : send.payload = payload) (hentry : entry.fingerprint = digest payload)
      (hfingerprint : send.request.fingerprint = digest payload)
      (hid : send.request.requestId = entry.requestId) (phase : Phase) (method : Method) :
      Started w payload newId createdAt (w.fetch send phase method, none)
  | unsent (hreadable : w.stored ≠ .unreadable)
      (hnew : ∀ entry ∈ w.stored.items, entry.fingerprint ≠ digest payload) (report : Report)
      (hreport : report.ok = false) :
      Started w payload newId createdAt
        (w.keep (digest payload) newId createdAt, some ⟨payload, none, report⟩)
  | posted (hreadable : w.stored ≠ .unreadable)
      (hnew : ∀ entry ∈ w.stored.items, entry.fingerprint ≠ digest payload) (send : Send)
      (hpayload : send.payload = payload)
      (hfingerprint : send.request.fingerprint = digest payload)
      (hid : send.request.requestId = newId) (phase : Phase) (method : Method) :
      Started w payload newId createdAt
        ((w.keep (digest payload) newId createdAt).fetch send phase method, none)

variable (digest) in
/-- The ways a Send can start. -/
theorem startSend_started (w : World) (scope : String) (text : Text) (images : List String)
    (newId : String) (createdAt : ℕ) (browser : Browser) :
    Started digest w ⟨scope, strip text, images⟩ newId createdAt
      (startSend digest w scope text images newId createdAt browser) := by
  unfold startSend
  dsimp only
  have hrequested := freshQueueRequest_requested w.stored browser
    (digest ⟨scope, strip text, images⟩) newId createdAt
  revert hrequested
  generalize freshQueueRequest w.stored browser (digest ⟨scope, strip text, images⟩) newId
    createdAt = outcome
  intro hrequested
  cases hrequested with
  | refused e => exact Started.refused _ rfl
  | reused entry hmem hentry =>
    exact Started.reused entry hmem ⟨scope, text, images, _⟩ rfl hentry rfl rfl _ _
  | saved outcome hreadable hnew houtcome =>
    cases outcome with
    | error e => exact Started.unsent hreadable hnew _ rfl
    | ok request =>
      have hrequest := houtcome request rfl
      subst hrequest
      exact Started.posted hreadable hnew ⟨scope, text, images, ⟨newId, digest _, false⟩⟩ rfl rfl
        rfl _ _

variable {w : World} {payload : Payload} {newId : String} {createdAt : ℕ}
  {outcome : World × Option Returned}

/-- A receipt is issued by the Send that draws its identifier. -/
theorem issued_keep {fingerprint fingerprint' requestId : String}
    (h : Issued (w.keep fingerprint newId createdAt) fingerprint' requestId) :
    Issued w fingerprint' requestId ∨ fingerprint' = fingerprint ∧ requestId = newId := by
  rcases h with ⟨r, hr, hthis⟩ | hfetch
  · rcases List.mem_append.mp hr with hold | hlast
    · exact Or.inl (Or.inl ⟨r, hold, hthis⟩)
    · rw [List.mem_singleton] at hlast
      rw [hlast] at hthis
      exact Or.inr ⟨hthis.1.symm, hthis.2.symm⟩
  · exact Or.inl (Or.inr hfetch)

/-- A Send reuses the saved identifier, or issues a new one for a payload without a receipt. -/
theorem started_issued (hstarted : Started digest w payload newId createdAt outcome)
    (fingerprint requestId : String) (hissued : Issued outcome.1 fingerprint requestId) :
    Issued w fingerprint requestId ∨
      (fingerprint = digest payload ∧ requestId = newId) ∧ w.stored ≠ .unreadable ∧
        ∀ r ∈ w.stored.items, r.fingerprint ≠ digest payload := by
  cases hstarted with
  | refused report hreport => exact Or.inl hissued
  | reused entry hmem send hpayload hentry hfingerprint hid phase method =>
    rcases issued_fetch hissued with hold | ⟨hsame, hsameId⟩
    · exact Or.inl hold
    · rw [hfingerprint] at hsame
      rw [hid] at hsameId
      exact Or.inl (Or.inl ⟨entry, hmem, hentry.trans hsame, hsameId⟩)
  | unsent hreadable hnew report hreport =>
    rcases issued_keep hissued with hold | hthis
    · exact Or.inl hold
    · exact Or.inr ⟨hthis, hreadable, hnew⟩
  | posted hreadable hnew send hpayload hfingerprint hid phase method =>
    rcases issued_fetch hissued with hkept | ⟨hsame, hsameId⟩
    · rcases issued_keep hkept with hold | hthis
      · exact Or.inl hold
      · exact Or.inr ⟨hthis, hreadable, hnew⟩
    · exact Or.inr ⟨⟨hsame.symm.trans hfingerprint, hsameId.symm.trans hid⟩, hreadable, hnew⟩

theorem started_server (hstarted : Started digest w payload newId createdAt outcome) :
    outcome.1.server = w.server := by
  cases hstarted <;> rfl

/-- A Send that has not gone out is not reported as sent. -/
theorem started_report (hstarted : Started digest w payload newId createdAt outcome) {r : Returned}
    (h : outcome.2 = some r) : r.report.ok = false := by
  cases hstarted with
  | refused report hreport =>
    cases h
    exact hreport
  | reused entry hmem send hpayload hentry hfingerprint hid phase method => cases h
  | unsent hreadable hnew report hreport =>
    cases h
    exact hreport
  | posted hreadable hnew send hpayload hfingerprint hid phase method => cases h

theorem started_unreadable (hstarted : Started digest w payload newId createdAt outcome)
    (h : w.stored = .unreadable) : outcome.1.stored = .unreadable := by
  cases hstarted with
  | refused report hreport => exact h
  | reused entry hmem send hpayload hentry hfingerprint hid phase method => exact h
  | unsent hreadable hnew report hreport => exact absurd h hreadable
  | posted hreadable hnew send hpayload hfingerprint hid phase method => exact absurd h hreadable

/-- A new identifier is nowhere in use. -/
theorem joined_start (h : Joined digest payloads w)
    (hstarted : Started digest w payload newId createdAt outcome) (hpayload : payload ∈ payloads)
    (hfree : ¬ Queued w newId ∧ ∀ fingerprint, ¬ Issued w fingerprint newId) :
    Joined digest payloads outcome.1 := by
  have hissued := started_issued hstarted
  cases hstarted with
  | refused report hreport => exact h
  | reused entry hmem send hsend hentry hfingerprint hid phase method =>
    subst hsend
    refine joined_page h rfl rfl (inFlight_fetch h.inFlight fun g hg => hg)
      (sent_fetch h.sent ⟨hpayload, hfingerprint⟩) ?_ fun hreadable => ⟨hreadable, fun r hr _ => hr⟩
    intro fingerprint requestId hthis
    rcases hissued fingerprint requestId hthis with hold | ⟨_, _, hnone⟩
    · exact hold
    · exact absurd hentry (hnone entry hmem)
  | unsent hreadable hnew report hreport =>
    exact joined_issue h rfl rfl h.inFlight h.sent (fun _ _ hthis => issued_keep hthis) hfree
      hreadable hnew rfl
  | posted hreadable hnew send hsend hfingerprint hid phase method =>
    subst hsend
    refine joined_issue h rfl rfl (inFlight_fetch h.inFlight fun g hg => hg)
      (sent_fetch h.sent ⟨hpayload, hfingerprint⟩) ?_ hfree hreadable hnew rfl
    intro fingerprint requestId hthis
    rcases hissued fingerprint requestId hthis with hold | ⟨hthis, _⟩
    · exact Or.inl hold
    · exact Or.inr hthis

end Start

section Steps

/-- Serving a request adds the row of its identifier, or finds it. -/
theorem joined_serve {w : World} (h : Joined digest payloads w) (ticket : ℕ)
    (available : String → Bool) (answers : Bool) (now : Time) :
    Joined digest payloads (tabStep lib digest w (.serve ticket available answers now)).1 := by
  dsimp only [tabStep]
  cases hfetch : w.fetches[ticket]? with
  | none => exact h
  | some fetch =>
    have hmem := List.mem_of_getElem? hfetch
    obtain ⟨hpayload, hfingerprint⟩ := h.sent fetch hmem
    dsimp only
    refine joined_server h rfl rfl rfl ?_ ?_ ?_ ?_ ?_
    · rcases serve_call lib w.server fetch available answers now with hsame | ⟨_, hcall⟩
      · rw [hsame]
        exact h.placed
      · rw [hcall]
        exact freshStep_placed lib w.server _ h.placed
    · intro k hk
      rcases serve_call lib w.server fetch available answers now with hsame | ⟨_, hcall⟩
      · rw [hsame]
        exact hk
      · rw [hcall]
        exact (freshStep_rows lib w.server _ k).1 hk
    · intro requestId p hcarries
      rcases serve_call lib w.server fetch available answers now with hsame | ⟨_, hcall⟩
      · rw [hsame]
        exact hcarries
      · rw [hcall]
        exact freshStep_carries lib w.server _ hcarries
    · intro fingerprint requestId hissued hno hqueued
      rw [Queued, Bool.not_eq_true, Option.isSome_eq_false_iff, Option.isNone_iff_eq_none] at hno
      obtain ⟨_, hkey, hcarries⟩ := serve_adds lib h.placed hno hqueued
      have hid := manualSendId_inj hkey
      have hown : Issued w (digest fetch.send.payload) requestId :=
        Or.inr ⟨fetch, hmem, hfingerprint, hid⟩
      exact ⟨fetch.send.payload, hpayload, h.oneOwner _ _ _ hown hissued, hcarries⟩
    · intro a ha
      rcases List.mem_append.mp ha with hold | hnew
      · exact Or.inl hold
      · rw [List.mem_singleton] at hnew
        subst hnew
        exact Or.inr fun sendId status hreply => serve_receipt lib w.server fetch available answers
          now hreply

/-- One event keeps the invariant. -/
theorem joined_step (w : World) (e : TabEvent) (hapart : Apart w e)
    (hsent : ∀ p ∈ sentPayload e, p ∈ payloads) (h : Joined digest payloads w) :
    Joined digest payloads (tabStep lib digest w e).1 := by
  cases e with
  | send scope text images newId createdAt browser =>
    exact joined_start h (startSend_started digest w scope text images newId createdAt browser)
      (hsent _ rfl) hapart
  | serve ticket available answers now => exact joined_serve lib h ticket available answers now
  | fault ticket status reason =>
    refine joined_server h rfl rfl rfl h.placed (fun _ hk => hk) (fun _ _ hc => hc) ?_ ?_
    · intro _ requestId _ hno hqueued
      exact absurd hqueued hno
    · intro a ha
      rcases List.mem_append.mp ha with hold | hnew
      · exact Or.inl hold
      · rw [List.mem_singleton] at hnew
        subst hnew
        exact Or.inr fun _ _ hreply => nomatch hreply
  | receive i browser =>
    dsimp only [tabStep]
    cases hanswer : w.answers[i]? with
    | none => exact h
    | some answer =>
      refine joined_continue h
        (continueSend_continued w (some answer.reply) browser answer.ticket) ?_
      intro sendId status hreply
      exact h.answered answer (List.mem_of_getElem? hanswer) sendId status (Option.some.inj hreply)
  | lose ticket browser =>
    exact joined_continue h (continueSend_continued w none browser ticket) fun _ _ hreply =>
      nomatch hreply
  | reload =>
    exact joined_page h rfl rfl (fun f hf => nomatch hf) h.sent (fun _ _ hthis => hthis)
      fun hreadable => ⟨hreadable, fun r hr _ => hr⟩
  | damage =>
    refine joined_page h rfl rfl h.inFlight h.sent ?_ fun hreadable => absurd rfl hreadable
    rintro fingerprint requestId (⟨r, hr, _⟩ | hfetch)
    · exact nomatch hr
    · exact Or.inr hfetch
  | outside call =>
    refine joined_server h rfl rfl rfl (freshStep_placed lib w.server call h.placed)
      (fun k => (freshStep_rows lib w.server call k).1)
      (fun _ _ hc => freshStep_carries lib w.server call hc) ?_ fun a ha => Or.inl ha
    intro fingerprint requestId hissued hno hqueued
    rw [Queued, Bool.not_eq_true, Option.isSome_eq_false_iff, Option.isNone_iff_eq_none] at hno
    exact absurd ((freshStep_rows lib w.server call _).2 hno hqueued)
      (hapart fingerprint requestId hissued)

/-- What a step issues is known, or it is the new identifier of a payload without a receipt. -/
theorem step_issued {w : World} (h : Joined digest payloads w) (e : TabEvent)
    (fingerprint requestId : String)
    (hissued : Issued (tabStep lib digest w e).1 fingerprint requestId) :
    Issued w fingerprint requestId ∨
      w.stored ≠ .unreadable ∧ ∀ r ∈ w.stored.items, r.fingerprint ≠ fingerprint := by
  cases e with
  | send scope text images newId createdAt browser =>
    rcases started_issued (startSend_started digest w scope text images newId createdAt browser)
      fingerprint requestId hissued with hold | ⟨⟨hsame, _⟩, hreadable, hnone⟩
    · exact Or.inl hold
    · rw [hsame]
      exact Or.inr ⟨hreadable, hnone⟩
  | serve ticket available answers now =>
    dsimp only [tabStep] at hissued
    split at hissued
    · exact Or.inl hissued
    · exact Or.inl hissued
  | fault ticket status reason => exact Or.inl hissued
  | receive i browser =>
    dsimp only [tabStep] at hissued
    split at hissued
    · exact Or.inl hissued
    · exact Or.inl (continued_issued h (continueSend_continued w _ browser _) _ _ hissued)
  | lose ticket browser =>
    exact Or.inl (continued_issued h (continueSend_continued w none browser ticket) _ _ hissued)
  | reload => exact Or.inl hissued
  | damage =>
    rcases hissued with ⟨r, hr, _⟩ | hfetch
    · exact nomatch hr
    · exact Or.inl (Or.inr hfetch)
  | outside call => exact Or.inl hissued

/-- A row stays in the queue. -/
theorem step_queued (w : World) (e : TabEvent) {requestId : String} (h : Queued w requestId) :
    Queued (tabStep lib digest w e).1 requestId := by
  cases e with
  | send scope text images newId createdAt browser =>
    have hserver := started_server
      (startSend_started digest w scope text images newId createdAt browser)
    dsimp only [tabStep, Queued]
    rw [hserver]
    exact h
  | serve ticket available answers now =>
    dsimp only [tabStep]
    split
    · exact h
    · rename_i fetch hfetch
      rcases serve_call lib w.server fetch available answers now with hsame | ⟨_, hcall⟩
      · dsimp only [Queued]
        rw [hsame]
        exact h
      · dsimp only [Queued]
        rw [hcall]
        exact (freshStep_rows lib w.server _ _).1 h
  | fault ticket status reason => exact h
  | receive i browser =>
    dsimp only [tabStep]
    split
    · exact h
    · rename_i answer hanswer
      have hserver := continued_server
        (continueSend_continued w (some answer.reply) browser answer.ticket)
      dsimp only [Queued]
      rw [hserver]
      exact h
  | lose ticket browser =>
    have hserver := continued_server (continueSend_continued w none browser ticket)
    dsimp only [tabStep, Queued]
    rw [hserver]
    exact h
  | reload => exact h
  | damage => exact h
  | outside call => exact (freshStep_rows lib w.server call _).1 h

/-- A damaged storage stays damaged. -/
theorem step_unreadable (w : World) (e : TabEvent) (h : w.stored = .unreadable) :
    (tabStep lib digest w e).1.stored = .unreadable := by
  cases e with
  | send scope text images newId createdAt browser =>
    exact started_unreadable
      (startSend_started digest w scope text images newId createdAt browser) h
  | serve ticket available answers now =>
    dsimp only [tabStep]
    split
    · exact h
    · exact h
  | fault ticket status reason => exact h
  | receive i browser =>
    dsimp only [tabStep]
    split
    · exact h
    · exact continued_unreadable (continueSend_continued w _ browser _) h
  | lose ticket browser =>
    exact continued_unreadable (continueSend_continued w none browser ticket) h
  | reload => exact h
  | damage => rfl
  | outside call => exact h

variable (digest) in
/-- Every identifier of the payload has its delivery, and the receipt is still kept. -/
structure Settled (p : Payload) (w : World) : Prop where
  queued : ∀ requestId, Issued w (digest p) requestId → Queued w requestId
  kept : w.stored = .unreadable ∨ ∃ r ∈ w.stored.items, r.fingerprint = digest p

theorem settled_step {w : World} {e : TabEvent} {p : Payload} (h : Joined digest payloads w)
    (hopen : ¬ Acknowledges lib digest p w e) (hsettled : Settled digest p w) :
    Settled digest p (tabStep lib digest w e).1 := by
  constructor
  · intro requestId hissued
    rcases step_issued lib h e _ _ hissued with hold | ⟨hreadable, hnone⟩
    · exact step_queued lib w e (hsettled.queued requestId hold)
    · rcases hsettled.kept with hdamaged | ⟨r, hr, hthis⟩
      · exact absurd hdamaged hreadable
      · exact absurd hthis (hnone r hr)
  · rcases hsettled.kept with hdamaged | hrecord
    · exact Or.inl (step_unreadable lib w e hdamaged)
    · by_contra hnot
      rw [not_or] at hnot
      exact hopen ⟨hrecord, hnot.1, hnot.2⟩

/-- A settled payload gets no further delivery, and one that gets a delivery is settled. -/
theorem settled_creates {w : World} {e : TabEvent} {p : Payload} (h : Joined digest payloads w)
    (hcreates : creates p ⟨w, e, (tabStep lib digest w e).2, (tabStep lib digest w e).1⟩ = true) :
    ¬ Settled digest p w ∧ Settled digest p (tabStep lib digest w e).1 := by
  cases e with
  | serve ticket available answers now =>
    dsimp only [creates] at hcreates
    cases hfetch : w.fetches[ticket]? with
    | none =>
      rw [hfetch] at hcreates
      exact Bool.noConfusion hcreates
    | some fetch =>
      rw [hfetch] at hcreates
      simp only [Bool.and_eq_true, decide_eq_true_eq] at hcreates
      obtain ⟨⟨⟨_, rfl⟩, hfree⟩, hrow⟩ := hcreates
      have hmem := List.mem_of_getElem? hfetch
      have hown : Issued w (digest fetch.send.payload) fetch.send.request.requestId :=
        Or.inr ⟨fetch, hmem, (h.sent fetch hmem).2, rfl⟩
      have hno : ¬ Queued w fetch.send.request.requestId := by
        rw [Queued, Option.isNone_iff_eq_none.mp hfree]
        exact Bool.false_ne_true
      refine ⟨fun hsettled => hno (hsettled.queued _ hown), ?_, ?_⟩
      · intro requestId hissued
        have hold : Issued w (digest fetch.send.payload) requestId := by
          dsimp only [tabStep] at hissued
          rw [hfetch] at hissued
          exact hissued
        by_cases hqueued : Queued w requestId
        · exact step_queued lib w _ hqueued
        · rw [← h.oneOpen _ _ _ hown hold hno hqueued]
          exact hrow
      · have hstored : (tabStep lib digest w (.serve ticket available answers now)).1.stored =
            w.stored := by
          dsimp only [tabStep]
          rw [hfetch]
        rw [hstored]
        by_cases hreadable : w.stored = .unreadable
        · exact Or.inl hreadable
        · obtain ⟨r, hr, hthis, _⟩ := h.saved hreadable _ _ hown hno
          exact Or.inr ⟨r, hr, hthis⟩
  | _ => exact Bool.noConfusion hcreates

/-- A Send is reported as sent when the queue has its delivery. -/
theorem step_reported (hdigest : Separates digest payloads) {w : World} {e : TabEvent}
    {r : Returned} (h : Joined digest payloads w) (hreturned : (tabStep lib digest w e).2 = some r)
    (hok : r.report.ok = true) :
    ∃ request, r.request = some request ∧
      Carries (tabStep lib digest w e).1.server request.requestId r.payload := by
  have hcontinue : ∀ reply browser outcome, Continued w reply browser outcome →
      (∀ sendId status, reply = some (.receipt sendId status) →
        (w.server.queue.lookup sendId).isSome = true) → outcome.2 = some r →
      ∃ request, r.request = some request ∧
        Carries outcome.1.server request.requestId r.payload := by
    intro reply browser outcome hcontinued hreceipt hthis
    cases hcontinued with
    | idle => cases hthis
    | accepted f hf sends hsends status hreply =>
      cases hthis
      obtain ⟨g, hg, hsame⟩ := h.inFlight f hf
      obtain ⟨hpayload, hfingerprint⟩ := h.sent g hg
      rw [hsame] at hpayload hfingerprint
      have hown : Issued w (digest f.send.payload) f.send.request.requestId := by
        refine Or.inr ⟨g, hg, ?_⟩
        rw [hsame]
        exact ⟨hfingerprint, rfl⟩
      obtain ⟨p, hp, hdigests, hcarries⟩ := h.rows _ _ hown (hreceipt _ status hreply)
      obtain rfl := hdigest p hp _ hpayload hdigests
      exact ⟨f.send.request, rfl, hcarries⟩
    | returned f hf sends hsends report hreport =>
      cases hthis
      rw [hreport] at hok
      exact Bool.noConfusion hok
    | fetch f hf sends hsends phase method => cases hthis
  cases e with
  | send scope text images newId createdAt browser =>
    have hstarted := startSend_started digest w scope text images newId createdAt browser
    change (startSend digest w scope text images newId createdAt browser).2 = some r at hreturned
    rw [started_report hstarted hreturned] at hok
    exact Bool.noConfusion hok
  | receive i browser =>
    dsimp only [tabStep] at hreturned ⊢
    cases hanswer : w.answers[i]? with
    | none =>
      rw [hanswer] at hreturned
      cases hreturned
    | some answer =>
      rw [hanswer] at hreturned
      refine hcontinue _ _ _ (continueSend_continued w (some answer.reply) browser answer.ticket) ?_
        hreturned
      intro sendId status hreply
      exact h.answered answer (List.mem_of_getElem? hanswer) sendId status (Option.some.inj hreply)
  | lose ticket browser =>
    exact hcontinue _ _ _ (continueSend_continued w none browser ticket) (fun _ _ hreply =>
      nomatch hreply) hreturned
  | serve ticket available answers now =>
    dsimp only [tabStep] at hreturned
    split at hreturned
    · cases hreturned
    · cases hreturned
  | _ => cases hreturned

end Steps

section Run

variable (run : List TabEvent) (w : World)

theorem joined_run (hapart : Meets (tabStep lib digest) Apart w run)
    (hsent : ∀ e ∈ run, ∀ p ∈ sentPayload e, p ∈ payloads) (h : Joined digest payloads w) :
    Joined digest payloads (final (tabStep lib digest) w run) := by
  induction run generalizing w with
  | nil => exact h
  | cons e rest ih =>
    have hstep := joined_step lib w e hapart.1 (hsent e List.mem_cons_self) h
    exact ih _ hapart.2 (fun e' he => hsent e' (List.mem_cons_of_mem e he)) hstep

/-- No delivery is added to a settled payload, and at most one to any payload. -/
theorem creations_le {p : Payload} (hapart : Meets (tabStep lib digest) Apart w run)
    (hsent : ∀ e ∈ run, ∀ p ∈ sentPayload e, p ∈ payloads)
    (hopen : Meets (tabStep lib digest) (fun v e => ¬ Acknowledges lib digest p v e) w run)
    (h : Joined digest payloads w) :
    (Settled digest p w → creations lib digest p w run = 0) ∧ creations lib digest p w run ≤ 1 := by
  induction run generalizing w with
  | nil => exact ⟨fun _ => rfl, Nat.zero_le 1⟩
  | cons e rest ih =>
    have hstep := joined_step lib w e hapart.1 (hsent e List.mem_cons_self) h
    obtain ⟨hnone, hone⟩ := ih _ hapart.2 (fun e' he => hsent e' (List.mem_cons_of_mem e he))
      hopen.2 hstep
    unfold creations at hnone hone ⊢
    rw [events, List.countP_cons]
    constructor
    · intro hsettled
      rw [hnone (settled_step lib h hopen.1 hsettled), if_neg]
      intro hcreates
      exact (settled_creates lib h hcreates).1 hsettled
    · split
      · rename_i hcreates
        have hrest := hnone (settled_creates lib h hcreates).2
        omega
      · omega

end Run

end Invariant

/-- In any run of Sends, losses, reloads and storage errors, a payload gets at most one
delivery as long as its receipt is not taken out of the storage, and a Send is reported as
sent when the queue has the delivery of its payload. -/
theorem fresh_chats_sent_once (lib : Stdlib) (digest : Payload → String)
    (earlier later : List TabEvent)
    (hdigest : Separates digest ((earlier ++ later).filterMap sentPayload))
    (hapart : Meets (tabStep lib digest) Apart World.empty (earlier ++ later)) :
    (∀ p, Meets (tabStep lib digest) (fun w e => ¬ Acknowledges lib digest p w e)
        (final (tabStep lib digest) World.empty earlier) later →
      creations lib digest p (final (tabStep lib digest) World.empty earlier) later ≤ 1) ∧
    ∀ e ∈ events (tabStep lib digest) World.empty (earlier ++ later), ∀ r ∈ e.output,
      r.report.ok = true → ∃ request, r.request = some request ∧
        Carries e.post.server request.requestId r.payload := by
  have hsent : ∀ e ∈ earlier ++ later, ∀ p ∈ sentPayload e,
      p ∈ (earlier ++ later).filterMap sentPayload :=
    fun e he p hp => List.mem_filterMap.mpr ⟨e, he, hp⟩
  constructor
  · intro p hopen
    rw [meets_append] at hapart
    have hearlier := joined_run lib earlier World.empty hapart.1
      (fun e he => hsent e (List.mem_append_left later he)) joined_empty
    exact (creations_le lib later _ hapart.2
      (fun e he => hsent e (List.mem_append_right earlier he)) hopen hearlier).2
  · intro e he r hr hok
    obtain ⟨before, after, hevents⟩ := List.append_of_mem he
    obtain ⟨left, right, hrun, hpre, _, _⟩ := event_pre _ _ _ before after e hevents
    rw [hrun, meets_append] at hapart
    have hbefore := joined_run lib left World.empty hapart.1 (fun e' he' => hsent e' (by
      rw [hrun]
      exact List.mem_append_left _ he')) joined_empty
    have hstep := event_step _ _ _ e he
    rw [← hpre] at hbefore
    have hreported := step_reported (e := e.input) (r := r) lib hdigest hbefore
    rw [hstep] at hreported
    exact hreported hr hok

def helloPayload : Payload := ⟨"chat", ['h', 'i'], []⟩

def helloDigest (p : Payload) : String :=
  if p = helloPayload then
    "00000000000000000000000000000000ffffffffffffffffffffffffffffffff" else ""

/-- The answer to the first Send is lost with its page, a follow-up is merged, and the next
Send finds the receipt. The receipt cannot be taken out of the storage. -/
def helloTwice : List TabEvent :=
  [.send "chat" ['h', 'i'] [] "0123456789abcdef0123456789abcdef" 10 {},
    .serve 0 (fun _ => true) true 10,
    .reload,
    .outside (.service ⟨.reply (.queueFollowup "manual-0123456789abcdef0123456789abcdef"
      "followup-00000001" ['y', 'o'] true), 11⟩),
    .send "chat" [' ', 'h', 'i'] [] "fedcba9876543210fedcba9876543210" 12 {},
    .serve 1 (fun _ => true) true 12,
    .receive 1 { write := .thrown }]

/-- The identifiers in use are those of the receipts and the requests. -/
theorem issued_mem {w : World} {fingerprint requestId : String}
    (h : Issued w fingerprint requestId) :
    requestId ∈ w.stored.items.map PendingFreshRequest.requestId ++
      w.fetches.map fun f => f.send.request.requestId := by
  rcases h with ⟨r, hr, _, rfl⟩ | ⟨f, hf, _, rfl⟩
  · exact List.mem_append_left _ (List.mem_map_of_mem hr)
  · exact List.mem_append_right _ (List.mem_map_of_mem (f := fun f : Fetch =>
      f.send.request.requestId) hf)

/-- A check of the identifiers. Other calls are to queue nothing. -/
def drawsNew (w : World) : TabEvent → Bool
  | .send _ _ _ newId _ _ =>
    (w.server.queue.lookup (manualSendId newId)).isNone &&
      decide (newId ∉ w.stored.items.map PendingFreshRequest.requestId ++
        w.fetches.map fun f => f.send.request.requestId)
  | .outside call => (queuesUnder call).isNone
  | _ => true

theorem apart_of_drawsNew {w : World} {e : TabEvent} (h : drawsNew w e = true) : Apart w e := by
  cases e with
  | send scope text images newId createdAt browser =>
    simp only [drawsNew, Bool.and_eq_true, Option.isNone_iff_eq_none, decide_eq_true_eq] at h
    refine ⟨?_, fun fingerprint hissued => h.2 (issued_mem hissued)⟩
    rw [Queued, h.1]
    exact Bool.false_ne_true
  | outside call =>
    intro fingerprint requestId _ hqueues
    simp only [drawsNew, Option.isNone_iff_eq_none] at h
    rw [h] at hqueues
    cases hqueues
  | _ => exact True.intro

theorem fresh_chat_sent_again :
    let s := tabStep plainLib helloDigest
    creations plainLib helloDigest helloPayload World.empty helloTwice ≤ 1 ∧
      ∃ e ∈ events s World.empty helloTwice, ∃ r ∈ e.output, r.report.ok = true ∧
        ∃ request, r.request = some request ∧
          Carries e.post.server request.requestId r.payload := by
  intro s
  have hdigest : Separates helloDigest (([] ++ helloTwice).filterMap sentPayload) := by
    have hlist : ([] ++ helloTwice).filterMap sentPayload = [helloPayload, helloPayload] := by
      decide +kernel
    rw [hlist]
    intro p hp q hq _
    simp only [List.mem_cons, List.not_mem_nil, or_false, or_self] at hp hq
    rw [hp, hq]
  have hapart : Meets s Apart World.empty ([] ++ helloTwice) := by
    have hnew : ∀ e ∈ events s World.empty ([] ++ helloTwice), drawsNew e.pre e.input = true := by
      decide +kernel
    exact (meets_iff_events s Apart World.empty _).mpr fun e he => apart_of_drawsNew (hnew e he)
  obtain ⟨honce, hreported⟩ := fresh_chats_sent_once plainLib helloDigest [] helloTwice hdigest
    hapart
  have hkept : ∀ e ∈ events s World.empty helloTwice,
      ∃ r ∈ e.post.stored.items, r.fingerprint = helloDigest helloPayload := by decide +kernel
  constructor
  · simp only [final] at honce
    apply honce helloPayload
    rw [meets_iff_events]
    intro e he hgone
    have hstep : tabStep plainLib helloDigest e.pre e.input = (e.post, e.output) :=
      event_step s World.empty helloTwice e he
    have hrecord := hgone.2.2
    rw [hstep] at hrecord
    exact hrecord (hkept e he)
  · have hsome : (events s World.empty helloTwice).any (fun e => e.output.any fun r =>
        r.report.ok) = true := by decide +kernel
    obtain ⟨e, hmem, hany⟩ := List.any_eq_true.mp hsome
    obtain ⟨r, hr, hok⟩ := (Option.any_eq_true _ _).mp hany
    exact ⟨e, hmem, r, hr, hok, hreported e hmem r hr hok⟩

end Prompta.FreshSends
