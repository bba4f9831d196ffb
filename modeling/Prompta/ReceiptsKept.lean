import Prompta.PendingReceipts
import Prompta.ReceiptBooks

/-!
The two lists of receipts as books. Each operation of the tab steps both books, so a receipt
stays until its identifier is acknowledged, whatever the storage does meanwhile. The slots of
older versions are kept in the same way.
-/
namespace Prompta.PendingReceipts

open Runs Texts FreshQueueReceipt ReceiptBooks

/-- A receipt of either list. -/
structure Receipt where
  fingerprint : String
  id : String
  createdAt : ℕ
  deriving DecidableEq, Repr

inductive Book
  | fresh
  | replies
  deriving DecidableEq, Repr

def freshReceipt (entry : PendingFreshRequest) : Receipt :=
  ⟨entry.fingerprint, entry.requestId, entry.createdAt⟩

def replyReceipt (entry : PendingExactReply) : Receipt :=
  ⟨entry.fingerprint, entry.replyId, entry.createdAt⟩

def Storage.receipts (s : Storage) : Book → List Receipt
  | .fresh => s.fresh.items.map freshReceipt
  | .replies => s.replies.items.map replyReceipt

def Payload.book : Payload → Book
  | .fresh _ _ _ => .fresh
  | _ => .replies

/-- The fingerprint that an operation asks for in a book. -/
def Op.asked (sha256 : Text → String) (book : Book) : Op → Option String
  | .request payload _ _ => if payload.book = book then some (sha256 payload.encoded) else none
  | _ => none

/-- The receipt of a book that an operation acknowledges. -/
def Op.acked (book : Book) : Op → Option (String × String)
  | .request _ _ _ => none
  | .acknowledgeFresh fingerprint requestId =>
    if book = .fresh then some (fingerprint, requestId) else none
  | .acknowledgeExact fingerprint replyId =>
    if book = .replies then some (fingerprint, replyId) else none
  | .acknowledgeFollowup _ fingerprint replyId =>
    if book = .replies then some (fingerprint, replyId) else none

def Op.acknowledges : Op → Option String
  | .request _ _ _ => none
  | .acknowledgeFresh _ requestId => some requestId
  | .acknowledgeExact _ replyId => some replyId
  | .acknowledgeFollowup _ _ replyId => some replyId

theorem acked_acknowledges {op : Op} {book : Book} {fingerprint id : String}
    (h : op.acked book = some (fingerprint, id)) : op.acknowledges = some id := by
  cases op with
  | request => cases h
  | acknowledgeFresh | acknowledgeExact | acknowledgeFollowup =>
    simp only [Op.acked] at h
    split at h
    · obtain ⟨_, rfl⟩ := Prod.mk.inj (Option.some.inj h)
      rfl
    · cases h

section Books

abbrev ReceiptStep := BookStep Receipt.fingerprint Receipt.id

/-- A request for a new chat is a step of its book. -/
theorem fresh_requested_step {stored : Stored} {fingerprint newId : String} {createdAt : ℕ}
    {outcome : Stored × Except ReceiptError FreshRequest}
    (h : Requested stored fingerprint newId createdAt outcome) :
    ReceiptStep (some fingerprint) none (stored.items.map freshReceipt)
      (outcome.1.items.map freshReceipt) := by
  cases h with
  | refused e => exact BookStep.same _
  | reused entry => exact BookStep.same _
  | saved outcome hreadable hnew houtcome =>
    show ReceiptStep _ _ _ (List.map freshReceipt (_ ++ _))
    rw [List.map_append]
    refine BookStep.added _ (freshReceipt ⟨fingerprint, newId, createdAt⟩) rfl ?_
    intro x hx
    obtain ⟨entry, hmem, rfl⟩ := List.mem_map.mp hx
    exact hnew entry hmem

/-- A request for a follow-up is a step of its book. -/
theorem reply_requested_step {stored : StoredReplies} {fingerprint : String}
    {outcome : StoredReplies × Except ReplyReceiptError ReplyRequest}
    (h : ReplyRequested stored fingerprint outcome) :
    ReceiptStep (some fingerprint) none (stored.items.map replyReceipt)
      (outcome.1.items.map replyReceipt) := by
  cases h with
  | refused e => exact BookStep.same _
  | reused entry => exact BookStep.same _
  | saved replyId reused createdAt outcome hnew houtcome =>
    show ReceiptStep _ _ _ (List.map replyReceipt (_ ++ _))
    rw [List.map_append]
    refine BookStep.added _ (replyReceipt ⟨fingerprint, replyId, createdAt⟩) rfl ?_
    intro x hx
    obtain ⟨entry, hmem, rfl⟩ := List.mem_map.mp hx
    exact hnew entry hmem

/-- An acknowledgement takes out the receipt that it names, or none. -/
theorem fresh_acknowledged_step (stored : Stored) (browser : Browser)
    (fingerprint requestId : String) :
    ReceiptStep none (some (fingerprint, requestId)) (stored.items.map freshReceipt)
      ((acknowledgeFreshQueueRequest stored browser fingerprint requestId).items.map
        freshReceipt) := by
  unfold acknowledgeFreshQueueRequest clearFreshRequest
  cases hrecords : records stored browser.reads with
  | error e => exact BookStep.same _
  | ok saved =>
    obtain ⟨rfl, _⟩ := records_ok hrecords
    dsimp only
    rcases (persist_cases stored (stored.items.filter fun entry =>
      decide (entry.fingerprint ≠ fingerprint ∨ entry.requestId ≠ requestId))
      browser.write).1 with hsame | hsaved
    · rw [hsame]
      exact BookStep.same _
    · have hremoved : List.map freshReceipt (stored.items.filter fun entry =>
            decide (entry.fingerprint ≠ fingerprint ∨ entry.requestId ≠ requestId)) =
          takeOut Receipt.fingerprint Receipt.id fingerprint requestId
            (stored.items.map freshReceipt) := by
        rw [takeOut, List.filter_map]
        rfl
      rw [hsaved]
      show ReceiptStep _ _ _ (List.map freshReceipt (List.filter _ _))
      rw [hremoved]
      exact BookStep.removed _ fingerprint requestId rfl

/-- So does that of a follow-up. -/
theorem reply_acknowledged_step (stored : StoredReplies) (browser : Browser)
    (fingerprint replyId : String) :
    ReceiptStep none (some (fingerprint, replyId)) (stored.items.map replyReceipt)
      ((acknowledgeExactReplyRequest stored browser fingerprint replyId).items.map
        replyReceipt) := by
  unfold acknowledgeExactReplyRequest clearReplyRequest
  cases hrecords : replyRecords stored browser.reads with
  | error e => exact BookStep.same _
  | ok saved =>
    obtain ⟨rfl, _⟩ := replyRecords_ok hrecords
    dsimp only
    rcases (persistReplies_cases stored (stored.items.filter fun entry =>
      decide (entry.fingerprint ≠ fingerprint ∨ entry.replyId ≠ replyId))
      browser.write).1 with hsame | hsaved
    · rw [hsame]
      exact BookStep.same _
    · have hremoved : List.map replyReceipt (stored.items.filter fun entry =>
            decide (entry.fingerprint ≠ fingerprint ∨ entry.replyId ≠ replyId)) =
          takeOut Receipt.fingerprint Receipt.id fingerprint replyId
            (stored.items.map replyReceipt) := by
        rw [takeOut, List.filter_map]
        rfl
      rw [hsaved]
      show ReceiptStep _ _ _ (List.map replyReceipt (List.filter _ _))
      rw [hremoved]
      exact BookStep.removed _ fingerprint replyId rfl

end Books

section Operations

variable (sha256 : Text → String) (s : Storage) (call : Call)

/-- Every operation steps both books. -/
theorem step_book (book : Book) :
    ReceiptStep (call.op.asked sha256 book) (call.op.acked book) (s.receipts book)
      ((step sha256 s call).1.receipts book) := by
  obtain ⟨op, device⟩ := call
  cases op with
  | request payload newId createdAt =>
    cases payload with
    | fresh scope prompt images =>
      cases book with
      | fresh =>
        exact fresh_requested_step (freshQueueRequest_requested s.fresh _ _ newId createdAt)
      | replies => exact BookStep.same _
    | exact sendId conversationId parentId text =>
      cases book with
      | fresh => exact BookStep.same _
      | replies =>
        have h := followup_requested s.replies .empty ⟨device.toBrowser, true, true⟩
          (sha256 (Payload.exact sendId conversationId parentId text).encoded) [] newId createdAt
        rw [← exact_eq_followup] at h
        exact reply_requested_step h
    | followup sendId text =>
      cases book with
      | fresh => exact BookStep.same _
      | replies =>
        exact reply_requested_step
          (followup_requested s.replies (s.legacy sendId) device _ text newId createdAt)
  | acknowledgeFresh fingerprint requestId =>
    cases book with
    | fresh => exact fresh_acknowledged_step s.fresh device.toBrowser fingerprint requestId
    | replies => exact BookStep.same _
  | acknowledgeExact fingerprint replyId =>
    cases book with
    | fresh => exact BookStep.same _
    | replies => exact reply_acknowledged_step s.replies device.toBrowser fingerprint replyId
  | acknowledgeFollowup sendId fingerprint replyId =>
    cases book with
    | fresh => exact BookStep.same _
    | replies => exact reply_acknowledged_step s.replies device.toBrowser fingerprint replyId

/-- The slot of an older version is cleared by an acknowledgement of its identifier only. -/
theorem step_legacy (chat : Text) :
    (step sha256 s call).1.legacy chat = s.legacy chat ∨
      ∃ value id, s.legacy chat = .entry value ∧ value.replyId = some id ∧
        call.op.acknowledges = some id := by
  obtain ⟨op, device⟩ := call
  cases op with
  | request payload newId createdAt => cases payload <;> exact Or.inl rfl
  | acknowledgeFresh | acknowledgeExact => exact Or.inl rfl
  | acknowledgeFollowup sendId fingerprint replyId =>
    show Function.update s.legacy sendId _ chat = _ ∨ _
    by_cases hchat : chat = sendId
    · subst hchat
      rw [Function.update_self]
      cases hlegacy : s.legacy chat with
      | empty | unparsable => exact Or.inl rfl
      | entry value =>
        by_cases hid : value.replyId = some replyId
        · exact Or.inr ⟨value, replyId, rfl, hid, rfl⟩
        · apply Or.inl
          simp only [clearLegacy]
          rw [decide_eq_false hid, Bool.and_false, if_neg Bool.false_ne_true]
    · exact Or.inl (Function.update_of_ne hchat _ _)

/-- A slot that cannot be read or cleared stays. -/
theorem step_slot_fails
    (hfails : (call.device.readsLegacy && call.device.removesLegacy) = false) :
    (step sha256 s call).1.legacy = s.legacy := by
  obtain ⟨op, device⟩ := call
  cases op with
  | request payload newId createdAt => cases payload <;> rfl
  | acknowledgeFresh | acknowledgeExact => rfl
  | acknowledgeFollowup sendId fingerprint replyId =>
    have hslot : clearLegacy (s.legacy sendId) device replyId = s.legacy sendId := by
      unfold clearLegacy
      split
      · rw [hfails, Bool.false_and, if_neg Bool.false_ne_true]
      · rfl
    show Function.update s.legacy sendId (clearLegacy (s.legacy sendId) device replyId) = s.legacy
    rw [hslot, Function.update_eq_self]

end Operations

section Given

theorem freshQueueRequest_nodup {stored : Stored} {browser : Browser} {fingerprint newId : String}
    {createdAt : ℕ} {request : FreshRequest}
    (h : (freshQueueRequest stored browser fingerprint newId createdAt).2 = .ok request) :
    (stored.items.map PendingFreshRequest.fingerprint).Nodup := by
  unfold freshQueueRequest at h
  split at h
  · cases h
  cases hrecords : records stored browser.reads with
  | error e =>
    rw [hrecords] at h
    cases h
  | ok saved => exact records_nodup hrecords

/-- A given identifier is the one in the book, and it was before where there was one. -/
theorem fresh_given {stored : Stored} {fingerprint newId : String} {createdAt : ℕ}
    {outcome : Stored × Except ReceiptError FreshRequest} {request : FreshRequest}
    (h : Requested stored fingerprint newId createdAt outcome)
    (hunique : (stored.items.map PendingFreshRequest.fingerprint).Nodup)
    (hgiven : outcome.2 = .ok request) :
    (∃ e ∈ outcome.1.items, e.fingerprint = fingerprint ∧ e.requestId = request.requestId) ∧
      ∀ e ∈ stored.items, e.fingerprint = fingerprint → e.requestId = request.requestId := by
  cases h with
  | refused e => cases hgiven
  | reused entry hmem hentry =>
    obtain rfl := Except.ok.inj hgiven
    refine ⟨⟨entry, hmem, hentry, rfl⟩, ?_⟩
    intro e he hkey
    rw [unique_receipt hunique he hmem (hkey.trans hentry.symm)]
  | saved outcome hreadable hnew houtcome =>
    obtain rfl := houtcome request hgiven
    refine ⟨⟨_, List.mem_append_right _ List.mem_cons_self, rfl, rfl⟩, ?_⟩
    intro e he hkey
    exact absurd hkey (hnew e he)

/-- The identifier that is given is saved, and is that of the saved receipt if there was one. -/
theorem reply_given {stored : StoredReplies} {fingerprint : String}
    {outcome : StoredReplies × Except ReplyReceiptError ReplyRequest} {request : ReplyRequest}
    (h : ReplyRequested stored fingerprint outcome) (hgiven : outcome.2 = .ok request) :
    (∃ e ∈ outcome.1.items, e.fingerprint = fingerprint ∧ e.replyId = request.replyId) ∧
      ∀ e ∈ stored.items, e.fingerprint = fingerprint → e.replyId = request.replyId := by
  cases h with
  | refused e => cases hgiven
  | reused entry hmem hentry hunique =>
    obtain rfl := Except.ok.inj hgiven
    refine ⟨⟨entry, hmem, hentry, rfl⟩, ?_⟩
    intro e he hkey
    rw [unique_receipt hunique he hmem (hkey.trans hentry.symm)]
  | saved replyId reused createdAt outcome hnew houtcome =>
    obtain rfl := houtcome request hgiven
    refine ⟨⟨_, List.mem_append_right _ List.mem_cons_self, rfl, rfl⟩, ?_⟩
    intro e he hkey
    exact absurd hkey (hnew e he)

variable {sha256 : Text → String} {s : Storage} {device : Device} {payload : Payload}
  {newId id : String} {createdAt : ℕ}

/-- The same of both books. -/
theorem request_given (h : (request sha256 s device payload newId createdAt).2.given = some id) :
    (∃ r ∈ (request sha256 s device payload newId createdAt).1.receipts payload.book,
        r.fingerprint = sha256 payload.encoded ∧ r.id = id) ∧
      ∀ r ∈ s.receipts payload.book, r.fingerprint = sha256 payload.encoded → r.id = id := by
  have hreplies : ∀ {outcome : StoredReplies × Except ReplyReceiptError ReplyRequest},
      ReplyRequested s.replies (sha256 payload.encoded) outcome →
      (withReplies s outcome).2.given = some id →
      (∃ r ∈ outcome.1.items.map replyReceipt,
          r.fingerprint = sha256 payload.encoded ∧ r.id = id) ∧
        ∀ r ∈ s.receipts .replies, r.fingerprint = sha256 payload.encoded → r.id = id := by
    intro outcome hrequested hid
    cases houtcome : outcome.2 with
    | error e =>
      rw [withReplies, houtcome] at hid
      cases hid
    | ok request =>
      rw [withReplies, houtcome] at hid
      obtain rfl := Option.some.inj hid
      obtain ⟨⟨e, he, hkey, hident⟩, hknown⟩ := reply_given hrequested houtcome
      refine ⟨⟨replyReceipt e, List.mem_map_of_mem he, hkey, hident⟩, ?_⟩
      intro r hr hfingerprint
      obtain ⟨entry, hentry, rfl⟩ := List.mem_map.mp hr
      exact hknown entry hentry hfingerprint
  cases payload with
  | fresh scope prompt images =>
    simp only [request] at h
    cases houtcome : (freshQueueRequest s.fresh device.toBrowser
        (sha256 (Payload.fresh scope prompt images).encoded) newId createdAt).2 with
    | error e =>
      rw [houtcome] at h
      cases h
    | ok given =>
      rw [houtcome] at h
      obtain rfl := Option.some.inj h
      obtain ⟨⟨e, he, hkey, hident⟩, hknown⟩ := fresh_given
        (freshQueueRequest_requested s.fresh device.toBrowser _ newId createdAt)
        (freshQueueRequest_nodup houtcome) houtcome
      refine ⟨⟨freshReceipt e, List.mem_map_of_mem he, hkey, hident⟩, ?_⟩
      intro r hr hfingerprint
      obtain ⟨entry, hentry, rfl⟩ := List.mem_map.mp hr
      exact hknown entry hentry hfingerprint
  | exact sendId conversationId parentId text =>
    refine hreplies ?_ h
    rw [exact_eq_followup]
    exact followup_requested s.replies .empty _ _ [] newId createdAt
  | followup sendId text =>
    exact hreplies (followup_requested s.replies (s.legacy sendId) device _ text newId createdAt) h

end Given

section Untouched

/-- The storage fails where the receipts are read or written. -/
def Browser.storageFails (browser : Browser) : Prop :=
  browser.reads = false ∨ browser.write = .thrown ∨ browser.write = .dropped

theorem persist_fails (stored : Stored) (items : List PendingFreshRequest) {write : Write}
    (h : write = .thrown ∨ write = .dropped) : (persist stored items write).1 = stored := by
  unfold persist
  split
  · rfl
  · rcases h with rfl | rfl <;> rfl

theorem persistReplies_fails (stored : StoredReplies) (items : List PendingExactReply)
    {write : Write} (h : write = .thrown ∨ write = .dropped) :
    (persistReplies stored items write).1 = stored := by
  unfold persistReplies
  split
  · rfl
  · rcases h with rfl | rfl <;> rfl

theorem records_fails (stored : Stored) {reads : Bool} (h : reads = false) :
    records stored reads = .error .cannotRead := by
  subst h
  rfl

theorem replyRecords_fails (stored : StoredReplies) {reads : Bool} (h : reads = false) :
    replyRecords stored reads = .error .cannotRead := by
  subst h
  rfl

variable {browser : Browser} (hfails : Browser.storageFails browser)
include hfails

theorem freshQueueRequest_fails (stored : Stored) (fingerprint newId : String) (createdAt : ℕ) :
    (freshQueueRequest stored browser fingerprint newId createdAt).1 = stored := by
  unfold freshQueueRequest
  split
  · rfl
  rcases hfails with hreads | hwrite
  · rw [records_fails stored hreads]
  · cases records stored browser.reads with
    | error e => rfl
    | ok saved =>
      dsimp only
      split
      · rfl
      · have hkept := persist_fails stored (saved ++ [⟨fingerprint, newId, createdAt⟩]) hwrite
        split <;> rename_i hpersist <;> rw [hpersist] at hkept <;> exact hkept

theorem acknowledgeFresh_fails (stored : Stored) (fingerprint requestId : String) :
    acknowledgeFreshQueueRequest stored browser fingerprint requestId = stored := by
  unfold acknowledgeFreshQueueRequest clearFreshRequest
  rcases hfails with hreads | hwrite
  · rw [records_fails stored hreads]
  · cases records stored browser.reads with
    | error e => rfl
    | ok saved => exact persist_fails stored _ hwrite

/-- A storage that fails leaves the list of a follow-up as it was. -/
theorem followupRequest_fails (stored : StoredReplies) (legacy : Legacy)
    (readsLegacy removesLegacy : Bool) (fingerprint : String) (text : Text) (newId : String)
    (createdAt : ℕ) :
    (pendingQueuedFollowupRequest stored legacy ⟨browser, readsLegacy, removesLegacy⟩ fingerprint
      text newId createdAt).1 = stored := by
  unfold pendingQueuedFollowupRequest
  split
  · rfl
  rcases hfails with hreads | hwrite
  · rw [replyRecords_fails stored hreads]
  · cases replyRecords stored browser.reads with
    | error e => rfl
    | ok saved =>
      dsimp only
      split
      · rfl
      · split
        · rfl
        · rename_i known _
          have hkept := persistReplies_fails stored
            (saved ++ [⟨fingerprint, known.getD newId, createdAt⟩]) hwrite
          unfold saveReply
          split <;> rename_i hpersist <;> rw [hpersist] at hkept <;> exact hkept

theorem acknowledgeExact_fails (stored : StoredReplies) (fingerprint replyId : String) :
    acknowledgeExactReplyRequest stored browser fingerprint replyId = stored := by
  unfold acknowledgeExactReplyRequest clearReplyRequest
  rcases hfails with hreads | hwrite
  · rw [replyRecords_fails stored hreads]
  · cases replyRecords stored browser.reads with
    | error e => rfl
    | ok saved => exact persistReplies_fails stored _ hwrite

end Untouched

section Unread

def Storage.readable (s : Storage) : Book → Bool
  | .fresh => (records s.fresh true).isOk
  | .replies => (replyRecords s.replies true).isOk

/-- The call takes out a receipt that is stored, and cannot read back what it has written. -/
def Call.clearsUnread (s : Storage) (call : Call) : Prop :=
  call.device.reads = true ∧ call.device.write = .keptUnread ∧ ∃ book, s.readable book = true ∧
    ∃ r ∈ s.receipts book, call.op.acked book = some (r.fingerprint, r.id)

/-- Where the operation fails, the receipts stay in their places. -/
def failureKeeps (sha256 : Text → String) (s : Storage) (call : Call) : Prop :=
  (step sha256 s call).2.failed = true →
    ∀ book, s.receipts book <+: (step sha256 s call).1.receipts book

theorem records_bounded {stored : Stored} {reads : Bool} {saved : List PendingFreshRequest}
    (h : records stored reads = .ok saved) : reads = true ∧ saved.length ≤ maxRecords := by
  unfold records at h
  split at h
  · cases h
  rename_i hreads
  refine ⟨by simpa using hreads, ?_⟩
  cases stored with
  | absent =>
    obtain rfl := Except.ok.inj h
    exact Nat.zero_le _
  | unreadable => cases h
  | saved items =>
    dsimp only at h
    split at h
    · cases h
    · rename_i hvalid
      rw [not_or] at hvalid
      obtain rfl := Except.ok.inj h
      exact Nat.le_of_not_lt hvalid.1

theorem replyRecords_bounded {stored : StoredReplies} {reads : Bool}
    {saved : List PendingExactReply} (h : replyRecords stored reads = .ok saved) :
    reads = true ∧ saved.length ≤ maxRecords := by
  unfold replyRecords at h
  split at h
  · cases h
  rename_i hreads
  refine ⟨by simpa using hreads, ?_⟩
  cases stored with
  | absent =>
    obtain rfl := Except.ok.inj h
    exact Nat.zero_le _
  | unreadable => cases h
  | saved items =>
    dsimp only at h
    split at h
    · cases h
    · rename_i hvalid
      rw [not_or] at hvalid
      obtain rfl := Except.ok.inj h
      exact Nat.le_of_not_lt hvalid.1

/-- A write that fails has left the list as it was, or cannot read back what it has written. -/
theorem persist_failed {stored : Stored} {items : List PendingFreshRequest} {write : Write}
    {e : ReceiptError} (h : (persist stored items write).2 = .error e) :
    (persist stored items write).1 = stored ∨
      write = .keptUnread ∧ (persist stored items write).1 = .saved items := by
  unfold persist at h ⊢
  by_cases hfull : maxRecords < items.length
  · rw [if_pos hfull]
    exact Or.inl rfl
  rw [if_neg hfull] at h ⊢
  cases write with
  | kept => cases h
  | thrown | dropped => exact Or.inl rfl
  | keptUnread => exact Or.inr ⟨rfl, rfl⟩

/-- A write that throws has changed nothing, or is kept and could not be read back. -/
theorem persistReplies_failed {stored : StoredReplies} {items : List PendingExactReply}
    {write : Write} {e : ReplyReceiptError} (h : (persistReplies stored items write).2 = .error e) :
    (persistReplies stored items write).1 = stored ∨
      write = .keptUnread ∧ (persistReplies stored items write).1 = .saved items := by
  unfold persistReplies at h ⊢
  by_cases hfull : maxRecords < items.length
  · rw [if_pos hfull]
    exact Or.inl rfl
  rw [if_neg hfull] at h ⊢
  cases write with
  | kept => cases h
  | thrown | dropped => exact Or.inl rfl
  | keptUnread => exact Or.inr ⟨rfl, rfl⟩

/-- A clearing that fails has left the list as it was, or taken the receipt out unread. -/
theorem clearFresh_failed {stored : Stored} {browser : Browser} {fingerprint requestId : String}
    {e : ReceiptError}
    (h : (clearFreshRequest stored browser fingerprint requestId).2 = .error e) :
    (clearFreshRequest stored browser fingerprint requestId).1 = stored ∨
      browser.reads = true ∧ browser.write = .keptUnread ∧ (records stored true).isOk = true ∧
        (clearFreshRequest stored browser fingerprint requestId).1.items.map freshReceipt =
          takeOut Receipt.fingerprint Receipt.id fingerprint requestId
            (stored.items.map freshReceipt) := by
  unfold clearFreshRequest at h ⊢
  cases hrecords : records stored browser.reads with
  | error e => exact Or.inl rfl
  | ok saved =>
    obtain ⟨rfl, _⟩ := records_ok hrecords
    rw [hrecords] at h
    rcases persist_failed h with hsame | ⟨hwrite, hsaved⟩
    · exact Or.inl hsame
    · obtain ⟨hreads, _⟩ := records_bounded hrecords
      rw [hreads] at hrecords
      refine Or.inr ⟨hreads, hwrite, by rw [hrecords]; rfl, ?_⟩
      rw [hsaved, takeOut, List.filter_map]
      rfl

/-- Such a clearing fails. -/
theorem clearFresh_unread {stored : Stored} {browser : Browser} (fingerprint requestId : String)
    (hreads : browser.reads = true) (hwrite : browser.write = .keptUnread)
    (hreadable : (records stored true).isOk = true) :
    (clearFreshRequest stored browser fingerprint requestId).2 = .error .cannotSave ∧
      (clearFreshRequest stored browser fingerprint requestId).1.items.map freshReceipt =
        takeOut Receipt.fingerprint Receipt.id fingerprint requestId
          (stored.items.map freshReceipt) := by
  unfold clearFreshRequest
  cases hrecords : records stored true with
  | error e =>
    rw [hrecords] at hreadable
    cases hreadable
  | ok saved =>
    obtain ⟨rfl, _⟩ := records_ok hrecords
    obtain ⟨_, hbound⟩ := records_bounded hrecords
    rw [hreads, hrecords]
    unfold persist
    dsimp only
    rw [if_neg (Nat.not_lt.mpr (Nat.le_trans (List.length_filter_le _ _) hbound)), hwrite]
    refine ⟨rfl, ?_⟩
    rw [takeOut, List.filter_map]
    rfl

/-- An acknowledgement that throws has changed nothing, or has taken the receipt out and could not
read that back. -/
theorem clearReply_failed {stored : StoredReplies} {browser : Browser}
    {fingerprint replyId : String} {e : ReplyReceiptError}
    (h : (clearReplyRequest stored browser fingerprint replyId).2 = .error e) :
    (clearReplyRequest stored browser fingerprint replyId).1 = stored ∨
      browser.reads = true ∧ browser.write = .keptUnread ∧
        (replyRecords stored true).isOk = true ∧
        (clearReplyRequest stored browser fingerprint replyId).1.items.map replyReceipt =
          takeOut Receipt.fingerprint Receipt.id fingerprint replyId
            (stored.items.map replyReceipt) := by
  unfold clearReplyRequest at h ⊢
  cases hrecords : replyRecords stored browser.reads with
  | error e => exact Or.inl rfl
  | ok saved =>
    obtain ⟨rfl, _⟩ := replyRecords_ok hrecords
    rw [hrecords] at h
    rcases persistReplies_failed h with hsame | ⟨hwrite, hsaved⟩
    · exact Or.inl hsame
    · obtain ⟨hreads, _⟩ := replyRecords_bounded hrecords
      rw [hreads] at hrecords
      refine Or.inr ⟨hreads, hwrite, by rw [hrecords]; rfl, ?_⟩
      rw [hsaved, takeOut, List.filter_map]
      rfl

/-- The write that is kept and cannot be read back takes the receipt out. -/
theorem clearReply_unread {stored : StoredReplies} {browser : Browser}
    (fingerprint replyId : String) (hreads : browser.reads = true)
    (hwrite : browser.write = .keptUnread) (hreadable : (replyRecords stored true).isOk = true) :
    (clearReplyRequest stored browser fingerprint replyId).2 = .error .cannotSave ∧
      (clearReplyRequest stored browser fingerprint replyId).1.items.map replyReceipt =
        takeOut Receipt.fingerprint Receipt.id fingerprint replyId
          (stored.items.map replyReceipt) := by
  unfold clearReplyRequest
  cases hrecords : replyRecords stored true with
  | error e =>
    rw [hrecords] at hreadable
    cases hreadable
  | ok saved =>
    obtain ⟨rfl, _⟩ := replyRecords_ok hrecords
    obtain ⟨_, hbound⟩ := replyRecords_bounded hrecords
    rw [hreads, hrecords]
    unfold persistReplies
    dsimp only
    rw [if_neg (Nat.not_lt.mpr (Nat.le_trans (List.length_filter_le _ _) hbound)), hwrite]
    refine ⟨rfl, ?_⟩
    rw [takeOut, List.filter_map]
    rfl

/-- What holds of a call that clears a receipt from one book. -/
theorem keeps_iff_of_clearing {s s' : Storage} {call : Call} {book : Book}
    {fingerprint id : String} {failed : Prop}
    (hacked : ∀ b, call.op.acked b = if b = book then some (fingerprint, id) else none)
    (hother : ∀ b, b ≠ book → s'.receipts b = s.receipts b)
    (hfailed : failed → s'.receipts book = s.receipts book ∨
      call.device.reads = true ∧ call.device.write = .keptUnread ∧ s.readable book = true ∧
        s'.receipts book =
          takeOut Receipt.fingerprint Receipt.id fingerprint id (s.receipts book))
    (hunread : call.device.reads = true → call.device.write = .keptUnread →
      s.readable book = true → failed ∧ s'.receipts book =
        takeOut Receipt.fingerprint Receipt.id fingerprint id (s.receipts book)) :
    (failed → ∀ b, s.receipts b <+: s'.receipts b) ↔ ¬call.clearsUnread s := by
  constructor
  · rintro hkeeps ⟨hreads, hwrite, b, hreadable, r, hr, hcleared⟩
    rw [hacked] at hcleared
    split at hcleared
    · rename_i hbook
      subst hbook
      obtain ⟨rfl, rfl⟩ := Prod.mk.inj (Option.some.inj hcleared)
      obtain ⟨hfails, htaken⟩ := hunread hreads hwrite hreadable
      have hprefix := hkeeps hfails b
      rw [htaken, prefix_takeOut] at hprefix
      rcases hprefix r hr with h | h
      · exact h rfl
      · exact h rfl
    · cases hcleared
  · intro hread hfails b
    by_cases hb : b = book
    · subst hb
      rcases hfailed hfails with hsame | ⟨hreads, hwrite, hreadable, htaken⟩
      · rw [hsame]
      · rw [htaken, prefix_takeOut]
        intro r hr
        by_contra hsame
        rw [not_or, not_not, not_not] at hsame
        refine hread ⟨hreads, hwrite, b, hreadable, r, hr, ?_⟩
        rw [hacked, if_pos rfl, hsame.1, hsame.2]
    · rw [hother b hb]

theorem error_of_failed {α β : Type} {outcome : Except α β} {failed : Bool}
    (h : failed = true) (hok : ∀ b, outcome = .ok b → failed = false) :
    ∃ e, outcome = .error e := by
  cases outcome with
  | error e => exact ⟨e, rfl⟩
  | ok b =>
    rw [hok b rfl] at h
    cases h

theorem failureKeeps_iff (sha256 : Text → String) (s : Storage) (call : Call) :
    failureKeeps sha256 s call ↔ ¬call.clearsUnread s := by
  obtain ⟨op, device⟩ := call
  cases op with
  | request payload newId createdAt =>
    constructor
    · rintro _ ⟨_, _, book, _, r, _, hacked⟩
      cases hacked
    · intro _ _ book
      exact (step_book sha256 s ⟨.request payload newId createdAt, device⟩ book).grows
  | acknowledgeFresh fingerprint requestId =>
    refine keeps_iff_of_clearing (fun b => rfl) ?_ ?_ ?_
    · intro b hb
      cases b with
      | fresh => exact absurd rfl hb
      | replies => rfl
    · intro hfailed
      have herror : ∃ e,
          (clearFreshRequest s.fresh device.toBrowser fingerprint requestId).2 = .error e :=
        error_of_failed hfailed fun b hb => by simp only [step, hb, Output.failed]
      obtain ⟨e, he⟩ := herror
      rcases clearFresh_failed he with hsame | hread
      · exact Or.inl (congrArg (fun t => t.items.map freshReceipt) hsame)
      · exact Or.inr hread
    · intro hreads hwrite hreadable
      obtain ⟨hfails, htaken⟩ := clearFresh_unread fingerprint requestId hreads hwrite hreadable
      exact ⟨by simp only [step, hfails, Output.failed], htaken⟩
  | acknowledgeExact fingerprint replyId | acknowledgeFollowup _ fingerprint replyId =>
    refine keeps_iff_of_clearing (fun b => rfl) ?_ ?_ ?_
    · intro b hb
      cases b with
      | fresh => rfl
      | replies => exact absurd rfl hb
    · intro hfailed
      have herror : ∃ e,
          (clearReplyRequest s.replies device.toBrowser fingerprint replyId).2 = .error e :=
        error_of_failed hfailed fun b hb => by simp only [step, hb, Output.failed]
      obtain ⟨e, he⟩ := herror
      rcases clearReply_failed he with hsame | hread
      · exact Or.inl (congrArg (fun t => t.items.map replyReceipt) hsame)
      · exact Or.inr hread
    · intro hreads hwrite hreadable
      obtain ⟨hfails, htaken⟩ := clearReply_unread fingerprint replyId hreads hwrite hreadable
      exact ⟨by simp only [step, hfails, Output.failed], htaken⟩

end Unread

/-- A storage that fails at the receipts leaves the receipts as they are. -/
theorem step_fails (sha256 : Text → String) (s : Storage) (call : Call)
    (hfails : Browser.storageFails call.device.toBrowser) (book : Book) :
    (step sha256 s call).1.receipts book = s.receipts book := by
  obtain ⟨op, device⟩ := call
  cases op with
  | request payload newId createdAt =>
    cases payload with
    | fresh =>
      cases book with
      | fresh =>
        exact congrArg (fun stored => stored.items.map freshReceipt)
          (freshQueueRequest_fails hfails s.fresh _ newId createdAt)
      | replies => rfl
    | exact =>
      cases book with
      | fresh => rfl
      | replies =>
        exact congrArg (fun stored => stored.items.map replyReceipt)
          (followupRequest_fails hfails s.replies .empty true true _ [] newId createdAt)
    | followup sendId text =>
      cases book with
      | fresh => rfl
      | replies =>
        exact congrArg (fun stored => stored.items.map replyReceipt)
          (followupRequest_fails hfails s.replies (s.legacy sendId) device.readsLegacy
            device.removesLegacy _ text newId createdAt)
  | acknowledgeFresh fingerprint requestId =>
    cases book with
    | fresh =>
      exact congrArg (fun stored => stored.items.map freshReceipt)
        (acknowledgeFresh_fails hfails s.fresh fingerprint requestId)
    | replies => rfl
  | acknowledgeExact fingerprint replyId | acknowledgeFollowup _ fingerprint replyId =>
    cases book with
    | fresh => rfl
    | replies =>
      exact congrArg (fun stored => stored.items.map replyReceipt)
        (acknowledgeExact_fails hfails s.replies fingerprint replyId)

section Run

variable (sha256 : Text → String) (s : Storage) (run : List Call)

theorem receipt_kept {book : Book} {r : Receipt} (hr : r ∈ s.receipts book)
    (hrun : ∀ call ∈ run, call.op.acknowledges ≠ some r.id) :
    r ∈ (final (step sha256) s run).receipts book := by
  refine run_keeps (fun s call => step_book sha256 s call book) s run hr ?_
  intro call hcall fingerprint hacked
  exact hrun call hcall (acked_acknowledges hacked)

/-- An older entry stays until its own identifier is acknowledged. -/
theorem legacy_kept {chat : Text} {value : LegacyEntry} (hlegacy : s.legacy chat = .entry value)
    (hrun : ∀ call ∈ run, ∀ id, call.op.acknowledges = some id → value.replyId ≠ some id) :
    (final (step sha256) s run).legacy chat = .entry value := by
  refine final_invariant (step sha256)
    (fun call => ∀ id, call.op.acknowledges = some id → value.replyId ≠ some id)
    (fun s => s.legacy chat = .entry value) ?_ s hlegacy run hrun
  intro s call hcall hs
  rcases step_legacy sha256 s call chat with hsame | ⟨value', id, hvalue, hid, hacked⟩
  · exact hsame.trans hs
  · rw [hs] at hvalue
    obtain rfl := Legacy.entry.inj hvalue
    exact absurd hid (hcall id hacked)

/-- A payload keeps its identifier until that identifier is acknowledged. -/
theorem request_again {payload : Payload} {device device' : Device} {newId newId' id id' : String}
    {createdAt createdAt' : ℕ}
    (hfirst : (request sha256 s device payload newId createdAt).2.given = some id)
    (hrun : ∀ call ∈ run, call.op.acknowledges ≠ some id)
    (hsecond : (request sha256
      (final (step sha256) (request sha256 s device payload newId createdAt).1 run) device' payload
      newId' createdAt').2.given = some id') : id' = id := by
  obtain ⟨r, hr, hkey, hid⟩ := (request_given hfirst).1
  subst hid
  have hkept := receipt_kept sha256 _ run hr hrun
  exact ((request_given hsecond).2 r hkept hkey).symm

/-- The receipts of a tab, over any operations and whatever fails in them. Every receipt is
kept until its identifier is acknowledged, also the ones in the slots of older versions. A
failing operation leaves the receipts alone, unless it is an acknowledgement that has written the
list without its receipt and cannot read it back. -/
theorem receipts_stable :
    (∀ (payload : Payload) (device device' : Device) (newId newId' id id' : String)
        (createdAt createdAt' : ℕ),
      (request sha256 s device payload newId createdAt).2.given = some id →
      (∀ call ∈ run, call.op.acknowledges ≠ some id) →
      (request sha256
        (final (step sha256) (request sha256 s device payload newId createdAt).1 run) device'
        payload newId' createdAt').2.given = some id' → id' = id) ∧
    (∀ (book : Book), ∀ r ∈ s.receipts book,
      (∀ call ∈ run, call.op.acknowledges ≠ some r.id) →
        r ∈ (final (step sha256) s run).receipts book) ∧
    (∀ (chat : Text) (value : LegacyEntry), s.legacy chat = .entry value →
      (∀ call ∈ run, ∀ id, call.op.acknowledges = some id → value.replyId ≠ some id) →
        (final (step sha256) s run).legacy chat = .entry value) ∧
    (∀ (call : Call) (id : String), call.op.acknowledges = some id →
      (∀ (book : Book) (r : Receipt), call.op.acked book ≠ some (r.fingerprint, r.id) →
        (r ∈ (step sha256 s call).1.receipts book ↔ r ∈ s.receipts book)) ∧
      ∀ (chat : Text) (value : LegacyEntry), s.legacy chat = .entry value →
        value.replyId ≠ some id → (step sha256 s call).1.legacy chat = .entry value) ∧
    ((∀ book, ((s.receipts book).map Receipt.fingerprint).Nodup) →
      ∀ book, (((final (step sha256) s run).receipts book).map Receipt.fingerprint).Nodup) ∧
    (∀ call : Call, Browser.storageFails call.device.toBrowser →
      ∀ book, (step sha256 s call).1.receipts book = s.receipts book) ∧
    (∀ call : Call, (call.device.readsLegacy && call.device.removesLegacy) = false →
      (step sha256 s call).1.legacy = s.legacy) ∧
    (Meets (step sha256) (failureKeeps sha256) s run ↔
      Meets (step sha256) (fun s call => ¬call.clearsUnread s) s run) := by
  refine ⟨?_, fun book r hr => receipt_kept sha256 s run hr,
    fun chat value => legacy_kept sha256 s run, ?_, ?_, step_fails sha256 s,
    step_slot_fails sha256 s, ?_⟩
  · intro payload device device' newId newId' id id' createdAt createdAt' hfirst hrun hsecond
    exact request_again sha256 s run hfirst hrun hsecond
  · intro call id hid
    constructor
    · intro book r hother
      have hbook := step_book sha256 s call book
      have hasked : call.op.asked sha256 book = none := by
        cases hop : call.op with
        | request =>
          rw [hop] at hid
          cases hid
        | _ => rfl
      rw [hasked] at hbook
      refine hbook.others_iff ?_
      intro fingerprint k hacked
      by_contra hsame
      rw [not_or, not_not, not_not] at hsame
      apply hother
      rw [hacked, hsame.1, hsame.2]
    · intro chat value hvalue hne
      rcases step_legacy sha256 s call chat with hsame | ⟨value', id', hvalue', hid', hacked⟩
      · exact hsame.trans hvalue
      · rw [hvalue] at hvalue'
        obtain rfl := Legacy.entry.inj hvalue'
        rw [hid, Option.some.injEq] at hacked
        exact absurd (hacked ▸ hid') hne
  · intro hunique book
    exact run_unique (fun s call => step_book sha256 s call book) s run (hunique book)
  · simp only [meets_iff_events, failureKeeps_iff]

end Run

def onlyReceipt : PendingFreshRequest :=
  ⟨String.ofList (List.replicate 64 'a'), String.ofList (List.replicate 32 'b'), 1⟩

def oneReceipt : Storage := ⟨.saved [onlyReceipt], .absent, fun _ => .empty⟩

/-- An acknowledgement whose write is kept, and whose reading back throws. -/
def unreadClearing : Call where
  op := .acknowledgeFresh onlyReceipt.fingerprint onlyReceipt.requestId
  device := { write := .keptUnread }

theorem unread_clearing_removes :
    freshReceipt onlyReceipt ∈ oneReceipt.receipts .fresh ∧
      ∀ sha256 : Text → String, (step sha256 oneReceipt unreadClearing).2.failed = true ∧
        freshReceipt onlyReceipt ∉ (step sha256 oneReceipt unreadClearing).1.receipts .fresh := by
  refine ⟨List.mem_cons_self, fun sha256 => ?_⟩
  have hfailed : (clearFreshRequest oneReceipt.fresh unreadClearing.device.toBrowser
      onlyReceipt.fingerprint onlyReceipt.requestId).2 = .error .cannotSave := by
    decide +kernel
  have hgone : (acknowledgeFreshQueueRequest oneReceipt.fresh unreadClearing.device.toBrowser
      onlyReceipt.fingerprint onlyReceipt.requestId).items = [] := by
    decide +kernel
  refine ⟨?_, ?_⟩
  · show Output.failed (.freshCleared (clearFreshRequest _ _ _ _).2) = true
    rw [hfailed]
    rfl
  · show _ ∉ List.map freshReceipt (acknowledgeFreshQueueRequest _ _ _ _).items
    rw [hgone]
    exact List.not_mem_nil

end Prompta.PendingReceipts
