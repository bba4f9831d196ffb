import Prompta.ConnectorApproval
import Prompta.FreshQueueReceipt

/-!
The receipts a browser tab keeps for what it has sent: fresh chats in one list, exact replies
and queued follow-ups in another, and the slot per chat that older versions kept follow-ups
in. A list is read, checked and written anew by each operation, and the storage may fail at
any of its reads and writes.
-/
namespace Prompta.PendingReceipts

open Texts ConnectorApproval FreshQueueReceipt

section Payloads

/-- The escapes of `JSON.stringify`. -/
def quoteChar (c : Char) : Text :=
  if c = '"' then "\\\"".toList
  else if c = '\\' then "\\\\".toList
  else if c = '\x08' then "\\b".toList
  else if c = '\x0c' then "\\f".toList
  else if c = '\n' then "\\n".toList
  else if c = '\r' then "\\r".toList
  else if c = '\t' then "\\t".toList
  else if c.toNat < 16 then "\\u000".toList ++ Nat.toDigits 16 c.toNat
  else if c.toNat < 32 then "\\u00".toList ++ Nat.toDigits 16 c.toNat
  else [c]

def quoted (t : Text) : Text := '"' :: t.flatMap quoteChar ++ ['"']

def bracketed (items : List Text) : Text := '[' :: List.intercalate [','] items ++ [']']

/-- What an identifier is asked for. -/
inductive Payload
  | fresh (scope prompt : Text) (images : List Text)
  | exact (sendId conversationId parentId text : Text)
  | followup (sendId text : Text)
  deriving DecidableEq, Repr

/-- The text whose digest is the fingerprint. -/
def Payload.encoded : Payload → Text
  | .fresh scope prompt images =>
    bracketed [quoted scope, quoted (trim prompt), bracketed (images.map quoted)]
  | .exact sendId conversationId parentId text =>
    bracketed ([sendId, conversationId, parentId, text].map quoted)
  | .followup sendId text => bracketed ([sendId, text].map quoted)

end Payloads

structure PendingExactReply where
  fingerprint : String
  replyId : String
  createdAt : ℕ
  deriving DecidableEq, Repr

/-- The value under `prompta.pending-exact-replies.v1`. -/
inductive StoredReplies
  | absent
  | unreadable
  | saved (items : List PendingExactReply)
  deriving DecidableEq, Repr

def StoredReplies.items : StoredReplies → List PendingExactReply
  | .saved items => items
  | _ => []

/-- An entry under `prompta.pending-followup.v1.`. A field is `none` where the entry lacks it
or holds no text there. -/
structure LegacyEntry where
  replyId : Option String := none
  fingerprint : Option String := none
  text : Option Text := none
  deriving DecidableEq, Repr

inductive Legacy
  | empty
  | unparsable
  | entry (value : LegacyEntry)
  deriving DecidableEq, Repr

/-- `[A-Za-z0-9_-]{16,200}` -/
def isReplyId (replyId : String) : Bool := ReplyStore.validFollowupId replyId

def validReply (record : PendingExactReply) : Bool :=
  isFingerprint record.fingerprint && isReplyId record.replyId

inductive ReplyReceiptError
  | cannotRead
  | unreadable
  | capacity
  | cannotSave
  | cannotReadLegacy
  | damagedLegacy
  | noReplyId
  deriving DecidableEq, Repr

/-- The text of the error. The last one is no error of these functions: the caller shows its
own text for it. -/
def ReplyReceiptError.message : ReplyReceiptError → String
  | .cannotRead =>
    "Unresolved reply receipts cannot be read from browser storage; nothing was sent."
  | .unreadable => "Unresolved reply receipts are unreadable; no new send was attempted."
  | .capacity => "Unresolved reply receipts are at capacity; no new send was attempted."
  | .cannotSave =>
    "Unresolved reply receipts cannot be saved in browser storage; nothing was sent."
  | .cannotReadLegacy =>
    "Unresolved reply receipts cannot be read from legacy browser storage; nothing was sent."
  | .damagedLegacy =>
    "Unresolved reply receipts contain a damaged legacy entry; nothing was sent."
  | .noReplyId => "A durable follow-up ID could not be created. Nothing was sent."

/-- The browser during one operation, with the accesses to the slots of older versions. -/
structure Device extends Browser where
  readsLegacy : Bool := true
  removesLegacy : Bool := true

def replyRecords (stored : StoredReplies) (reads : Bool) :
    Except ReplyReceiptError (List PendingExactReply) :=
  if !reads then .error .cannotRead
  else
    match stored with
    | .absent => .ok []
    | .unreadable => .error .unreadable
    | .saved items =>
      if maxRecords < items.length ∨ items.all validReply = false ∨
          ¬ (items.map PendingExactReply.fingerprint).Nodup then
        .error .unreadable
      else .ok items

def persistReplies (stored : StoredReplies) (items : List PendingExactReply) (write : Write) :
    StoredReplies × Except ReplyReceiptError Unit :=
  if maxRecords < items.length then (stored, .error .capacity)
  else
    match write with
    | .kept => (.saved items, .ok ())
    | .thrown => (stored, .error .cannotSave)
    | .dropped => (stored, if stored = .saved items then .ok () else .error .cannotSave)
    | .keptUnread => (.saved items, .error .cannotSave)

structure ReplyRequest where
  replyId : String
  fingerprint : String
  reused : Bool
  deriving DecidableEq, Repr

/-- Save a receipt for a fingerprint that has none. -/
def saveReply (stored : StoredReplies) (saved : List PendingExactReply) (write : Write)
    (request : ReplyRequest) (createdAt : ℕ) :
    StoredReplies × Except ReplyReceiptError ReplyRequest :=
  match persistReplies stored (saved ++ [⟨request.fingerprint, request.replyId, createdAt⟩])
      write with
  | (stored', .error e) => (stored', .error e)
  | (stored', .ok ()) => (stored', .ok request)

def pendingExactReplyRequest (stored : StoredReplies) (browser : Browser)
    (fingerprint newId : String) (createdAt : ℕ) :
    StoredReplies × Except ReplyReceiptError ReplyRequest :=
  if !browser.hashes then (stored, .error .noReplyId)
  else
    match replyRecords stored browser.reads with
    | .error e => (stored, .error e)
    | .ok saved =>
      match saved.find? fun entry => decide (entry.fingerprint = fingerprint) with
      | some previous => (stored, .ok ⟨previous.replyId, fingerprint, true⟩)
      | none => saveReply stored saved browser.write ⟨newId, fingerprint, false⟩ createdAt

/-- An entry that could not tell which follow-up it is for. -/
def LegacyEntry.damaged (value : LegacyEntry) : Bool :=
  !value.replyId.any isReplyId || (value.fingerprint.isNone && value.text.isNone)

def legacyId (legacy : Legacy) (reads : Bool) (fingerprint : String) (text : Text) :
    Except ReplyReceiptError (Option String) :=
  if !reads then .error .cannotReadLegacy
  else
    match legacy with
    | .empty => .ok none
    | .unparsable => .error .cannotReadLegacy
    | .entry value =>
      if value.damaged then .error .damagedLegacy
      else if value.fingerprint = some fingerprint ∨ value.text = some text then .ok value.replyId
      else .ok none

def pendingQueuedFollowupRequest (stored : StoredReplies) (legacy : Legacy) (device : Device)
    (fingerprint : String) (text : Text) (newId : String) (createdAt : ℕ) :
    StoredReplies × Except ReplyReceiptError ReplyRequest :=
  if !device.hashes then (stored, .error .noReplyId)
  else
    match replyRecords stored device.reads with
    | .error e => (stored, .error e)
    | .ok saved =>
      match saved.find? fun entry => decide (entry.fingerprint = fingerprint) with
      | some previous => (stored, .ok ⟨previous.replyId, fingerprint, true⟩)
      | none =>
        match legacyId legacy device.readsLegacy fingerprint text with
        | .error e => (stored, .error e)
        | .ok known =>
          saveReply stored saved device.write ⟨known.getD newId, fingerprint, known.isSome⟩
            createdAt

def clearReplyRequest (stored : StoredReplies) (browser : Browser) (fingerprint replyId : String) :
    StoredReplies × Except ReplyReceiptError Unit :=
  match replyRecords stored browser.reads with
  | .error e => (stored, .error e)
  | .ok saved =>
    persistReplies stored (saved.filter fun entry =>
      decide (entry.fingerprint ≠ fingerprint ∨ entry.replyId ≠ replyId)) browser.write

def acknowledgeExactReplyRequest (stored : StoredReplies) (browser : Browser)
    (fingerprint replyId : String) : StoredReplies :=
  (clearReplyRequest stored browser fingerprint replyId).1

/-- The second part of `acknowledgeQueuedFollowupRequest`. -/
def clearLegacy (legacy : Legacy) (device : Device) (replyId : String) : Legacy :=
  match legacy with
  | .entry value =>
    if device.readsLegacy && device.removesLegacy && decide (value.replyId = some replyId) then
      .empty
    else legacy
  | _ => legacy

/-- What the tab keeps. -/
structure Storage where
  fresh : Stored
  replies : StoredReplies
  legacy : Text → Legacy

inductive Op
  | request (payload : Payload) (newId : String) (createdAt : ℕ)
  | acknowledgeFresh (fingerprint requestId : String)
  | acknowledgeExact (fingerprint replyId : String)
  | acknowledgeFollowup (sendId : Text) (fingerprint replyId : String)

structure Call where
  op : Op
  device : Device

/-- How an operation ends. An acknowledgement returns nothing and throws nothing: what is kept of
it here is how its `try` block ended. -/
inductive Output
  | fresh (outcome : Except ReceiptError FreshRequest)
  | reply (outcome : Except ReplyReceiptError ReplyRequest)
  | freshCleared (outcome : Except ReceiptError Unit)
  | replyCleared (outcome : Except ReplyReceiptError Unit)

def Output.given : Output → Option String
  | .fresh (.ok request) => some request.requestId
  | .reply (.ok request) => some request.replyId
  | _ => none

/-- An exception ended the operation, or the clearing of a list in it. -/
def Output.failed : Output → Bool
  | .fresh (.error _) => true
  | .reply (.error _) => true
  | .freshCleared (.error _) => true
  | .replyCleared (.error _) => true
  | _ => false

def withReplies (s : Storage) (outcome : StoredReplies × Except ReplyReceiptError ReplyRequest) :
    Storage × Output :=
  ({ s with replies := outcome.1 }, .reply outcome.2)

section Step

variable (sha256 : Text → String)

def request (s : Storage) (device : Device) (payload : Payload) (newId : String)
    (createdAt : ℕ) : Storage × Output :=
  let fingerprint := sha256 payload.encoded
  match payload with
  | .fresh _ _ _ =>
    let outcome := freshQueueRequest s.fresh device.toBrowser fingerprint newId createdAt
    ({ s with fresh := outcome.1 }, .fresh outcome.2)
  | .exact _ _ _ _ =>
    withReplies s (pendingExactReplyRequest s.replies device.toBrowser fingerprint newId createdAt)
  | .followup sendId text =>
    withReplies s (pendingQueuedFollowupRequest s.replies (s.legacy sendId) device fingerprint text
      newId createdAt)

def step (s : Storage) (call : Call) : Storage × Output :=
  match call.op with
  | .request payload newId createdAt => request sha256 s call.device payload newId createdAt
  | .acknowledgeFresh fingerprint requestId =>
    ({ s with
        fresh :=
          acknowledgeFreshQueueRequest s.fresh call.device.toBrowser fingerprint requestId },
      .freshCleared (clearFreshRequest s.fresh call.device.toBrowser fingerprint requestId).2)
  | .acknowledgeExact fingerprint replyId =>
    ({ s with
        replies :=
          acknowledgeExactReplyRequest s.replies call.device.toBrowser fingerprint replyId },
      .replyCleared (clearReplyRequest s.replies call.device.toBrowser fingerprint replyId).2)
  | .acknowledgeFollowup sendId fingerprint replyId =>
    ({ s with
        replies := acknowledgeExactReplyRequest s.replies call.device.toBrowser fingerprint replyId
        legacy := Function.update s.legacy sendId
          (clearLegacy (s.legacy sendId) call.device replyId) },
      .replyCleared (clearReplyRequest s.replies call.device.toBrowser fingerprint replyId).2)

end Step

/-- A readable list is the stored one, with one receipt for each fingerprint. -/
theorem replyRecords_ok {stored : StoredReplies} {reads : Bool} {saved : List PendingExactReply}
    (h : replyRecords stored reads = .ok saved) :
    saved = stored.items ∧ (stored.items.map PendingExactReply.fingerprint).Nodup := by
  unfold replyRecords at h
  split at h
  · cases h
  cases stored with
  | absent => exact ⟨(Except.ok.inj h).symm, List.nodup_nil⟩
  | unreadable => cases h
  | saved items =>
    dsimp only at h
    split at h
    · cases h
    · rename_i hvalid
      rw [not_or, not_or, not_not] at hvalid
      exact ⟨(Except.ok.inj h).symm, hvalid.2.2⟩

/-- The records of fresh chats have distinct fingerprints where they can be read. -/
theorem records_nodup {stored : Stored} {reads : Bool} {saved : List PendingFreshRequest}
    (h : records stored reads = .ok saved) :
    (stored.items.map PendingFreshRequest.fingerprint).Nodup := by
  unfold records at h
  split at h
  · cases h
  cases stored with
  | absent => exact List.nodup_nil
  | unreadable => cases h
  | saved items =>
    dsimp only at h
    split at h
    · cases h
    · rename_i hvalid
      rw [not_or, not_or, not_not] at hvalid
      exact hvalid.2.2

/-- A write leaves the old list or the new one; without an exception it is the new one. -/
theorem persistReplies_cases (stored : StoredReplies) (items : List PendingExactReply)
    (write : Write) :
    ((persistReplies stored items write).1 = stored ∨
        (persistReplies stored items write).1 = .saved items) ∧
      ((persistReplies stored items write).2 = .ok () →
        (persistReplies stored items write).1 = .saved items) := by
  unfold persistReplies
  split
  · exact ⟨Or.inl rfl, fun h => by cases h⟩
  cases write with
  | kept => exact ⟨Or.inr rfl, fun _ => rfl⟩
  | thrown => exact ⟨Or.inl rfl, fun h => by cases h⟩
  | dropped =>
    refine ⟨Or.inl rfl, ?_⟩
    dsimp only
    intro h
    by_contra hother
    rw [if_neg hother] at h
    cases h
  | keptUnread => exact ⟨Or.inr rfl, fun h => by cases h⟩

/-- What a request for a reply identifier gets, and what is then in the storage. -/
inductive ReplyRequested (stored : StoredReplies) (fingerprint : String) :
    StoredReplies × Except ReplyReceiptError ReplyRequest → Prop
  | refused (e : ReplyReceiptError) : ReplyRequested stored fingerprint (stored, .error e)
  | reused (entry : PendingExactReply) (hmem : entry ∈ stored.items)
      (hentry : entry.fingerprint = fingerprint)
      (hunique : (stored.items.map PendingExactReply.fingerprint).Nodup) :
      ReplyRequested stored fingerprint (stored, .ok ⟨entry.replyId, fingerprint, true⟩)
  | saved (replyId : String) (reused : Bool) (createdAt : ℕ)
      (outcome : Except ReplyReceiptError ReplyRequest)
      (hnew : ∀ entry ∈ stored.items, entry.fingerprint ≠ fingerprint)
      (houtcome : ∀ request, outcome = .ok request → request = ⟨replyId, fingerprint, reused⟩) :
      ReplyRequested stored fingerprint
        (.saved (stored.items ++ [⟨fingerprint, replyId, createdAt⟩]), outcome)

/-- A new receipt is saved, or nothing is. -/
theorem saveReply_requested (stored : StoredReplies) (write : Write) (replyId fingerprint : String)
    (reused : Bool) (createdAt : ℕ)
    (hnew : ∀ entry ∈ stored.items, entry.fingerprint ≠ fingerprint) :
    ReplyRequested stored fingerprint
      (saveReply stored stored.items write ⟨replyId, fingerprint, reused⟩ createdAt) := by
  obtain ⟨hstored, hok⟩ := persistReplies_cases stored
    (stored.items ++ [⟨fingerprint, replyId, createdAt⟩]) write
  unfold saveReply
  dsimp only
  cases hpersist : persistReplies stored (stored.items ++ [⟨fingerprint, replyId, createdAt⟩])
      write with
  | mk stored' outcome =>
    rw [hpersist] at hstored hok
    cases outcome with
    | error e =>
      rcases hstored with rfl | rfl
      · exact ReplyRequested.refused e
      · exact ReplyRequested.saved replyId reused createdAt _ hnew fun _ h => by cases h
    | ok done =>
      obtain rfl := hok rfl
      exact ReplyRequested.saved replyId reused createdAt _ hnew
        fun _ h => (Except.ok.inj h).symm

/-- A follow-up finds its receipt, takes over an older entry or saves a new one, or fails. -/
theorem followup_requested (stored : StoredReplies) (legacy : Legacy) (device : Device)
    (fingerprint : String) (text : Text) (newId : String) (createdAt : ℕ) :
    ReplyRequested stored fingerprint
      (pendingQueuedFollowupRequest stored legacy device fingerprint text newId createdAt) := by
  unfold pendingQueuedFollowupRequest
  split
  · exact ReplyRequested.refused _
  cases hrecords : replyRecords stored device.reads with
  | error e => exact ReplyRequested.refused e
  | ok saved =>
    obtain ⟨rfl, hunique⟩ := replyRecords_ok hrecords
    dsimp only
    cases hfind : stored.items.find? fun entry => decide (entry.fingerprint = fingerprint) with
    | some previous =>
      have hentry := List.find?_some hfind
      rw [decide_eq_true_eq] at hentry
      exact ReplyRequested.reused previous (List.mem_of_find?_eq_some hfind) hentry hunique
    | none =>
      have hnew : ∀ entry ∈ stored.items, entry.fingerprint ≠ fingerprint := by
        intro entry hmem
        have h := List.find?_eq_none.mp hfind entry hmem
        rwa [decide_eq_true_eq] at h
      dsimp only
      cases legacyId legacy device.readsLegacy fingerprint text with
      | error e => exact ReplyRequested.refused e
      | ok known =>
        exact saveReply_requested stored device.write _ fingerprint known.isSome createdAt hnew

/-- An exact reply asks as a follow-up does that no older version knows of. -/
theorem exact_eq_followup (stored : StoredReplies) (browser : Browser) (fingerprint newId : String)
    (createdAt : ℕ) :
    pendingExactReplyRequest stored browser fingerprint newId createdAt =
      pendingQueuedFollowupRequest stored .empty ⟨browser, true, true⟩ fingerprint [] newId
        createdAt :=
  rfl

end Prompta.PendingReceipts
