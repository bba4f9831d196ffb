import Prompta.ManualQueue

/-!
The receipts of fresh chats that a browser tab keeps. A payload is kept as a fingerprint
with the identifier of its request, so that a later Send of the same payload asks for the
same delivery. Nothing is sent unless the receipt is known to be kept.
-/
namespace Prompta.FreshQueueReceipt

open Texts DisplayBlocks DeliveryQueue ManualQueue

structure PendingFreshRequest where
  fingerprint : String
  requestId : String
  createdAt : ℕ
  deriving DecidableEq, Repr

def maxRecords : ℕ := 1024

/-- The value under `prompta.pending-fresh-requests.v1`. -/
inductive Stored
  | absent
  | unreadable
  | saved (items : List PendingFreshRequest)
  deriving DecidableEq, Repr

def Stored.items : Stored → List PendingFreshRequest
  | .saved items => items
  | _ => []

/-- `[a-f0-9]{64}` -/
def isFingerprint (fingerprint : String) : Bool :=
  fingerprint.toList.length = 64 && fingerprint.toList.all isLowerHex

def valid (record : PendingFreshRequest) : Bool :=
  isFingerprint record.fingerprint && isRequestId record.requestId

inductive ReceiptError
  | cannotRead
  | unreadable
  | capacity
  | cannotSave
  | noRequestId
  deriving DecidableEq, Repr

/-- The text shown for the error. The last one stands for any other exception. -/
def ReceiptError.message : ReceiptError → String
  | .cannotRead =>
    "Unresolved chat receipts cannot be read from browser storage; nothing was sent."
  | .unreadable => "Unresolved chat receipts are unreadable; no new send was attempted."
  | .capacity => "Unresolved chat requests are at capacity; no new send was attempted."
  | .cannotSave =>
    "Unresolved chat receipts cannot be saved in browser storage; nothing was sent."
  | .noRequestId => "A durable request ID could not be created. Nothing was sent."

/-- How a write to the storage ends. -/
inductive Write
  | kept
  | thrown
  | dropped
  | keptUnread
  deriving DecidableEq, Repr

/-- What the browser does during one piece of the script. -/
structure Browser where
  hashes : Bool := true
  reads : Bool := true
  write : Write := .kept

def records (stored : Stored) (reads : Bool) : Except ReceiptError (List PendingFreshRequest) :=
  if !reads then .error .cannotRead
  else
    match stored with
    | .absent => .ok []
    | .unreadable => .error .unreadable
    | .saved items =>
      if maxRecords < items.length ∨ items.all valid = false ∨
          ¬ (items.map PendingFreshRequest.fingerprint).Nodup then
        .error .unreadable
      else .ok items

/-- The value is read back after the write. -/
def persist (stored : Stored) (items : List PendingFreshRequest) (write : Write) :
    Stored × Except ReceiptError Unit :=
  if maxRecords < items.length then (stored, .error .capacity)
  else
    match write with
    | .kept => (.saved items, .ok ())
    | .thrown => (stored, .error .cannotSave)
    | .dropped => (stored, if stored = .saved items then .ok () else .error .cannotSave)
    | .keptUnread => (.saved items, .error .cannotSave)

structure FreshRequest where
  requestId : String
  fingerprint : String
  reused : Bool
  deriving DecidableEq, Repr

def freshQueueRequest (stored : Stored) (browser : Browser) (fingerprint newId : String)
    (createdAt : ℕ) : Stored × Except ReceiptError FreshRequest :=
  if !browser.hashes then (stored, .error .noRequestId)
  else
    match records stored browser.reads with
    | .error e => (stored, .error e)
    | .ok saved =>
      match saved.find? fun entry => decide (entry.fingerprint = fingerprint) with
      | some previous => (stored, .ok ⟨previous.requestId, fingerprint, true⟩)
      | none =>
        match persist stored (saved ++ [⟨fingerprint, newId, createdAt⟩]) browser.write with
        | (stored', .error e) => (stored', .error e)
        | (stored', .ok ()) => (stored', .ok ⟨newId, fingerprint, false⟩)

/-- The `try` block of the acknowledgement. -/
def clearFreshRequest (stored : Stored) (browser : Browser) (fingerprint requestId : String) :
    Stored × Except ReceiptError Unit :=
  match records stored browser.reads with
  | .error e => (stored, .error e)
  | .ok saved =>
    persist stored (saved.filter fun entry =>
      decide (entry.fingerprint ≠ fingerprint ∨ entry.requestId ≠ requestId)) browser.write

/-- Errors are swallowed. -/
def acknowledgeFreshQueueRequest (stored : Stored) (browser : Browser)
    (fingerprint requestId : String) : Stored :=
  (clearFreshRequest stored browser fingerprint requestId).1

theorem records_ok {stored : Stored} {reads : Bool} {saved : List PendingFreshRequest}
    (h : records stored reads = .ok saved) : saved = stored.items ∧ stored ≠ .unreadable := by
  unfold records at h
  split at h
  · cases h
  cases stored with
  | absent => exact ⟨(Except.ok.inj h).symm, Stored.noConfusion⟩
  | unreadable => cases h
  | saved items =>
    dsimp only at h
    split at h
    · cases h
    · exact ⟨(Except.ok.inj h).symm, Stored.noConfusion⟩

/-- The storage is as it was or holds the items; it holds them when no error is thrown. -/
theorem persist_cases (stored : Stored) (items : List PendingFreshRequest) (write : Write) :
    ((persist stored items write).1 = stored ∨ (persist stored items write).1 = .saved items) ∧
      ((persist stored items write).2 = .ok () → (persist stored items write).1 =
        .saved items) := by
  unfold persist
  split
  · exact ⟨Or.inl rfl, fun h => nomatch h⟩
  cases write with
  | kept => exact ⟨Or.inr rfl, fun _ => rfl⟩
  | thrown => exact ⟨Or.inl rfl, fun h => nomatch h⟩
  | dropped =>
    refine ⟨Or.inl rfl, ?_⟩
    dsimp only
    intro h
    by_contra hother
    rw [if_neg hother] at h
    cases h
  | keptUnread => exact ⟨Or.inr rfl, fun h => nomatch h⟩

/-- What a Send gets for the payload, and what is then in the storage. -/
inductive Requested (stored : Stored) (fingerprint newId : String) (createdAt : ℕ) :
    Stored × Except ReceiptError FreshRequest → Prop
  | refused (e : ReceiptError) : Requested stored fingerprint newId createdAt (stored, .error e)
  | reused (entry : PendingFreshRequest) (hmem : entry ∈ stored.items)
      (hentry : entry.fingerprint = fingerprint) :
      Requested stored fingerprint newId createdAt
        (stored, .ok ⟨entry.requestId, fingerprint, true⟩)
  | saved (outcome : Except ReceiptError FreshRequest) (hreadable : stored ≠ .unreadable)
      (hnew : ∀ entry ∈ stored.items, entry.fingerprint ≠ fingerprint)
      (houtcome : ∀ request, outcome = .ok request → request = ⟨newId, fingerprint, false⟩) :
      Requested stored fingerprint newId createdAt
        (.saved (stored.items ++ [⟨fingerprint, newId, createdAt⟩]), outcome)

/-- A request finds the saved receipt, saves a new one, or fails. -/
theorem freshQueueRequest_requested (stored : Stored) (browser : Browser)
    (fingerprint newId : String) (createdAt : ℕ) :
    Requested stored fingerprint newId createdAt
      (freshQueueRequest stored browser fingerprint newId createdAt) := by
  unfold freshQueueRequest
  split
  · exact Requested.refused _
  cases hrecords : records stored browser.reads with
  | error e => exact Requested.refused e
  | ok saved =>
    obtain ⟨rfl, hreadable⟩ := records_ok hrecords
    dsimp only
    cases hfind : stored.items.find? fun entry => decide (entry.fingerprint = fingerprint) with
    | some previous =>
      have hentry := List.find?_some hfind
      rw [decide_eq_true_eq] at hentry
      exact Requested.reused previous (List.mem_of_find?_eq_some hfind) hentry
    | none =>
      have hnew : ∀ entry ∈ stored.items, entry.fingerprint ≠ fingerprint := by
        intro entry hmem
        have h := List.find?_eq_none.mp hfind entry hmem
        rwa [decide_eq_true_eq] at h
      obtain ⟨hstored, hok⟩ := persist_cases stored
        (stored.items ++ [⟨fingerprint, newId, createdAt⟩]) browser.write
      dsimp only
      cases hpersist : persist stored (stored.items ++ [⟨fingerprint, newId, createdAt⟩])
          browser.write with
      | mk stored' outcome =>
        rw [hpersist] at hstored hok
        cases outcome with
        | error e =>
          rcases hstored with rfl | rfl
          · exact Requested.refused e
          · exact Requested.saved _ hreadable hnew fun _ h => nomatch h
        | ok done =>
          obtain rfl := hok rfl
          exact Requested.saved _ hreadable hnew fun _ h => (Except.ok.inj h).symm

/-- An acknowledgement leaves the storage as it was, or takes out the one receipt. -/
theorem acknowledge_cases (stored : Stored) (browser : Browser) (fingerprint requestId : String) :
    acknowledgeFreshQueueRequest stored browser fingerprint requestId = stored ∨
      stored ≠ .unreadable ∧ ∃ items,
        acknowledgeFreshQueueRequest stored browser fingerprint requestId = .saved items ∧
        ∀ entry, entry ∈ items ↔ entry ∈ stored.items ∧
          (entry.fingerprint ≠ fingerprint ∨ entry.requestId ≠ requestId) := by
  unfold acknowledgeFreshQueueRequest clearFreshRequest
  cases hrecords : records stored browser.reads with
  | error e => exact Or.inl rfl
  | ok saved =>
    obtain ⟨rfl, hreadable⟩ := records_ok hrecords
    obtain ⟨hstored, _⟩ := persist_cases stored (stored.items.filter fun entry =>
      decide (entry.fingerprint ≠ fingerprint ∨ entry.requestId ≠ requestId)) browser.write
    rcases hstored with hsame | hsaved
    · exact Or.inl hsame
    · refine Or.inr ⟨hreadable, _, hsaved, ?_⟩
      intro entry
      rw [List.mem_filter, decide_eq_true_eq]

end Prompta.FreshQueueReceipt
