import Prompta.FreshChats
import Prompta.FreshQueueReceipt

/-!
Fresh chats sent from a browser tab. A Send asks for its saved receipt, posts the chat and
asks again when the answer leaves it in doubt. Requests and answers may be lost, late or
repeated, the page may be reloaded and its storage may fail, while the service goes on.
-/
namespace Prompta.TabSends

open Runs Tables Texts DisplayBlocks Schema ResponseStore ReplyStore DeliveryQueue
  ManualQueue Service BranchLineage FollowupMerges FreshChats FreshQueueReceipt

/-- What is fingerprinted: the trimmed text, the attachments and where the Send is from. -/
structure Payload where
  scope : String
  prompt : Text
  images : List String
  deriving DecidableEq, Repr

structure Send where
  scope : String
  text : Text
  images : List String
  request : FreshRequest

def Send.payload (send : Send) : Payload := ⟨send.scope, strip send.text, send.images⟩

inductive Method
  | receipt
  | post
  deriving DecidableEq, Repr

/-- A request of the page, with the Send that made it. -/
structure Fetch where
  send : Send
  method : Method

/-- An answer of the server: a receipt, or a status with the reason that its body names. -/
inductive Reply
  | receipt (sendId status : String)
  | failure (status : ℕ) (reason : Option String)
  deriving DecidableEq, Repr

/-- The request is known by its place among all requests of the tab. -/
structure Answer where
  ticket : ℕ
  reply : Reply

/-- What the Send waits for. -/
inductive Phase
  | reconciling
  | posting
  | confirming (reason : Option String)
  | recovering
  deriving DecidableEq, Repr

structure InFlight where
  send : Send
  phase : Phase
  ticket : ℕ

structure Report where
  ok : Bool
  ambiguous : Bool := false
  message : String
  deriving DecidableEq, Repr

/-- The return of `sendFresh`. There is no request when no receipt could be saved. -/
structure Returned where
  payload : Payload
  request : Option FreshRequest
  report : Report

/-- The tab, its requests and their answers so far, and the server. -/
structure World where
  server : Store
  stored : Stored
  sends : List InFlight
  fetches : List Fetch
  answers : List Answer

def World.empty : World := ⟨Store.empty, .absent, [], [], []⟩

section Server

/-- `GET /api/chats/requests/{request_id}` -/
def receipt (s : Store) (requestId : String) : Reply :=
  if !isRequestId requestId then .failure 400 (some "Invalid request")
  else
    match s.queue.lookup (manualSendId requestId) with
    | none => .failure 404 (some "Queue request not found")
    | some d =>
      if d.clientId = manualClientId requestId false ∨
          d.clientId = manualClientId requestId true then
        .receipt d.sendId d.status.value
      else .failure 404 (some "Queue request not found")

/-- The bounds of `FreshChatRequest` on the message, the attachments and the identifier. -/
def validFreshChat (requestId : String) (prompt : Text) (images : List String) : Bool :=
  isRequestId requestId && decide (prompt ≠ []) && prompt.length ≤ 32000 &&
    decide (strip prompt ≠ []) && images.length ≤ maxImages && images.all validImageRef

def freshChatRequest (requestId : String) (prompt : Text) (images : List String) : ManualRequest :=
  { requestId, prompt := strip prompt, images, pinLocalDefault := true }

/-- `POST /api/chats`. `available` tells which attachments can be read. -/
def freshChat (lib : Stdlib) (s : Store) (requestId : String) (prompt : Text)
    (images : List String) (available : String → Bool) (answers : Bool) (now : Time) :
    Store × Reply :=
  if !validFreshChat requestId prompt images then (s, .failure 400 (some "Invalid request"))
  else
    match imageRefs images with
    | .error e => (s, .failure 400 (some e.message))
    | .ok refs =>
      if s.queue.lookup (manualSendId requestId) = none ∧ refs.all available = false then
        (s, .failure 422 (some "Attachment unavailable. Reattach it before sending."))
      else
        match enqueueManual lib s (freshChatRequest requestId prompt refs) answers now with
        | (s', .ok d) => (s', .receipt d.sendId d.status.value)
        | (s', .error .resultsUnavailable) => (s', .failure 500 none)
        | (s', .error _) =>
          (s', .failure 409 (some "Fresh chat request ID conflicts with an earlier payload."))

def serve (lib : Stdlib) (s : Store) (fetch : Fetch) (available : String → Bool)
    (answers : Bool) (now : Time) : Store × Reply :=
  match fetch.method with
  | .receipt => (s, receipt s fetch.send.request.requestId)
  | .post =>
    freshChat lib s fetch.send.request.requestId fetch.send.text fetch.send.images available
      answers now

end Server

section Page

/-- `findFreshQueueReceiptStatus`: the status when the answer is the receipt asked for. -/
def findReceipt (requestId : String) : Option Reply → Option String
  | some (.receipt sendId status) => if sendId = manualSendId requestId then some status else none
  | _ => none

/-- A receipt that was found. Only one of a live or finished delivery is acknowledged. -/
def accepted (stored : Stored) (browser : Browser) (request : FreshRequest) (status : String) :
    Stored × Report :=
  if status = "outcome_unknown" then
    (stored, ⟨false, false,
      "The previous fresh-chat send may have reached ChatGPT. No automatic resend was " ++
        "attempted; inspect its status in Chats."⟩)
  else if status = "cancelled" ∨ status = "dead_lettered" then
    (stored, ⟨false, false,
      "The earlier request ended without a confirmed delivery. Review its status in Chats " ++
        "before starting another."⟩)
  else if status ∉ ["queued", "running", "retrying", "rate_limited", "succeeded"] then
    (stored, ⟨false, false,
      "The queue receipt has an unknown state; the saved request ID was preserved."⟩)
  else
    (acknowledgeFreshQueueRequest stored browser request.fingerprint request.requestId,
      ⟨true, false, ""⟩)

/-- How a Send goes on. -/
inductive Next
  | accepted (status : String)
  | returned (report : Report)
  | fetch (phase : Phase) (method : Method)
  deriving DecidableEq, Repr

/-- `sendFresh` after an answer, or after an exception when there is none. -/
def resume (requestId : String) (reply : Option Reply) : Phase → Next
  | .reconciling =>
    match findReceipt requestId reply with
    | some status => .accepted status
    | none => .fetch .posting .post
  | .posting =>
    match reply with
    | some (.receipt sendId status) =>
      if sendId = manualSendId requestId then .accepted status else .fetch .recovering .receipt
    | some (.failure status reason) =>
      if status < 500 then .fetch (.confirming reason) .receipt else .fetch .recovering .receipt
    | none => .fetch .recovering .receipt
  | .confirming reason =>
    match findReceipt requestId reply with
    | some status => .accepted status
    | none =>
      .returned ⟨false, false,
        reason.getD "The fresh chat was rejected. Review the prompt or images."⟩
  | .recovering =>
    match findReceipt requestId reply with
    | some status => .accepted status
    | none =>
      .returned ⟨false, true,
        "Queue receipt is uncertain. The request ID is saved; press Send again to reconcile it " ++
          "safely."⟩

/-- The Send makes a request and waits for its answer. -/
def World.fetch (w : World) (send : Send) (phase : Phase) (method : Method) : World :=
  { w with
    sends := w.sends ++ [⟨send, phase, w.fetches.length⟩]
    fetches := w.fetches ++ [⟨send, method⟩] }

/-- The receipt is added for a payload that has none. -/
def World.keep (w : World) (fingerprint newId : String) (createdAt : ℕ) : World :=
  { w with stored := .saved (w.stored.items ++ [⟨fingerprint, newId, createdAt⟩]) }

/-- The Send that waits for the request goes on. -/
def continueSend (w : World) (ticket : ℕ) (reply : Option Reply) (browser : Browser) :
    World × Option Returned :=
  match w.sends.find? fun f => decide (f.ticket = ticket) with
  | none => (w, none)
  | some f =>
    let rest := { w with sends := w.sends.filter fun g => decide (g.ticket ≠ ticket) }
    match resume f.send.request.requestId reply f.phase with
    | .accepted status =>
      let outcome := accepted w.stored browser f.send.request status
      ({ rest with stored := outcome.1 }, some ⟨f.send.payload, some f.send.request, outcome.2⟩)
    | .returned report => (rest, some ⟨f.send.payload, some f.send.request, report⟩)
    | .fetch phase method => (rest.fetch f.send phase method, none)

end Page

/-- A Send, or what may happen to it on its way. `outside` is any other call of the service. -/
inductive TabEvent
  | send (scope : String) (text : Text) (images : List String) (newId : String) (createdAt : ℕ)
      (browser : Browser)
  | serve (ticket : ℕ) (available : String → Bool) (answers : Bool) (now : Time)
  | fault (ticket status : ℕ) (reason : Option String)
  | receive (answer : ℕ) (browser : Browser)
  | lose (ticket : ℕ) (browser : Browser)
  | reload
  | damage
  | outside (call : FreshCall)

section Tab

variable (lib : Stdlib) (digest : Payload → String)

/-- The start of a Send, once its payload is hashed. -/
def startSend (w : World) (scope : String) (text : Text) (images : List String) (newId : String)
    (createdAt : ℕ) (browser : Browser) : World × Option Returned :=
  let payload : Payload := ⟨scope, strip text, images⟩
  match freshQueueRequest w.stored browser (digest payload) newId createdAt with
  | (stored, .error e) => ({ w with stored }, some ⟨payload, none, ⟨false, false, e.message⟩⟩)
  | (stored, .ok request) =>
    (({ w with stored } : World).fetch ⟨scope, text, images, request⟩
      (if request.reused then .reconciling else .posting)
      (if request.reused then .receipt else .post), none)

/-- A request stays where it is: it may be served late, again or never. -/
def tabStep (w : World) : TabEvent → World × Option Returned
  | .send scope text images newId createdAt browser =>
    startSend digest w scope text images newId createdAt browser
  | .serve ticket available answers now =>
    match w.fetches[ticket]? with
    | none => (w, none)
    | some fetch =>
      let outcome := serve lib w.server fetch available answers now
      ({ w with server := outcome.1, answers := w.answers ++ [⟨ticket, outcome.2⟩] }, none)
  | .fault ticket status reason =>
    ({ w with answers := w.answers ++ [⟨ticket, .failure status reason⟩] }, none)
  | .receive i browser =>
    match w.answers[i]? with
    | none => (w, none)
    | some answer => continueSend w answer.ticket (some answer.reply) browser
  | .lose ticket browser => continueSend w ticket none browser
  | .reload => ({ w with sends := [] }, none)
  | .damage => ({ w with stored := .unreadable }, none)
  | .outside call => ({ w with server := (freshStep lib w.server call).1 }, none)

/-- The fingerprint and the identifier belong together in a receipt or a request. -/
def Issued (w : World) (fingerprint requestId : String) : Prop :=
  (∃ r ∈ w.stored.items, r.fingerprint = fingerprint ∧ r.requestId = requestId) ∨
    ∃ f ∈ w.fetches, f.send.request.fingerprint = fingerprint ∧ f.send.request.requestId = requestId

def Queued (w : World) (requestId : String) : Prop :=
  (w.server.queue.lookup (manualSendId requestId)).isSome = true

/-- The row of a delivery that the call may add. -/
def queuesUnder : FreshCall → Option String
  | .manual request _ _ => some (manualSendId request.requestId)
  | .service call =>
    match call.action with
    | .queue (.enqueue record _) => some record.sendId
    | _ => none

/-- Random identifiers do not meet: a new one is not in use, and nobody else draws one of the
tab. -/
def Apart (w : World) : TabEvent → Prop
  | .send _ _ _ newId _ _ => ¬ Queued w newId ∧ ∀ fingerprint, ¬ Issued w fingerprint newId
  | .outside call =>
    ∀ fingerprint requestId, Issued w fingerprint requestId →
      queuesUnder call ≠ some (manualSendId requestId)
  | _ => True

def sentPayload : TabEvent → Option Payload
  | .send scope text images _ _ _ => some ⟨scope, strip text, images⟩
  | _ => none

/-- The payloads have different fingerprints. -/
def Separates (payloads : List Payload) : Prop :=
  ∀ p ∈ payloads, ∀ q ∈ payloads, digest p = digest q → p = q

/-- The receipt of the payload is taken out of the storage. -/
def Acknowledges (p : Payload) (w : World) (e : TabEvent) : Prop :=
  (∃ r ∈ w.stored.items, r.fingerprint = digest p) ∧
    (tabStep lib digest w e).1.stored ≠ .unreadable ∧
      ¬ ∃ r ∈ (tabStep lib digest w e).1.stored.items, r.fingerprint = digest p

abbrev TabStep := Event World TabEvent (Option Returned)

/-- The step serves the chat of the payload and adds its delivery. -/
def creates (p : Payload) (e : TabStep) : Bool :=
  match e.input with
  | .serve ticket _ _ _ =>
    match e.pre.fetches[ticket]? with
    | some fetch =>
      decide (fetch.method = .post) && decide (fetch.send.payload = p) &&
        (e.pre.server.queue.lookup (manualSendId fetch.send.request.requestId)).isNone &&
        (e.post.server.queue.lookup (manualSendId fetch.send.request.requestId)).isSome
    | none => false
  | _ => false

/-- The number of deliveries that the run creates for the payload. -/
def creations (p : Payload) (w : World) (run : List TabEvent) : ℕ :=
  (events (tabStep lib digest) w run).countP (creates p)

/-- The queue has the delivery of the payload under the identifier. Merges may have
extended its message. -/
structure Carries (s : Store) (requestId : String) (p : Payload) : Prop where
  told : Told (manualSendId requestId) p.prompt s
  payload : ∃ d, s.queue.lookup (manualSendId requestId) = some d ∧ d.images = p.images ∧
    d.clientId = manualClientId requestId false

end Tab

section Rows

variable (lib : Stdlib)

/-- A call keeps every row and adds none but its own. -/
theorem freshStep_rows (s : Store) (call : FreshCall) (k : String) :
    ((s.queue.lookup k).isSome = true →
        ((freshStep lib s call).1.queue.lookup k).isSome = true) ∧
      (s.queue.lookup k = none → ((freshStep lib s call).1.queue.lookup k).isSome = true →
        queuesUnder call = some k) := by
  have hservice : ∀ c : Call,
      ((s.queue.lookup k).isSome = true → ((step lib s c).1.queue.lookup k).isSome = true) ∧
      (s.queue.lookup k = none → ((step lib s c).1.queue.lookup k).isSome = true →
        queuesUnder (.service c) = some k) := by
    intro c
    constructor
    · intro hsome
      obtain ⟨d, hd⟩ := Option.isSome_iff_exists.mp hsome
      obtain ⟨d', hd', _⟩ :=
        (step_deliveries s c lib).lookup_some (fun _ _ h => h.sendId_eq) hd
      rw [hd']
      rfl
    · intro hnone hsome
      obtain ⟨d', hd'⟩ := Option.isSome_iff_exists.mp hsome
      rcases (step_deliveries s c lib).lookup_old (fun _ _ h => h.sendId_eq) hd' with
        ⟨d, hd, _⟩ | ⟨_, d, hnew, hkey, _⟩
      · rw [hnone] at hd
        cases hd
      · obtain ⟨record, answers, haction, hrow, _⟩ := hnew
        have hk : record.sendId = k := by
          rw [← hkey, hrow]
          rfl
        simp only [queuesUnder, haction, hk]
  cases call with
  | service c => exact hservice c
  | manual request answers now =>
    have hcall := hservice ⟨.queue (.enqueue (manualRecord request) answers), now⟩
    rcases manual_sameRows lib s request answers now with hsame | hsame
    · have hqueue : (freshStep lib s (.manual request answers now)).1.queue = s.queue := hsame.queue
      rw [hqueue]
      refine ⟨id, ?_⟩
      intro hnone hsome
      rw [hnone] at hsome
      exact Bool.noConfusion hsome
    · have hqueue : (freshStep lib s (.manual request answers now)).1.queue =
          (step lib s ⟨.queue (.enqueue (manualRecord request) answers), now⟩).1.queue :=
          hsame.queue
      rw [hqueue]
      exact hcall

theorem freshStep_placed (s : Store) (call : FreshCall) (h : Placed s) :
    Placed (freshStep lib s call).1 :=
  freshStep_keeps lib placed_sameRows (step_placed lib) s call h

theorem carries_sameRows {requestId : String} {p : Payload} (s s' : Store)
    (hsame : SameRows s s') (h : Carries s requestId p) : Carries s' requestId p := by
  constructor
  · unfold Told mergedTexts chatRows
    rw [hsame.queue, hsame.results, hsame.replies]
    exact h.told
  · rw [hsame.queue]
    exact h.payload

theorem freshStep_carries {requestId : String} {p : Payload} (s : Store) (call : FreshCall)
    (h : Carries s requestId p) : Carries (freshStep lib s call).1 requestId p := by
  refine freshStep_keeps lib carries_sameRows ?_ s call h
  intro s' c hs
  exact ⟨step_told lib s' c hs.told, step_payload lib s' c hs.payload⟩

/-- To serve a request is to make a call of the service, at most its own. -/
theorem serve_call (s : Store) (fetch : Fetch) (available : String → Bool) (answers : Bool)
    (now : Time) :
    (serve lib s fetch available answers now).1 = s ∨
      fetch.method = .post ∧ (serve lib s fetch available answers now).1 =
        (freshStep lib s (.manual (freshChatRequest fetch.send.request.requestId fetch.send.text
          fetch.send.images) answers now)).1 := by
  unfold serve
  cases fetch.method with
  | receipt => exact Or.inl rfl
  | post =>
    dsimp only
    unfold freshChat
    split
    · exact Or.inl rfl
    cases hrefs : imageRefs fetch.send.images with
    | error e => exact Or.inl rfl
    | ok refs =>
      obtain rfl := imageRefs_ok hrefs
      dsimp only
      split
      · exact Or.inl rfl
      · refine Or.inr ⟨rfl, ?_⟩
        change _ = (enqueueManual lib s _ answers now).1
        split <;> rename_i hqueued <;> rw [hqueued]

/-- The delivery that a request returns has its row in the queue. -/
theorem manual_row {s : Store} {request : ManualRequest} {answers : Bool} {now : Time}
    {d : Delivery} (h : (enqueueManual lib s request answers now).2 = .ok d) :
    ((enqueueManual lib s request answers now).1.queue.lookup d.sendId).isSome = true := by
  unfold enqueueManual at h ⊢
  split at h
  · cases h
  rename_i hprompt
  rw [if_neg hprompt]
  split at h
  · cases h
  rename_i hid
  rw [if_neg hid]
  cases hqueued : enqueueIdempotent s (manualRecord request) answers now with
  | mk s' outcome =>
    rw [hqueued] at h
    cases outcome with
    | error e => cases h
    | ok receipt =>
      obtain ⟨d', created⟩ := receipt
      have hrow := enqueue_row (congrArg Prod.snd hqueued)
      rw [hqueued] at hrow
      dsimp only at h hrow ⊢
      split at h
      · cases h
      rename_i hanswers
      rw [if_neg hanswers]
      split at h
      · cases h
      rename_i hsame
      rw [if_neg hsame]
      split at h
      · cases h
      split at h
      · cases h
      rename_i hpayload
      rw [if_neg hpayload]
      split at h
      · rename_i hpin
        rw [if_pos hpin]
        split at h
        · cases h
        · cases h
          exact hrow
      · rename_i hpin
        rw [if_neg hpin]
        cases h
        exact hrow

/-- A receipt in an answer names a row of the queue. -/
theorem serve_receipt (s : Store) (fetch : Fetch) (available : String → Bool) (answers : Bool)
    (now : Time) {sendId status : String}
    (h : (serve lib s fetch available answers now).2 = .receipt sendId status) :
    ((serve lib s fetch available answers now).1.queue.lookup sendId).isSome = true := by
  unfold serve at h ⊢
  cases hmethod : fetch.method with
  | receipt =>
    rw [hmethod] at h
    dsimp only at h ⊢
    unfold receipt at h
    split at h
    · cases h
    split at h
    · cases h
    rename_i d hd
    split at h
    · cases h
      rw [Table.lookup_of_mem (Table.lookup_mem hd)]
      rfl
    · cases h
  | post =>
    rw [hmethod] at h
    dsimp only at h ⊢
    unfold freshChat at h ⊢
    split at h
    · cases h
    rename_i hvalid
    rw [if_neg hvalid]
    split at h
    · cases h
    split at h
    · cases h
    rename_i hattached
    rw [if_neg hattached]
    split at h
    · rename_i s' d hqueued
      cases h
      dsimp only
      have hrow := manual_row lib (congrArg Prod.snd hqueued)
      rw [hqueued] at hrow
      exact hrow
    · cases h
    · cases h

theorem manualSendId_inj {requestId requestId' : String}
    (h : manualSendId requestId = manualSendId requestId') : requestId = requestId' := by
  have htext := congrArg String.toList h
  rw [manualSendId, manualSendId, String.toList_append, String.toList_append,
    List.append_right_inj] at htext
  exact String.toList_injective htext

/-- The chat that a request adds is that of its payload. -/
theorem serve_adds {s : Store} {fetch : Fetch} {available : String → Bool} {answers : Bool}
    {now : Time} {requestId : String} (hplaced : Placed s)
    (hfree : s.queue.lookup (manualSendId requestId) = none)
    (hqueued : ((serve lib s fetch available answers now).1.queue.lookup
      (manualSendId requestId)).isSome = true) :
    fetch.method = .post ∧ manualSendId fetch.send.request.requestId = manualSendId requestId ∧
      Carries (serve lib s fetch available answers now).1 requestId fetch.send.payload := by
  rcases serve_call lib s fetch available answers now with hsame | ⟨hpost, hcall⟩
  · rw [hsame, hfree] at hqueued
    exact Bool.noConfusion hqueued
  rw [hcall] at hqueued ⊢
  have hkey : manualSendId fetch.send.request.requestId = manualSendId requestId :=
    Option.some.inj ((freshStep_rows lib s _ (manualSendId requestId)).2 hfree hqueued)
  have hid := manualSendId_inj hkey
  subst hid
  have hsaved : Saved lib (freshChatRequest fetch.send.request.requestId fetch.send.text
      fetch.send.images) _ := (manual_saved hplaced hfree hqueued).1
  exact ⟨hpost, hkey, hsaved.told, hsaved.payload⟩

end Rows

end Prompta.TabSends
