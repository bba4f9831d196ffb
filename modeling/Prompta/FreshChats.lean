import Prompta.FollowupMerges
import Prompta.ManualQueue

/-!
A request identifier of a fresh chat stands for one payload. Follow-ups rewrite the
saved message, so a repeated request is compared with the saved message and with the
digest of the first prompt. The comparison with the message also accepts the merged
text, which nobody asked for in one piece; it is the only other payload accepted.
-/
namespace Prompta.FreshChats

open Runs Relation Tables Texts DisplayBlocks Schema ResponseStore ReplyStore DeliveryQueue
  ManualQueue Service BranchLineage FollowupMerges

/-- What is used of the digest: it tells texts apart and it is never empty. -/
structure Digest (lib : Stdlib) : Prop where
  injective : Function.Injective lib.sha256
  nonempty : ∀ t, lib.sha256 t ≠ ""

/-- A request of a fresh chat, or any call of the service. -/
inductive FreshCall
  | manual (request : ManualRequest) (answers : Bool) (now : Time)
  | service (call : Call)

def freshStep (lib : Stdlib) (s : Store) : FreshCall →
    Store × (Except ManualError Delivery ⊕ Output)
  | .manual request answers now =>
    Prod.map id Sum.inl (enqueueManual lib s request answers now)
  | .service call => Prod.map id Sum.inr (step lib s call)

def SamePayload (first request : ManualRequest) : Prop :=
  request.prompt = first.prompt ∧ request.images = first.images ∧ request.pinChat = first.pinChat

/-- The request finds the receipt `d` when it repeats the first one, and else it is
refused with the queue as it was. -/
structure Identifies (lib : Stdlib) (s : Store) (first request : ManualRequest) (d : Delivery)
    (now : Time) : Prop where
  returned : (enqueueManual lib s request true now).2 = .ok d ↔ SamePayload first request
  refused : ¬ SamePayload first request → ∃ error,
    (enqueueManual lib s request true now).2 = .error error ∧
      (enqueueManual lib s request true now).1.queue = s.queue

/-- The two states agree on all rows. They may differ in the pins of the sidebar. -/
structure SameRows (s s' : Store) : Prop where
  queue : s'.queue = s.queue
  results : s'.chats.results = s.chats.results
  replies : s'.chats.replies = s.chats.replies

theorem SameRows.refl (s : Store) : SameRows s s := ⟨rfl, rfl, rfl⟩

theorem setLocalPin_sameRows (s : Store) (sendId : String) (pinned : Bool) (now : Time) :
    SameRows s { s with chats := (setLocalPin s.chats sendId pinned now).1 } := by
  unfold setLocalPin
  split
  · exact SameRows.refl s
  split
  · exact SameRows.refl s
  split
  · exact ⟨rfl, rfl, rfl⟩
  split
  · exact SameRows.refl s
  · exact ⟨rfl, rfl, rfl⟩

/-- A request changes the rows as the enqueue of its record does, if at all. -/
theorem manual_sameRows (lib : Stdlib) (s : Store) (request : ManualRequest) (answers : Bool)
    (now : Time) :
    SameRows s (enqueueManual lib s request answers now).1 ∨
      SameRows (enqueueIdempotent s (manualRecord request) answers now).1
        (enqueueManual lib s request answers now).1 := by
  unfold enqueueManual
  split
  · exact Or.inl (SameRows.refl s)
  split
  · exact Or.inl (SameRows.refl s)
  · right
    cases hqueued : enqueueIdempotent s (manualRecord request) answers now with
    | mk s' outcome =>
      cases outcome with
      | error e => exact SameRows.refl s'
      | ok receipt =>
        obtain ⟨d, created⟩ := receipt
        dsimp only
        split
        · exact SameRows.refl s'
        split
        · exact SameRows.refl s'
        split
        · exact SameRows.refl s'
        split
        · exact SameRows.refl s'
        split
        · have hpin := setLocalPin_sameRows s' d.sendId true now
          split
          · rename_i hset
            rw [hset] at hpin
            exact hpin
          · rename_i hset
            rw [hset] at hpin
            exact hpin
        · exact SameRows.refl s'

/-- What depends on the rows and is kept by the service is kept by the requests. -/
theorem freshStep_keeps (lib : Stdlib) {P : Store → Prop}
    (hrows : ∀ s s', SameRows s s' → P s → P s') (hstep : ∀ s call, P s → P (step lib s call).1)
    (s : Store) (call : FreshCall) (h : P s) : P (freshStep lib s call).1 := by
  cases call with
  | manual request answers now =>
    rcases manual_sameRows lib s request answers now with hsame | hsame
    · exact hrows _ _ hsame h
    · exact hrows _ _ hsame (hstep s ⟨.queue (.enqueue (manualRecord request) answers), now⟩ h)
  | service call => exact hstep s call h

theorem placed_sameRows (s s' : Store) (hsame : SameRows s s') (h : Placed s) : Placed s' := by
  constructor
  · rw [hsame.replies, hsame.results]
    exact h.chats
  · rw [hsame.queue, hsame.results]
    exact h.deliveries

theorem fresh_placed (lib : Stdlib) (run : List FreshCall) :
    Placed (final (freshStep lib) Store.empty run) := by
  refine final_invariant (freshStep lib) (fun _ => True) Placed ?_ Store.empty
    (reachable_placed lib []) run fun _ _ => trivial
  intro s call _ h
  exact freshStep_keeps lib placed_sameRows (step_placed lib) s call h

theorem mem_mergedRows {c : Chats} {sendId : String} {r : ReplyRow} :
    r ∈ mergedRows c sendId ↔ r ∈ chatRows c sendId ∧ r.status = .merged := by
  unfold mergedRows branchRows chatRows
  rw [List.mem_filter, List.mem_insertionSort, decide_eq_true_eq]

theorem mergedTexts_nil_iff {c : Chats} {sendId : String} :
    mergedTexts c sendId = [] ↔ mergedRows c sendId = [] := by
  unfold mergedTexts
  rw [List.map_eq_nil_iff, List.eq_nil_iff_forall_not_mem, List.eq_nil_iff_forall_not_mem]
  apply forall_congr'
  intro r
  rw [mem_mergedRows, List.mem_filter, decide_eq_true_eq]

/-- Every merge receipt of the chat carries the digest. -/
def Digested (sendId digest : String) (s : Store) : Prop :=
  ∀ r ∈ chatRows s.chats sendId, r.status = .merged → r.messageId = digest

theorem originalHash_eq {sendId digest : String} {s : Store} (h : Digested sendId digest s) :
    originalHash s.chats sendId = if mergedTexts s.chats sendId = [] then none
      else some digest := by
  unfold originalHash
  cases hrows : mergedRows s.chats sendId with
  | nil =>
    rw [if_pos (mergedTexts_nil_iff.mpr hrows)]
    rfl
  | cons r rest =>
    have hne : mergedTexts s.chats sendId ≠ [] := by
      rw [ne_eq, mergedTexts_nil_iff, hrows]
      exact List.cons_ne_nil r rest
    obtain ⟨hmem, hmerged⟩ := mem_mergedRows.mp (hrows ▸ List.mem_cons_self : r ∈ mergedRows _ _)
    rw [if_neg hne, List.head?_cons, Option.map_some, h r hmem hmerged]

/-- The digest that the next merge would save. -/
theorem initialHash_eq {lib : Stdlib} (hdigest : Digest lib) {sendId : String} {prompt : Text}
    {s : Store} {d : Delivery} (htold : Told sendId prompt s)
    (hd : s.queue.lookup sendId = some d) (h : Digested sendId (lib.sha256 prompt) s) :
    initialHash lib s.chats sendId d.message = lib.sha256 prompt := by
  unfold initialHash
  cases hrows : mergedRows s.chats sendId with
  | nil =>
    obtain ⟨d', hd', hmessage, _⟩ := htold
    rw [hd] at hd'
    rw [List.head?_nil, Option.some.inj hd', hmessage, mergedTexts_nil_iff.mpr hrows]
    rfl
  | cons r rest =>
    obtain ⟨hmem, hmerged⟩ := mem_mergedRows.mp (hrows ▸ List.mem_cons_self : r ∈ mergedRows _ _)
    have hsaved := h r hmem hmerged
    rw [List.head?_cons]
    dsimp only
    rw [hsaved, if_neg (hdigest.nonempty prompt)]

/-- A new receipt has to carry the digest. -/
theorem digested_insert {sendId digest : String} {s s' : Store} {row : ReplyRow}
    (hreplies : s'.chats.replies = s.chats.replies.insertNew row)
    (hrow : row.sendId = sendId → row.status = .merged → row.messageId = digest)
    (h : Digested sendId digest s) : Digested sendId digest s' := by
  intro r hr hmerged
  obtain ⟨hmem, hchat⟩ := mem_chatRows.mp hr
  rw [hreplies] at hmem
  rcases Table.mem_insertNew hmem with hold | ⟨rfl, _⟩
  · exact h r (mem_chatRows.mpr ⟨hold, hchat⟩) hmerged
  · exact hrow hchat hmerged

/-- The merge takes the digest before it changes the first prompt. -/
theorem step_digested {lib : Stdlib} (hdigest : Digest lib) (s : Store) (call : Call)
    {sendId : String} {prompt : Text} (htold : Told sendId prompt s)
    (h : Digested sendId (lib.sha256 prompt) s) :
    Digested sendId (lib.sha256 prompt) (step lib s call).1 := by
  by_cases hcall : followsUp call = true
  · obtain ⟨chat, replyId, text, withQueue, haction⟩ := followsUp_cases hcall
    obtain ⟨outcome, houtcome, hstep⟩ := step_followup lib s call haction
    rw [hstep]
    cases houtcome with
    | refused refusal => exact h
    | repeated row hrow => exact h
    | queued row hrow hfree =>
      refine digested_insert (s := s) rfl ?_ h
      intro _ hmerged
      rw [hrow] at hmerged
      exact nomatch hmerged
    | merged row d original combined hrow hfree hd =>
      refine digested_insert (s := s) rfl ?_ h
      intro hchat _
      rw [hrow] at hchat ⊢
      obtain rfl : chat = sendId := hchat
      exact initialHash_eq hdigest htold hd h
  · rw [Bool.not_eq_true] at hcall
    intro r hr hmerged
    obtain ⟨hmem, hchat⟩ := mem_chatRows.mp hr
    rcases (step_replies lib s call).lookup_old (fun _ _ h => h.replyId_eq)
        (Table.lookup_of_mem hmem) with ⟨r₀, hr₀, hchange⟩ | ⟨_, a, hnew, _, hchange⟩
    · obtain rfl := merged_unchanged hchange hmerged
      exact h r (mem_chatRows.mpr ⟨Table.lookup_mem hr₀, hchat⟩) hmerged
    · obtain rfl := merged_unchanged hchange hmerged
      cases hnew with
      | prepared => exact nomatch hmerged
      | followup _ _ _ _ _ _ _ _ _ hfollows =>
        rw [hcall] at hfollows
        exact Bool.noConfusion hfollows

/-- What the rows keep of the first request. -/
structure Saved (lib : Stdlib) (first : ManualRequest) (s : Store) : Prop where
  told : Told (manualSendId first.requestId) first.prompt s
  payload : ∃ d, s.queue.lookup (manualSendId first.requestId) = some d ∧
    d.images = first.images ∧ d.clientId = manualClientId first.requestId first.pinChat
  digested : Digested (manualSendId first.requestId) (lib.sha256 first.prompt) s

theorem saved_sameRows {lib : Stdlib} {first : ManualRequest} (s s' : Store) (hsame : SameRows s s')
    (h : Saved lib first s) : Saved lib first s' := by
  constructor
  · unfold Told mergedTexts chatRows
    rw [hsame.queue, hsame.results, hsame.replies]
    exact h.told
  · rw [hsame.queue]
    exact h.payload
  · unfold Digested chatRows
    rw [hsame.replies]
    exact h.digested

/-- No call changes the identifier or the attachments of a delivery. -/
theorem step_payload (lib : Stdlib) (s : Store) (call : Call) {sendId clientId : String}
    {images : List String}
    (h : ∃ d, s.queue.lookup sendId = some d ∧ d.images = images ∧ d.clientId = clientId) :
    ∃ d, (step lib s call).1.queue.lookup sendId = some d ∧ d.images = images ∧
      d.clientId = clientId := by
  obtain ⟨d, hd, himages, hclient⟩ := h
  obtain ⟨d', hd', hchange⟩ :=
    (step_deliveries s call lib).lookup_some (fun _ _ h => h.sendId_eq) hd
  refine ⟨d', hd', ?_, ?_⟩
  · rw [reflTransGen_field (f := Delivery.images) ?_ hchange, himages]
    intro a b hab
    cases hab <;> rfl
  · rw [reflTransGen_field (f := Delivery.clientId) ?_ hchange, hclient]
    intro a b hab
    cases hab <;> rfl

theorem step_saved {lib : Stdlib} (hdigest : Digest lib) {first : ManualRequest} (s : Store)
    (call : Call) (h : Saved lib first s) : Saved lib first (step lib s call).1 :=
  ⟨step_told lib s call h.told, step_payload lib s call h.payload,
    step_digested hdigest s call h.told h.digested⟩

theorem fresh_saved {lib : Stdlib} (hdigest : Digest lib) {first : ManualRequest} (s : Store)
    (h : Saved lib first s) (run : List FreshCall) :
    Saved lib first (final (freshStep lib) s run) := by
  refine final_invariant (freshStep lib) (fun _ => True) (Saved lib first) ?_ s h run
    fun _ _ => trivial
  intro s' call _ hs
  exact freshStep_keeps lib saved_sameRows (step_saved hdigest) s' call hs

/-- A request that could name a delivery. -/
structure WellFormed (request : ManualRequest) : Prop where
  prompt : strip request.prompt ≠ []
  identifier : isRequestId request.requestId = true
  images : imageRefs request.images = .ok request.images

theorem strip_ne_nil {t : Text} (h : strip t ≠ []) : t ≠ [] := by
  rintro rfl
  exact h rfl

theorem manualSendId_ne (requestId : String) : manualSendId requestId ≠ "" := by
  intro h
  have htext := congrArg String.toList h
  rw [manualSendId, String.toList_append] at htext
  exact nomatch htext

/-- A request that changes the queue is well formed but for its attachments. -/
theorem manual_checked {lib : Stdlib} {s : Store} {request : ManualRequest} {answers : Bool}
    {now : Time} (h : (enqueueManual lib s request answers now).1.queue ≠ s.queue) :
    strip request.prompt ≠ [] ∧ isRequestId request.requestId = true := by
  unfold enqueueManual at h
  split at h
  · exact absurd rfl h
  rename_i hprompt
  split at h
  · exact absurd rfl h
  rename_i hidentifier
  exact ⟨hprompt, by simpa using hidentifier⟩

/-- A request that adds a delivery saves its payload. -/
theorem manual_saved {lib : Stdlib} {s : Store} {first : ManualRequest} {answers : Bool}
    {now : Time}
    (hplaced : Placed s) (hfree : s.queue.lookup (manualSendId first.requestId) = none)
    (hqueued : ((enqueueManual lib s first answers now).1.queue.lookup
      (manualSendId first.requestId)).isSome = true) :
    Saved lib first (enqueueManual lib s first answers now).1 ∧ WellFormed first := by
  have hchanged : (enqueueManual lib s first answers now).1.queue ≠ s.queue := by
    intro hsame
    rw [hsame, hfree] at hqueued
    exact Bool.noConfusion hqueued
  obtain ⟨hprompt, hidentifier⟩ := manual_checked hchanged
  rcases manual_sameRows lib s first answers now with hsame | hsame
  · exact absurd hsame.queue hchanged
  obtain ⟨d, hd⟩ := Option.isSome_iff_exists.mp hqueued
  rw [hsame.queue] at hd
  obtain ⟨hnew, refs, hrefs⟩ : d = queuedDelivery s.queue (manualRecord first) now ∧
      ∃ refs, imageRefs (manualRecord first).images = .ok refs := enqueue_new hfree hd
  have hvalid : imageRefs first.images = .ok first.images := by
    change imageRefs first.images = .ok refs at hrefs
    rw [hrefs, imageRefs_ok hrefs]
  refine ⟨saved_sameRows _ _ hsame ⟨?_, ⟨d, hd, ?_, ?_⟩, ?_⟩, hprompt, hidentifier, hvalid⟩
  · have htold : Told (manualRecord first).sendId (manualRecord first).message
        (step lib s ⟨.queue (.enqueue (manualRecord first) answers), now⟩).1 :=
      enqueue_told hplaced hfree hd
    exact htold
  · rw [hnew]
    rfl
  · rw [hnew]
    rfl
  · intro r hr
    have hreplies := enqueueIdempotent_replies now s (manualRecord first) answers
    rw [chatRows, hreplies, ← chatRows, hplaced.chatRows_nil hfree] at hr
    cases hr

/-- An enqueue under a taken identifier returns the saved row. -/
theorem enqueue_existing {s : Store} {record : DeliveryRecord} {answers : Bool} {now : Time}
    {d : Delivery} {refs : List String} (hd : s.queue.lookup record.sendId = some d)
    (hid : record.sendId ≠ "") (hmessage : record.message ≠ [])
    (himages : imageRefs record.images = .ok refs) :
    ∃ c, enqueueIdempotent s record answers now = ({ s with chats := c }, .ok (d, false)) := by
  have hexisting : existingDelivery s.queue record = some d := by
    rw [existingDelivery, hd, Option.some_or]
  unfold enqueueIdempotent
  rw [if_neg hid, if_neg hmessage, himages, hexisting]
  exact ⟨_, rfl⟩

/-- An enqueue with invalid attachments is refused. -/
theorem enqueue_invalid {s : Store} {record : DeliveryRecord} {answers : Bool} {now : Time}
    {e : QueueError} (hid : record.sendId ≠ "") (hmessage : record.message ≠ [])
    (himages : imageRefs record.images = .error e) :
    enqueueIdempotent s record answers now = (s, .error e) := by
  unfold enqueueIdempotent
  rw [if_neg hid, if_neg hmessage, himages]

theorem manualClientId_inj {requestId : String} {pin pin' : Bool} :
    manualClientId requestId pin = manualClientId requestId pin' ↔ pin = pin' := by
  constructor
  · intro h
    have hlength := congrArg (fun s => s.toList.length) h
    cases pin <;> cases pin' <;> simp [manualClientId] at hlength ⊢
    omega
  · rintro rfl
    rfl

/-- The saved message or the saved digest is that of the prompt. -/
def Matches (lib : Stdlib) (s : Store) (d : Delivery) (prompt : Text) : Prop :=
  d.message = prompt ∨ originalHash s.chats d.sendId = some (lib.sha256 prompt)

/-- A repeated request returns the saved row, or an error, and leaves the queue alone. -/
theorem manual_existing {lib : Stdlib} {s : Store} {first request : ManualRequest} {d : Delivery}
    (now : Time) (hfirst : WellFormed first) (hid : request.requestId = first.requestId)
    (hd : s.queue.lookup (manualSendId first.requestId) = some d)
    (himages : d.images = first.images)
    (hclient : d.clientId = manualClientId first.requestId first.pinChat) :
    (enqueueManual lib s request true now).1.queue = s.queue ∧
      ((strip request.prompt ≠ [] ∧ Matches lib s d request.prompt ∧
        request.images = first.images ∧ request.pinChat = first.pinChat) →
          (enqueueManual lib s request true now).2 = .ok d) ∧
      (¬ (strip request.prompt ≠ [] ∧ Matches lib s d request.prompt ∧
        request.images = first.images ∧ request.pinChat = first.pinChat) →
          ∃ error, (enqueueManual lib s request true now).2 = .error error) := by
  have hidentifier : isRequestId request.requestId = true := by
    rw [hid]
    exact hfirst.identifier
  unfold enqueueManual
  by_cases hprompt : strip request.prompt = []
  · rw [if_pos hprompt]
    exact ⟨rfl, fun h => absurd hprompt h.1, fun _ => ⟨_, rfl⟩⟩
  rw [if_neg hprompt, hidentifier, Bool.not_true, if_neg Bool.false_ne_true]
  cases hrefs : imageRefs request.images with
  | error e =>
    have herror : enqueueIdempotent s (manualRecord request) true now = (s, .error e) :=
      enqueue_invalid (manualSendId_ne request.requestId) (strip_ne_nil hprompt) hrefs
    rw [herror]
    refine ⟨rfl, ?_, fun _ => ⟨_, rfl⟩⟩
    rintro ⟨_, _, hsame, _⟩
    rw [hsame, hfirst.images] at hrefs
    cases hrefs
  | ok refs =>
    have hd' : s.queue.lookup (manualRecord request).sendId = some d := by
      rw [manualRecord, hid]
      exact hd
    obtain ⟨c, hqueued⟩ : ∃ c, enqueueIdempotent s (manualRecord request) true now =
        ({ s with chats := c }, .ok (d, false)) :=
      enqueue_existing hd' (manualSendId_ne request.requestId) (strip_ne_nil hprompt) hrefs
    have hreplies : c.replies = s.chats.replies := by
      have h := enqueueIdempotent_replies now s (manualRecord request) true
      rw [hqueued] at h
      exact h
    have hhash : originalHash c d.sendId = originalHash s.chats d.sendId := by
      unfold originalHash mergedRows branchRows
      rw [hreplies]
    rw [hqueued]
    simp only [Bool.false_and, Bool.false_eq_true, if_false, hhash]
    by_cases hmatches : Matches lib s d request.prompt
    · rw [if_neg (by rwa [← not_or, not_not]), himages, hfirst.images]
      dsimp only
      by_cases hpayload : request.images = first.images ∧ request.pinChat = first.pinChat
      · rw [if_neg]
        · exact ⟨rfl, fun _ => rfl, fun h => absurd ⟨hprompt, hmatches, hpayload⟩ h⟩
        · rw [hclient, hid, ne_eq, ne_eq, manualClientId_inj]
          rintro (h | h)
          · exact h hpayload.1.symm
          · exact h hpayload.2.symm
      · rw [if_pos]
        · exact ⟨rfl, fun h => absurd h.2.2 hpayload, fun _ => ⟨_, rfl⟩⟩
        · rw [hclient, hid, ne_eq, ne_eq, manualClientId_inj]
          by_contra hnot
          rw [not_or, not_not, not_not] at hnot
          exact hpayload ⟨hnot.1.symm, hnot.2.symm⟩
    · rw [if_pos (by rwa [← not_or])]
      exact ⟨rfl, fun h => absurd h.2.1 hmatches, fun _ => ⟨_, rfl⟩⟩

/-- The request repeats the merged message, which the first request did not send. -/
def RepeatsMerged (first request : ManualRequest) (d : Delivery) : Prop :=
  request.prompt = d.message ∧ request.prompt ≠ first.prompt ∧ request.images = first.images ∧
    request.pinChat = first.pinChat

/-- On the rows of the first request the prompt that matches is its own or the merged one. -/
theorem matches_iff {lib : Stdlib} (hdigest : Digest lib) {s : Store} {first : ManualRequest}
    {d : Delivery} (h : Saved lib first s)
    (hd : s.queue.lookup (manualSendId first.requestId) = some d) (prompt : Text) :
    Matches lib s d prompt ↔ prompt = d.message ∨ prompt = first.prompt := by
  obtain ⟨d', hd', hmessage, _⟩ := h.told
  rw [hd] at hd'
  obtain rfl := Option.some.inj hd'
  unfold Matches
  rw [Table.lookup_key hd, originalHash_eq h.digested, eq_comm]
  by_cases hnone : mergedTexts s.chats (manualSendId first.requestId) = []
  · have hfirst : d.message = first.prompt := by
      rw [hmessage, hnone]
      rfl
    rw [if_pos hnone, hfirst]
    simp
  · rw [if_neg hnone, Option.some.injEq, hdigest.injective.eq_iff, @eq_comm _ first.prompt]

/-- After any run that starts with the first request, a request under its identifier is
told apart from it, unless it repeats the merged message. -/
theorem fresh_request_identifies (lib : Stdlib) (hdigest : Digest lib)
    (earlier later : List FreshCall) (first request : ManualRequest) (answers : Bool)
    (queuedAt now : Time) (hid : request.requestId = first.requestId)
    (hfree : (final (freshStep lib) Store.empty earlier).queue.lookup
      (manualSendId first.requestId) = none)
    (hqueued : ((freshStep lib (final (freshStep lib) Store.empty earlier)
      (.manual first answers queuedAt)).1.queue.lookup
      (manualSendId first.requestId)).isSome = true) :
    let s := final (freshStep lib) Store.empty (earlier ++ .manual first answers queuedAt :: later)
    ∃ d, s.queue.lookup (manualSendId first.requestId) = some d ∧
      (Identifies lib s first request d now ↔ ¬ RepeatsMerged first request d) := by
  intro s
  obtain ⟨hsaved, hfirst⟩ := manual_saved (fresh_placed lib earlier) hfree hqueued
  have hs : Saved lib first s := by
    change Saved lib first (final (freshStep lib) Store.empty (earlier ++ _))
    rw [final_append]
    exact fresh_saved hdigest _ hsaved later
  obtain ⟨d, hd, himages, hclient⟩ := hs.payload
  refine ⟨d, hd, ?_⟩
  obtain ⟨hqueue, hreturns, hrefuses⟩ := manual_existing now hfirst hid hd himages hclient
  rw [matches_iff hdigest hs hd] at hreturns hrefuses
  constructor
  · rintro hidentifies ⟨hmerged, hother, hpayload⟩
    have hprompt : strip request.prompt ≠ [] := by
      obtain ⟨d', hd', hmessage, _⟩ := hs.told
      rw [hd] at hd'
      rw [hmerged, Option.some.inj hd', hmessage]
      exact strip_ne_nil_of_prefix hfirst.prompt (prefix_withFollowups _ _)
    have hreturned := hreturns ⟨hprompt, Or.inl hmerged, hpayload⟩
    exact hother (hidentifies.returned.mp hreturned).1
  · intro hnot
    have hsame : (strip request.prompt ≠ [] ∧ (request.prompt = d.message ∨
        request.prompt = first.prompt) ∧ request.images = first.images ∧
        request.pinChat = first.pinChat) ↔ SamePayload first request := by
      constructor
      · rintro ⟨_, hmerged | hprompt, hpayload⟩
        · by_cases hprompt : request.prompt = first.prompt
          · exact ⟨hprompt, hpayload⟩
          · exact absurd ⟨hmerged, hprompt, hpayload⟩ hnot
        · exact ⟨hprompt, hpayload⟩
      · rintro ⟨hprompt, hpayload⟩
        exact ⟨hprompt ▸ hfirst.prompt, Or.inr hprompt, hpayload⟩
    rw [hsame] at hreturns hrefuses
    constructor
    · constructor
      · intro hreturned
        by_contra hother
        obtain ⟨error, herror⟩ := hrefuses hother
        rw [hreturned] at herror
        cases herror
      · exact hreturns
    · intro hother
      obtain ⟨error, herror⟩ := hrefuses hother
      exact ⟨error, herror, hqueue⟩

/-- The digest of one prompt, and marked texts for all others. -/
def digestLib : Stdlib where
  casefold := plainLib.casefold
  sequenceRatio := plainLib.sequenceRatio
  sha256 := fun t =>
    if t = ['h', 'i'] then "8f434346648f6b96df89dda901c5176b10a6d83961dd3c1ac88b59b2dc327aa4"
    else String.ofList ('-' :: t)

theorem digestLib_digest : Digest digestLib := by
  have hmarked : ∀ t, "8f434346648f6b96df89dda901c5176b10a6d83961dd3c1ac88b59b2dc327aa4" ≠
      String.ofList ('-' :: t) := by
    intro t h
    have hhead := congrArg (fun s => s.toList.head?) h
    simp only [String.toList_ofList, List.head?_cons] at hhead
    exact absurd hhead (by decide)
  constructor
  · intro a b h
    simp only [digestLib] at h
    split at h
    · rename_i ha
      split at h
      · rename_i hb
        rw [ha, hb]
      · exact absurd h (hmarked b)
    · split at h
      · exact absurd h.symm (hmarked a)
      · exact List.tail_eq_of_cons_eq (String.ofList_injective h)
  · intro t
    simp only [digestLib]
    split
    · decide
    · intro h
      have hlength := congrArg (fun s => s.toList.length) h
      simp at hlength

def freshRequest (prompt : Text) : ManualRequest :=
  ⟨"0123456789abcdef0123456789abcdef", prompt, [], false, true⟩

def mergedLater : List FreshCall :=
  [.service ⟨.reply (.queueFollowup "manual-0123456789abcdef0123456789abcdef" "followup-00000001"
    ['y', 'o'] true), 11⟩]

theorem fresh_request_repeated :
    let s := final (freshStep digestLib) Store.empty
      (.manual (freshRequest ['h', 'i']) true 10 :: mergedLater)
    ∃ d, s.queue.lookup (manualSendId "0123456789abcdef0123456789abcdef") = some d ∧
      d.message = ['h', 'i', '\n', '\n', 'y', 'o'] ∧
      Identifies digestLib s (freshRequest ['h', 'i']) (freshRequest ['h', 'i']) d 12 := by
  intro s
  obtain ⟨d, hd, hiff⟩ := fresh_request_identifies digestLib digestLib_digest [] mergedLater
    (freshRequest ['h', 'i']) (freshRequest ['h', 'i']) true 10 12 rfl rfl (by decide +kernel)
  have hmessage : (s.queue.lookup (manualSendId "0123456789abcdef0123456789abcdef")).map
      Delivery.message = some ['h', 'i', '\n', '\n', 'y', 'o'] := by decide +kernel
  refine ⟨d, hd, ?_, hiff.mpr fun h => h.2.1 rfl⟩
  have hsome : s.queue.lookup (manualSendId "0123456789abcdef0123456789abcdef") = some d := hd
  rw [hsome] at hmessage
  exact Option.some.inj hmessage

/-- A request for the merged message finds the receipt of the first prompt. -/
theorem merged_message_accepted :
    let s := final (freshStep digestLib) Store.empty
      (.manual (freshRequest ['h', 'i']) true 10 :: mergedLater)
    ∀ d, ¬ Identifies digestLib s (freshRequest ['h', 'i'])
      (freshRequest ['h', 'i', '\n', '\n', 'y', 'o']) d 12 := by
  intro s d hidentifies
  have hother : ¬ SamePayload (freshRequest ['h', 'i'])
      (freshRequest ['h', 'i', '\n', '\n', 'y', 'o']) := by
    intro hsame
    exact absurd hsame.1 (by decide)
  have hreturned : (enqueueManual digestLib s (freshRequest ['h', 'i', '\n', '\n', 'y', 'o']) true
      12).2.toOption.isSome = true := by decide +kernel
  obtain ⟨error, herror, _⟩ := hidentifies.refused hother
  rw [herror] at hreturned
  exact Bool.noConfusion hreturned

end Prompta.FreshChats
