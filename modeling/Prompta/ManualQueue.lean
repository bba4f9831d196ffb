import Prompta.DeliveryQueue

/-!
Fresh chats by hand. A request identifier names the delivery, so that a repeated
request finds the receipt of the first one. The saved message may have grown since;
the digest on the oldest merge receipt still tells the first prompt.
-/
namespace Prompta.ManualQueue

open Tables Texts DisplayBlocks Schema ResponseStore ReplyStore DeliveryQueue

inductive ManualError
  | promptRequired
  | invalidRequestId
  | queue (error : QueueError)
  | resultsUnavailable
  | differentPayload
  | invalidRunId
  deriving DecidableEq, Repr

/-- `resultsUnavailable` stands for an error of the results database itself. -/
def ManualError.message : ManualError → String
  | .promptRequired => "Prompt is required"
  | .invalidRequestId => "Invalid fresh chat request identifier"
  | .queue error => error.message
  | .resultsUnavailable => ""
  | .differentPayload => "Fresh chat identifier belongs to a different payload"
  | .invalidRunId => "Invalid local run ID"

/-- `[0-9a-f]{32}` -/
def isRequestId (requestId : String) : Bool :=
  requestId.toList.length = 32 && requestId.toList.all isLowerHex

structure ManualRequest where
  requestId : String
  prompt : Text
  images : List String := []
  pinChat : Bool := false
  pinLocalDefault : Bool := false

def manualSendId (requestId : String) : String := "manual-" ++ requestId

def manualClientId (requestId : String) (pinChat : Bool) : String :=
  "manual:" ++ (if pinChat then "once:" else "") ++ requestId

def manualRecord (request : ManualRequest) : DeliveryRecord :=
  { sendId := manualSendId request.requestId, message := request.prompt,
    clientId := manualClientId request.requestId request.pinChat, images := request.images,
    pinChat := request.pinChat }

/-- The digest of the first prompt, on the oldest merge receipt of the chat. -/
def originalHash (c : Chats) (sendId : String) : Option String :=
  (mergedRows c sendId).head?.map ReplyRow.messageId

def validRunId (sendId : String) : Bool :=
  decide (sendId ≠ "") && sendId.toList.length ≤ 200 && decide ('/' ∉ sendId.toList)

/-- A new pin is placed below the others. -/
def pinPosition (pins : List LocalPin) (now : Time) : Time :=
  match (pins.map LocalPin.pinnedAt).min? with
  | none => now
  | some last => last - 1 / 1000

def setLocalPin (c : Chats) (sendId : String) (pinned : Bool) (now : Time) :
    Chats × Except ManualError Bool :=
  if !validRunId sendId then (c, .error .invalidRunId)
  else if c.results.lookup sendId = none then (c, .ok false)
  else if !pinned then
    ({ c with localPins := c.localPins.filter fun pin => decide (pin.sendId ≠ sendId) }, .ok true)
  else if isPinned c sendId then (c, .ok true)
  else
    ({ c with localPins := c.localPins ++ [⟨sendId, pinPosition c.localPins now⟩] }, .ok true)

/-- Queue a fresh chat, or find the receipt of the same request. The answer is given
once the results database has taken the queued row of a pending delivery. -/
def enqueueManual (lib : Stdlib) (s : Store) (request : ManualRequest) (answers : Bool)
    (now : Time) : Store × Except ManualError Delivery :=
  if strip request.prompt = [] then (s, .error .promptRequired)
  else if !isRequestId request.requestId then (s, .error .invalidRequestId)
  else
    match enqueueIdempotent s (manualRecord request) answers now with
    | (s', .error e) => (s', .error (.queue e))
    | (s', .ok (d, created)) =>
      if !answers && (created || d.status.isPending) then (s', .error .resultsUnavailable)
      else if d.message ≠ request.prompt ∧
          originalHash s'.chats d.sendId ≠ some (lib.sha256 request.prompt) then
        (s', .error .differentPayload)
      else
        match imageRefs d.images with
        | .error e => (s', .error (.queue e))
        | .ok refs =>
          if refs ≠ request.images ∨ d.clientId ≠ manualClientId request.requestId request.pinChat
          then (s', .error .differentPayload)
          else if created && request.pinLocalDefault then
            match setLocalPin s'.chats d.sendId true now with
            | (c, .error e) => ({ s' with chats := c }, .error e)
            | (c, .ok _) => ({ s' with chats := c }, .ok d)
          else (s', .ok d)

end Prompta.ManualQueue
