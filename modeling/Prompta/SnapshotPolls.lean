import Prompta.Service
import Prompta.StreamChunks

/-!
Snapshots of a response stream while it arrives. A snapshot of an answer above its cap sets the
overflow flag, and a decoder with that flag reads no further chunk.
-/
namespace Prompta.SnapshotPolls

open Service (plainLib)
open Texts DisplayBlocks ToolCalls Schema JsonValues ToolEvents ResponseCapture StreamChunks

/-- What the owner of a stream does with its decoder. -/
inductive Poll
  | feed (now : Stamp) (chunk : Text)
  | snapshot (stopReason : Option StopReason)

def Poll.isFeed : Poll → Bool
  | .feed _ _ => true
  | .snapshot _ => false

section Polls

variable (lib : Stdlib) (codec : Codec)

/-- What a snapshot leaves of the decoder. -/
def observed (s : SseResponseAccumulator) (stopReason : Option StopReason) :
    SseResponseAccumulator :=
  { s with overflow := (snapshot lib s stopReason).2 }

def step (s : SseResponseAccumulator) : Poll → SseResponseAccumulator
  | .feed now chunk => feed lib codec now s chunk
  | .snapshot stopReason => observed lib s stopReason

def run (s : SseResponseAccumulator) (polls : List Poll) : SseResponseAccumulator :=
  polls.foldl (step lib codec) s

/-- The same chunks without the snapshots. -/
def unpolled (polls : List Poll) : List Poll := polls.filter Poll.isFeed

/-- The answer is above its cap, and a snapshot shows it. -/
def Overlong (d : Decoder) : Prop :=
  d.ambiguous = false ∧ maxAnswerCharacters < (partsText d.parts).length

/-- A decoder that is shown as complete while no overflow is known. -/
def Completed (stopReason : Option StopReason) (d : Decoder) : Prop :=
  d.ambiguous = false ∧ d.streamError = false ∧ stopReason.bind StopReason.status = none ∧
    d.complete = true ∧ d.seenFinal = true ∧ partsText d.parts ≠ [] ∧
    (partsText d.parts).length ≤ maxAnswerCharacters

/-- The snapshots change nothing: no chunk is ignored that is read without them, and the last
snapshot is the same. -/
def Unobserved (s : SseResponseAccumulator) (polls : List Poll) (now : Stamp)
    (stopReason : Option StopReason) : Prop :=
  (∀ before time chunk after, polls = before ++ .feed time chunk :: after → chunk ≠ [] →
    (run lib codec s before).overflow = true →
      (run lib codec s (unpolled before)).overflow = true) ∧
  (snapshot lib (finish lib codec now (run lib codec s polls)) stopReason).1 =
    (snapshot lib (finish lib codec now (run lib codec s (unpolled polls))) stopReason).1

/-- The decoder shows an overlong answer for the first time: it has not overflowed by its input. -/
def Cuts (s : SseResponseAccumulator) : Prop := s.overflow = false ∧ Overlong s.decoder

/-- A snapshot of an overlong answer comes after the last chunk, and the end of the stream does
not turn the answer into a complete one below the cap. -/
def Harmless (s : SseResponseAccumulator) (polls : List Poll) (now : Stamp)
    (stopReason : Option StopReason) : Prop :=
  ∀ before reason after, polls = before ++ .snapshot reason :: after →
    Cuts (run lib codec s (unpolled before)) →
      (∀ time chunk, .feed time chunk ∈ after → chunk = []) ∧
      ¬Completed stopReason (finish lib codec now (run lib codec s (unpolled before))).decoder

section Steps

variable {lib : Stdlib} {codec : Codec} {s : SseResponseAccumulator}

theorem run_append (s : SseResponseAccumulator) (before after : List Poll) :
    run lib codec s (before ++ after) = run lib codec (run lib codec s before) after :=
  List.foldl_append

theorem feed_nil (now : Stamp) (s : SseResponseAccumulator) : feed lib codec now s [] = s := by
  unfold feed
  rw [if_pos (Or.inl rfl)]

theorem feed_overflowed (now : Stamp) (chunk : Text) (h : s.overflow = true) :
    feed lib codec now s chunk = s := by
  unfold feed
  rw [if_pos (Or.inr h)]

theorem observed_eq (s : SseResponseAccumulator) (stopReason : Option StopReason)
    (h : ¬Overlong s.decoder) : observed lib s stopReason = s := by
  suffices hflag : (snapshot lib s stopReason).2 = s.overflow by rw [observed, hflag]
  unfold snapshot
  dsimp only
  cases hambiguous : s.decoder.ambiguous with
  | true => rfl
  | false =>
    have hshort : ¬maxAnswerCharacters < (partsText s.decoder.parts).length :=
      fun hlong => h ⟨hambiguous, hlong⟩
    show (s.overflow || decide _) = s.overflow
    rw [decide_eq_false hshort, Bool.or_false]

theorem observed_overlong (stopReason : Option StopReason) (h : Overlong s.decoder) :
    observed lib s stopReason = { s with overflow := true } := by
  suffices hflag : (snapshot lib s stopReason).2 = true by rw [observed, hflag]
  unfold snapshot
  dsimp only
  rw [h.1]
  show (s.overflow || decide _) = true
  rw [decide_eq_true h.2, Bool.or_true]

theorem observed_overflowed (stopReason : Option StopReason) (h : s.overflow = true) :
    observed lib s stopReason = s := by
  by_cases hlong : Overlong s.decoder
  · rw [observed_overlong stopReason hlong, ← h]
  · exact observed_eq s stopReason hlong

/-- After an overflow nothing changes. -/
theorem run_overflowed (polls : List Poll) (h : s.overflow = true) : run lib codec s polls = s := by
  induction polls with
  | nil => rfl
  | cons poll rest ih =>
    have hstep : step lib codec s poll = s := by
      cases poll with
      | feed now chunk => exact feed_overflowed now chunk h
      | snapshot stopReason => exact observed_overflowed stopReason h
    show run lib codec (step lib codec s poll) rest = s
    rw [hstep]
    exact ih

/-- Empty chunks change nothing. -/
theorem run_silent {polls : List Poll} (h : ∀ time chunk, .feed time chunk ∈ polls → chunk = []) :
    run lib codec s (unpolled polls) = s := by
  induction polls with
  | nil => rfl
  | cons poll rest ih =>
    have hrest := ih fun time chunk hmem => h time chunk (List.mem_cons_of_mem _ hmem)
    cases poll with
    | feed now chunk =>
      obtain rfl := h now chunk List.mem_cons_self
      show run lib codec (feed lib codec now s []) (unpolled rest) = s
      rw [feed_nil]
      exact hrest
    | snapshot stopReason => exact hrest

/-- Some snapshot shows the answer above its cap while chunks are still read. -/
def Cut (lib : Stdlib) (codec : Codec) (s : SseResponseAccumulator) (polls : List Poll) : Prop :=
  ∃ before reason after, polls = before ++ .snapshot reason :: after ∧
    Cuts (run lib codec s (unpolled before))

theorem cut_nil : ¬Cut lib codec s [] := by
  intro h
  obtain ⟨before, reason, after, hsplit, _⟩ := h
  exact List.append_ne_nil_of_right_ne_nil before (List.cons_ne_nil _ _) hsplit.symm

theorem cut_feed (now : Stamp) (chunk : Text) (rest : List Poll) :
    Cut lib codec s (.feed now chunk :: rest) ↔
      Cut lib codec (feed lib codec now s chunk) rest := by
  constructor
  · intro h
    obtain ⟨before, reason, after, hsplit, hcuts⟩ := h
    cases before with
    | nil => cases hsplit
    | cons poll before =>
      obtain ⟨rfl, rfl⟩ := List.cons.inj hsplit
      exact ⟨before, reason, after, rfl, hcuts⟩
  · intro h
    obtain ⟨before, reason, after, rfl, hcuts⟩ := h
    exact ⟨.feed now chunk :: before, reason, after, rfl, hcuts⟩

theorem cut_snapshot (stopReason : Option StopReason) (rest : List Poll) :
    Cut lib codec s (.snapshot stopReason :: rest) ↔ Cuts s ∨ Cut lib codec s rest := by
  constructor
  · intro h
    obtain ⟨before, reason, after, hsplit, hcuts⟩ := h
    cases before with
    | nil => exact Or.inl hcuts
    | cons poll before =>
      obtain ⟨rfl, rfl⟩ := List.cons.inj hsplit
      exact Or.inr ⟨before, reason, after, rfl, hcuts⟩
  · intro h
    rcases h with hcuts | h
    · exact ⟨[], stopReason, rest, rfl, hcuts⟩
    · obtain ⟨before, reason, after, rfl, hcuts⟩ := h
      exact ⟨.snapshot stopReason :: before, reason, after, rfl, hcuts⟩

theorem observed_uncut (stopReason : Option StopReason)
    (h : ¬Cuts s) : observed lib s stopReason = s := by
  by_cases hlong : Overlong s.decoder
  · apply observed_overflowed
    cases hoverflow : s.overflow with
    | true => rfl
    | false => exact absurd ⟨hoverflow, hlong⟩ h
  · exact observed_eq s stopReason hlong

/-- The flag stays set from the first cut on. -/
theorem run_cut {polls : List Poll} (h : Cut lib codec s polls) :
    (run lib codec s polls).overflow = true := by
  induction polls generalizing s with
  | nil => exact absurd h cut_nil
  | cons poll rest ih =>
    cases poll with
    | feed now chunk => exact ih ((cut_feed now chunk rest).mp h)
    | snapshot stopReason =>
      show (run lib codec (observed lib s stopReason) rest).overflow = true
      by_cases hcuts : Cuts s
      · rw [observed_overlong stopReason hcuts.2, run_overflowed rest rfl]
      · rw [observed_uncut stopReason hcuts]
        exact ih (((cut_snapshot stopReason rest).mp h).resolve_left hcuts)

/-- Without a cut the snapshots leave no trace. -/
theorem run_uncut {polls : List Poll} (h : ¬Cut lib codec s polls) :
    run lib codec s polls = run lib codec s (unpolled polls) := by
  induction polls generalizing s with
  | nil => rfl
  | cons poll rest ih =>
    cases poll with
    | feed now chunk => exact ih fun hcut => h ((cut_feed now chunk rest).mpr hcut)
    | snapshot stopReason =>
      have hcuts : ¬Cuts s := fun hcuts => h ((cut_snapshot stopReason rest).mpr (Or.inl hcuts))
      show run lib codec (observed lib s stopReason) rest = run lib codec s (unpolled rest)
      rw [observed_uncut stopReason hcuts]
      exact ih fun hcut => h ((cut_snapshot stopReason rest).mpr (Or.inr hcut))

/-- Every cut comes after the last chunk. -/
def Trailing (lib : Stdlib) (codec : Codec) (s : SseResponseAccumulator)
    (polls : List Poll) : Prop :=
  ∀ before reason after, polls = before ++ .snapshot reason :: after →
    Cuts (run lib codec s (unpolled before)) → ∀ time chunk, .feed time chunk ∈ after → chunk = []

theorem Trailing.tail {poll : Poll} {rest : List Poll} (h : Trailing lib codec s (poll :: rest)) :
    Trailing lib codec (run lib codec s (unpolled [poll])) rest := by
  intro before reason after hsplit hcuts
  apply h (poll :: before) reason after (by rw [hsplit, List.cons_append])
  rw [show unpolled (poll :: before) = unpolled [poll] ++ unpolled before from
    List.filter_append (p := Poll.isFeed) [poll] before, run_append]
  exact hcuts

/-- A cut after the last chunk changes only the flag. -/
theorem run_trailing {polls : List Poll} (htrailing : Trailing lib codec s polls)
    (h : Cut lib codec s polls) :
    run lib codec s polls = { run lib codec s (unpolled polls) with overflow := true } := by
  induction polls generalizing s with
  | nil => exact absurd h cut_nil
  | cons poll rest ih =>
    cases poll with
    | feed now chunk => exact ih htrailing.tail ((cut_feed now chunk rest).mp h)
    | snapshot stopReason =>
      show run lib codec (observed lib s stopReason) rest =
        { run lib codec s (unpolled rest) with overflow := true }
      by_cases hcuts : Cuts s
      · rw [observed_overlong stopReason hcuts.2, run_overflowed rest rfl,
          run_silent (htrailing [] stopReason rest rfl hcuts)]
      · rw [observed_uncut stopReason hcuts]
        exact ih htrailing.tail (((cut_snapshot stopReason rest).mp h).resolve_left hcuts)

/-- The status of a snapshot, from the flag it computes. -/
def shownStatus (d : Decoder) (stopReason : Option StopReason) (overflow : Bool) : CaptureStatus :=
  let text := (partsText d.parts).take maxAnswerCharacters
  if d.streamError then .interrupted
  else
    match stopReason.bind StopReason.status with
    | some status => status
    | none =>
      if d.complete && d.seenFinal && decide (text ≠ []) && !overflow then .complete
      else if text ≠ [] then .partialText
      else .unknown

/-- The status of a snapshot counts the text that it shows against the cap. -/
theorem snapshot_status (s : SseResponseAccumulator) (stopReason : Option StopReason)
    (h : s.decoder.ambiguous = false) :
    (snapshot lib s stopReason).1.status = shownStatus s.decoder stopReason
      (s.overflow || decide (maxAnswerCharacters < (partsText s.decoder.parts).length)) := by
  unfold snapshot
  dsimp only
  rw [h]
  rfl

theorem snapshot_congr {overflow : Bool} (stopReason : Option StopReason)
    (h : s.decoder.ambiguous = false →
      (snapshot lib { s with overflow := overflow } stopReason).1.status =
        (snapshot lib s stopReason).1.status) :
    (snapshot lib { s with overflow := overflow } stopReason).1 =
    (snapshot lib s stopReason).1 := by
  cases hambiguous : s.decoder.ambiguous with
  | true =>
    unfold snapshot
    dsimp only
    rw [hambiguous]
    rfl
  | false =>
    have hstatus := h hambiguous
    unfold snapshot at hstatus ⊢
    dsimp only at hstatus ⊢
    rw [hambiguous] at hstatus ⊢
    rw [if_neg Bool.false_ne_true, if_neg Bool.false_ne_true] at hstatus ⊢
    dsimp only at hstatus ⊢
    rw [hstatus]

theorem take_answer_ne_nil {t : Text} : t.take maxAnswerCharacters ≠ [] ↔ t ≠ [] := by
  have hpositive : maxAnswerCharacters ≠ 0 := by
    unfold maxAnswerCharacters
    omega
  rw [not_iff_not, List.take_eq_nil_iff]
  exact or_iff_right hpositive

theorem shownStatus_overflowed (d : Decoder) (stopReason : Option StopReason) :
    shownStatus d stopReason true ≠ .complete := by
  unfold shownStatus
  dsimp only
  rw [Bool.not_true, Bool.and_false]
  split
  · exact fun h => by cases h
  · split
    · rename_i status hstop
      obtain ⟨reason, _, hreason⟩ := Option.bind_eq_some_iff.mp hstop
      intro h
      rw [h] at hreason
      cases reason <;> cases hreason
    · rw [if_neg Bool.false_ne_true]
      split <;> exact fun h => by cases h

theorem shownStatus_completed {d : Decoder} {stopReason : Option StopReason}
    (h : Completed stopReason d) : shownStatus d stopReason false = .complete := by
  obtain ⟨_, herror, hstop, hcomplete, hseen, htext, _⟩ := h
  unfold shownStatus
  dsimp only
  rw [herror, hstop, hcomplete, hseen, decide_eq_true (take_answer_ne_nil.mpr htext)]
  rfl

/-- The flag decides only between a complete and a partial answer. -/
theorem shownStatus_flag {d : Decoder} {stopReason : Option StopReason}
    (h : d.streamError = false → stopReason.bind StopReason.status = none → d.complete = true →
      d.seenFinal = true → partsText d.parts ≠ [] → False) (first second : Bool) :
    shownStatus d stopReason first = shownStatus d stopReason second := by
  unfold shownStatus
  dsimp only
  cases herror : d.streamError with
  | true => rfl
  | false =>
    cases hstop : stopReason.bind StopReason.status with
    | some status => rfl
    | none =>
      have hfalse : (d.complete && d.seenFinal &&
          decide ((partsText d.parts).take maxAnswerCharacters ≠ [])) = false := by
        apply Bool.eq_false_iff.mpr
        intro htrue
        rw [Bool.and_eq_true, Bool.and_eq_true] at htrue
        exact h herror hstop htrue.1.1 htrue.1.2 (take_answer_ne_nil.mp (of_decide_eq_true htrue.2))
      rw [hfalse, Bool.false_and, Bool.false_and]

/-- A snapshot that is not of a complete answer does not depend on the flag. -/
theorem snapshot_flag (stopReason : Option StopReason) (h : ¬Completed stopReason s.decoder) :
    (snapshot lib { s with overflow := true } stopReason).1 = (snapshot lib s stopReason).1 := by
  apply snapshot_congr
  intro hambiguous
  rw [snapshot_status s _ hambiguous,
    snapshot_status { s with overflow := true } stopReason hambiguous]
  dsimp only
  by_cases hlong : maxAnswerCharacters < (partsText s.decoder.parts).length
  · rw [decide_eq_true hlong, Bool.or_true, Bool.or_true]
  · apply shownStatus_flag
    intro herror hstop hcomplete hseen htext
    exact h ⟨hambiguous, herror, hstop, hcomplete, hseen, htext, by omega⟩

/-- A decoder that is complete shows another result once an overflow is known. -/
theorem snapshot_completed (stopReason : Option StopReason) (hroom : s.overflow = false)
    (h : Completed stopReason s.decoder) :
    (snapshot lib { s with overflow := true } stopReason).1 ≠ (snapshot lib s stopReason).1 := by
  intro heq
  have hstatus : (snapshot lib { s with overflow := true } stopReason).1.status =
      (snapshot lib s stopReason).1.status := congrArg (fun r => r.toCaptureResult.status) heq
  have hshort : ¬maxAnswerCharacters < (partsText s.decoder.parts).length := by
    have hlength := h.2.2.2.2.2.2
    omega
  rw [snapshot_status s _ h.1, snapshot_status { s with overflow := true } stopReason h.1, hroom]
    at hstatus
  dsimp only at hstatus
  rw [decide_eq_false hshort, Bool.false_or, shownStatus_completed h, Bool.true_or] at hstatus
  exact shownStatus_overflowed _ _ hstatus

theorem finish_flag (now : Stamp) (s : SseResponseAccumulator) (overflow : Bool) :
    finish lib codec now { s with overflow := overflow } =
      { finish lib codec now s with overflow := overflow } := by
  have hflag := finish_received lib codec now s s.received overflow
  have hsame := finish_received lib codec now s s.received s.overflow
  rw [hflag]
  conv_rhs => rw [show finish lib codec now s = _ from hsame]

theorem finish_overflow (now : Stamp) (s : SseResponseAccumulator) :
    (finish lib codec now s).overflow = s.overflow := by
  have hsame : finish lib codec now s = { finish lib codec now s with overflow := s.overflow } :=
    finish_flag now s s.overflow
  rw [hsame]

/-- The first chunk of a list that is not empty. -/
theorem first_chunk {polls : List Poll} (h : ¬∀ time chunk, .feed time chunk ∈ polls → chunk = []) :
    ∃ silent time chunk after, polls = silent ++ .feed time chunk :: after ∧ chunk ≠ [] ∧
      ∀ time chunk, .feed time chunk ∈ silent → chunk = [] := by
  induction polls with
  | nil => exact absurd (fun _ _ hmem => absurd hmem List.not_mem_nil) h
  | cons poll rest ih =>
    by_cases hpoll : ∃ time chunk, poll = .feed time chunk ∧ chunk ≠ []
    · obtain ⟨time, chunk, rfl, hchunk⟩ := hpoll
      exact ⟨[], time, chunk, rest, rfl, hchunk, fun _ _ hmem => absurd hmem List.not_mem_nil⟩
    · have hhead : ∀ time chunk, .feed time chunk = poll → chunk = [] := by
        intro time chunk hfeed
        by_contra hchunk
        exact hpoll ⟨time, chunk, hfeed.symm, hchunk⟩
      have hrest : ¬∀ time chunk, .feed time chunk ∈ rest → chunk = [] := by
        intro hrest
        apply h
        intro time chunk hmem
        rcases List.mem_cons.mp hmem with hfeed | hmem
        · exact hhead time chunk hfeed
        · exact hrest time chunk hmem
      obtain ⟨silent, time, chunk, after, rfl, hchunk, hsilent⟩ := ih hrest
      refine ⟨poll :: silent, time, chunk, after, rfl, hchunk, ?_⟩
      intro time' chunk' hmem
      rcases List.mem_cons.mp hmem with hfeed | hmem
      · exact hhead time' chunk' hfeed
      · exact hsilent time' chunk' hmem

theorem unpolled_snapshot (before after : List Poll) (reason : Option StopReason) :
    unpolled (before ++ .snapshot reason :: after) = unpolled before ++ unpolled after :=
  List.filter_append before _

/-- Behind a cut only empty chunks may follow, which leave the decoder as it was. -/
theorem run_behind {before after : List Poll} (reason : Option StopReason)
    (h : ∀ time chunk, .feed time chunk ∈ after → chunk = []) :
    run lib codec s (unpolled (before ++ .snapshot reason :: after)) =
      run lib codec s (unpolled before) := by
  rw [unpolled_snapshot, run_append, run_silent h]

theorem trailing_of_unobserved {polls : List Poll} {now : Stamp} {stopReason : Option StopReason}
    (h : Unobserved lib codec s polls now stopReason) : Trailing lib codec s polls := by
  intro before reason after hsplit hcuts
  by_contra hchunks
  obtain ⟨silent, time, chunk, rest, rfl, hchunk, hsilent⟩ := first_chunk hchunks
  have hoverflow := h.1 (before ++ .snapshot reason :: silent) time chunk rest
    (by rw [hsplit, List.append_assoc, List.cons_append]) hchunk
    (run_cut ⟨before, reason, silent, rfl, hcuts⟩)
  rw [run_behind reason hsilent, hcuts.1] at hoverflow
  exact Bool.false_ne_true hoverflow

theorem harmless_of_unobserved {polls : List Poll} {now : Stamp} {stopReason : Option StopReason}
    (h : Unobserved lib codec s polls now stopReason) :
    Harmless lib codec s polls now stopReason := by
  have htrailing := trailing_of_unobserved h
  intro before reason after hsplit hcuts
  have hsilent := htrailing before reason after hsplit hcuts
  refine ⟨hsilent, ?_⟩
  intro hcompleted
  have hlast := h.2
  rw [run_trailing htrailing ⟨before, reason, after, hsplit, hcuts⟩, hsplit,
    run_behind reason hsilent, finish_flag] at hlast
  exact snapshot_completed stopReason ((finish_overflow now _).trans hcuts.1) hcompleted hlast

theorem unobserved_of_harmless {polls : List Poll} {now : Stamp} {stopReason : Option StopReason}
    (h : Harmless lib codec s polls now stopReason) :
    Unobserved lib codec s polls now stopReason := by
  have htrailing : Trailing lib codec s polls :=
    fun before reason after hsplit hcuts => (h before reason after hsplit hcuts).1
  constructor
  · intro before time chunk after hsplit hchunk hoverflow
    have huncut : ¬Cut lib codec s before := by
      intro hcut
      obtain ⟨first, reason, second, rfl, hcuts⟩ := hcut
      apply hchunk
      apply htrailing first reason (second ++ .feed time chunk :: after)
        (by rw [hsplit, List.append_assoc, List.cons_append]) hcuts time chunk
      exact List.mem_append_right _ List.mem_cons_self
    rw [← run_uncut huncut]
    exact hoverflow
  · by_cases hcut : Cut lib codec s polls
    · rw [run_trailing htrailing hcut]
      obtain ⟨before, reason, after, hsplit, hcuts⟩ := hcut
      obtain ⟨hsilent, hcompleted⟩ := h before reason after hsplit hcuts
      rw [hsplit, run_behind reason hsilent, finish_flag]
      exact snapshot_flag stopReason hcompleted
    · rw [run_uncut hcut]

end Steps

/-- Snapshots are observations only, for every schedule of them, unless one of them sees an answer
above its cap and a chunk follows or the end of the stream completes a shorter answer. -/
theorem snapshots_observe_iff (polls : List Poll) (now : Stamp) (stopReason : Option StopReason) :
    Unobserved lib codec {} polls now stopReason ↔ Harmless lib codec {} polls now stopReason :=
  ⟨harmless_of_unobserved, unobserved_of_harmless⟩

end Polls

section Example

def frame (payload : Text) : Text := "data: ".toList ++ payload ++ "\n\n".toList

def answerEvent (answer : Text) : Fields :=
  [("message".toList, .obj
    [("id".toList, .str "m-1".toList),
      ("author".toList, .obj [("role".toList, .str "assistant".toList)]),
      ("content".toList, .obj
        [("content_type".toList, .str "text".toList), ("parts".toList, .arr [.str answer])])])]

def answerLead : Text :=
  ("\x7b\"message\":\x7b\"id\":\"m-1\",\"author\":\x7b\"role\":\"assistant\"\x7d," ++
    "\"content\":\x7b\"content_type\":\"text\",\"parts\":[\"").toList

def answerTrail : Text := "\"]\x7d\x7d\x7d".toList

def answerPayload (answer : Text) : Text := answerLead ++ answer ++ answerTrail

def errorEvent : Fields := [("error".toList, .str "failed".toList)]

def errorPayload : Text := "\x7b\"error\":\"failed\"\x7d".toList

/-- Reads the two payloads of the stream. -/
def frameCodec (answer : Text) : Codec where
  loads := fun t =>
    if t = answerPayload answer then some (.obj (answerEvent answer))
    else if t = errorPayload then some (.obj errorEvent)
    else none
  dumps := fun _ => []

variable {lib : Stdlib} {codec : Codec} {s : SseResponseAccumulator} {payload : Text}
  {event : Fields}

theorem handleLine_data (now : Stamp) (s : SseResponseAccumulator) (payload : Text) :
    handleLine lib codec now s ("data: ".toList ++ payload) =
      { s with dataLines := s.dataLines ++ [payload] } := rfl

/-- An event of one line is decoded as it stands. -/
theorem flushEvent_payload (now : Stamp) (h : s.dataLines = [payload])
    (hdone : payload ≠ "[DONE]".toList) (hloads : codec.loads payload = some (.obj event)) :
    flushEvent lib codec now s =
      { s with dataLines := [], decoder := consume lib codec now s.decoder event } := by
  have hjoin : joinLines [payload] = payload := List.append_nil payload
  unfold flushEvent
  rw [h, if_neg (List.cons_ne_nil _ _)]
  dsimp only
  rw [hjoin, if_neg hdone, hloads]

theorem removeReturn_data (hnil : payload ≠ []) (hbreak : ∀ c ∈ payload, c ≠ '\r') :
    removeReturn ("data: ".toList ++ payload) = "data: ".toList ++ payload := by
  unfold removeReturn
  rw [if_neg]
  intro hsuffix
  obtain ⟨lead, hlead⟩ := List.isSuffixOf_iff_suffix.mp hsuffix
  have hlast := congrArg List.getLast? hlead
  rw [List.getLast?_append_of_ne_nil _ (List.cons_ne_nil _ _),
    List.getLast?_append_of_ne_nil _ hnil] at hlast
  exact hbreak _ (List.mem_of_getLast? hlast.symm) rfl

/-- A frame that fits goes through the buffers as a whole. -/
theorem feed_frame (now : Stamp) (hbuffer : s.lineBuffer = []) (hlines : s.dataLines = [])
    (hroom : s.overflow = false) (hsize : s.received + (frame payload).length ≤ maxSseCharacters)
    (hbreak : ∀ c ∈ payload, c ≠ '\n' ∧ c ≠ '\r') (hnil : payload ≠ [])
    (hdone : payload ≠ "[DONE]".toList)
    (hloads : codec.loads payload = some (.obj event)) :
    feed lib codec now s (frame payload) =
      { s with received := s.received + (frame payload).length
               decoder := consume lib codec now s.decoder event } := by
  have hframe : frame payload = ("data: ".toList ++ payload) ++ ['\n', '\n'] := rfl
  have hne : frame payload ≠ [] := by
    rw [hframe]
    exact List.append_ne_nil_of_right_ne_nil _ (List.cons_ne_nil _ _)
  have hline : '\n' ∉ "data: ".toList ++ payload := by
    intro hmem
    rcases List.mem_append.mp hmem with hstem | hmem
    · exact absurd hstem (by decide)
    · exact (hbreak _ hmem).1 rfl
  have hreturn := removeReturn_data hnil fun c hc => (hbreak c hc).2
  have htake : (frame payload).take (maxSseCharacters - s.received) = frame payload :=
    List.take_of_length_le (by omega)
  have hlimit : ¬maxSseCharacters - s.received < (frame payload).length := by omega
  unfold feed
  rw [if_neg (by simp [hne, hroom])]
  dsimp only
  rw [htake, decide_eq_false hlimit, takeLines_received, hbuffer, List.nil_append, hframe,
    takeLines_unbroken lib codec now s [] _ _ hline, List.nil_append, takeLines_cons, if_pos rfl,
    takeLines_cons, if_pos rfl, hreturn]
  have hflush : flushEvent lib codec now { s with dataLines := [payload] } =
      { s with dataLines := [], decoder := consume lib codec now s.decoder event } :=
    flushEvent_payload now rfl hdone hloads
  rw [handleLine_data, hlines, List.nil_append]
  show ({ flushEvent lib codec now { s with dataLines := [payload] } with
          lineBuffer := [], received := s.received + (frame payload).length, overflow := false }
      : SseResponseAccumulator) = _
  rw [hflush, ← hframe]
  cases s
  obtain rfl := hlines
  obtain rfl := hbuffer
  obtain rfl := hroom
  rfl

theorem consume_answer (now : Stamp) {answer : Text} (hloads : codec.loads answer = none) :
    let d := consume lib codec now {} (answerEvent answer)
    d.parts = [answer] ∧ d.ambiguous = false := by
  have hmessage : eventMessage (answerEvent answer) =
      some (((answerEvent answer).get "message").record, .null, .null) := rfl
  rw [consume_message lib codec now {} hmessage rfl rfl]
  unfold consumeMessage
  rw [observe_prose lib codec now rfl rfl]
  · exact ⟨rfl, rfl⟩
  · have hdecode : decode codec (.str answer) = .str answer := by
      show (codec.loads answer).getD (.str answer) = .str answer
      rw [hloads]
      rfl
    have hparsed : parseEnvelope codec (.str answer) = [] := by
      unfold parseEnvelope
      rw [hdecode]
      rfl
    show (((parseEnvelope codec (.str answer)).get "type").among ["mcpToolCall"] ||
      !((parseEnvelope codec (.str answer)).get "appContext").record.isEmpty) = false
    rw [hparsed]
    rfl

/-- One character above the cap. -/
structure Overfull (answer : Text) : Prop where
  length : answer.length = maxAnswerCharacters + 1
  char : ∀ c ∈ answer, c = 'a'

variable {answer : Text}

theorem mem_answerPayload {answer : Text} {c : Char} :
    c ∈ answerPayload answer ↔ c ∈ answerLead ∨ c ∈ answer ∨ c ∈ answerTrail := by
  rw [answerPayload, List.mem_append, List.mem_append, or_assoc]

theorem overlong_unread (hanswer : Overfull answer) : (frameCodec answer).loads answer = none := by
  have hbrace : '\x7b' ∉ answer := fun hmem => absurd (hanswer.char _ hmem) (by decide)
  have hpayload : answer ≠ answerPayload answer := by
    intro heq
    apply hbrace
    rw [heq]
    exact mem_answerPayload.mpr (Or.inl (by decide))
  have herror : answer ≠ errorPayload := by
    intro heq
    apply hbrace
    rw [heq]
    decide
  show (if _ then _ else if _ then _ else _) = _
  rw [if_neg hpayload, if_neg herror]

theorem answer_read (answer : Text) : (frameCodec answer).loads (answerPayload answer) =
    some (.obj (answerEvent answer)) := if_pos rfl

theorem answer_unbroken (hanswer : Overfull answer) :
    ∀ c ∈ answerPayload answer, c ≠ '\n' ∧ c ≠ '\r' := by
  have hparts : (answerLead ++ answerTrail).all (fun c => c ≠ '\n' && c ≠ '\r') =
      true := by decide +kernel
  have hfixed : ∀ c ∈ answerLead ++ answerTrail, c ≠ '\n' ∧ c ≠ '\r' := by
    intro c hc
    have hchar := List.all_eq_true.mp hparts c hc
    rw [Bool.and_eq_true] at hchar
    exact ⟨of_decide_eq_true hchar.1, of_decide_eq_true hchar.2⟩
  intro c hc
  rcases mem_answerPayload.mp hc with hlead | hmem | htrail
  · exact hfixed c (List.mem_append_left _ hlead)
  · rw [hanswer.char c hmem]
    decide
  · exact hfixed c (List.mem_append_right _ htrail)

theorem frame_room {lead trail answer room : ℕ} (hlead : lead ≤ 200) (htrail : trail ≤ 200)
    (hroom : answer + 409 ≤ room) : 6 + (lead + (answer + 1) + trail) + 2 ≤ room := by
  omega

theorem answerFrame_length (hanswer : Overfull answer) :
    (frame (answerPayload answer)).length ≤ maxSseCharacters := by
  have hlead : answerLead.length ≤ 200 := by decide +kernel
  have htrail : answerTrail.length ≤ 200 := by decide +kernel
  have hdata : "data: ".toList.length = 6 := by decide
  have hend : "\n\n".toList.length = 2 := by decide
  have hcaps : maxAnswerCharacters + 409 ≤ maxSseCharacters := by
    unfold maxAnswerCharacters maxSseCharacters
    omega
  unfold frame answerPayload
  rw [List.length_append, List.length_append, List.length_append, List.length_append,
    hanswer.length, hdata, hend]
  exact frame_room hlead htrail hcaps

/-- The decoder after the overlong answer. -/
theorem answer_fed (hanswer : Overfull answer) (now : Stamp) :
    feed plainLib (frameCodec answer) now {} (frame (answerPayload answer)) =
      { received := 0 + (frame (answerPayload answer)).length
        decoder := consume plainLib (frameCodec answer) now {} (answerEvent answer) } := by
  have hlead : 'm' ∈ answerPayload answer := mem_answerPayload.mpr (Or.inl (by decide))
  refine feed_frame now rfl rfl rfl ?_ (answer_unbroken hanswer) ?_ ?_ (answer_read answer)
  · rw [show ({} : SseResponseAccumulator).received = 0 from rfl, Nat.zero_add]
    exact answerFrame_length hanswer
  · intro hnil
    rw [hnil] at hlead
    exact absurd hlead List.not_mem_nil
  · intro hdone
    rw [hdone] at hlead
    exact absurd hlead (by decide)

theorem answer_cuts (hanswer : Overfull answer) (now : Stamp) :
    Cuts (feed plainLib (frameCodec answer) now {} (frame (answerPayload answer))) := by
  obtain ⟨hparts, hambiguous⟩ := @consume_answer plainLib _ now _ (overlong_unread hanswer)
  have hstrip : strip answer = answer := by
    apply strip_solid
    intro c hc
    rw [hanswer.char c hc]
    decide
  have hne : answer ≠ [] := by
    intro hnil
    have hlength := hanswer.length
    rw [hnil, List.length_nil] at hlength
    omega
  rw [answer_fed hanswer]
  refine ⟨rfl, hambiguous, ?_⟩
  show _ < (partsText (consume plainLib _ now {} (answerEvent answer)).parts).length
  rw [hparts]
  have hfilter : [answer].filter (fun part => decide (part ≠ [])) = [answer] :=
    List.filter_cons_of_pos (decide_eq_true hne)
  unfold partsText joinLines
  rw [hfilter]
  show _ < (strip (answer ++ [])).length
  rw [List.append_nil, hstrip, hanswer.length]
  omega

theorem frame_ne (payload : Text) : frame payload ≠ [] :=
  List.append_ne_nil_of_right_ne_nil _ (List.cons_ne_nil _ _)

/-- An answer is observed, and an error of the stream follows. -/
def polledError (answer : Text) : List Poll :=
  [.feed ⟨60, "60.0".toList⟩ (frame (answerPayload answer)), .snapshot none,
    .feed ⟨61, "61.0".toList⟩ (frame errorPayload)]

theorem run_unpolled_feed (now : Stamp) (chunk : Text) :
    run lib codec s (unpolled [.feed now chunk]) = feed lib codec now s chunk := rfl

theorem error_ignored (hanswer : Overfull answer) :
    ¬Unobserved plainLib (frameCodec answer) {} (polledError answer) ⟨62, "62.0".toList⟩ none := by
  intro h
  apply frame_ne errorPayload
  have hsilent := trailing_of_unobserved h
      [.feed ⟨60, "60.0".toList⟩ (frame (answerPayload answer))] none
    [.feed ⟨61, "61.0".toList⟩ (frame errorPayload)] (by rw [polledError, List.singleton_append])
  rw [run_unpolled_feed] at hsilent
  exact hsilent (answer_cuts hanswer _) ⟨61, "61.0".toList⟩ (frame errorPayload) List.mem_cons_self

def overlongAnswer : Text := List.replicate (maxAnswerCharacters + 1) 'a'

theorem overlongAnswer_overfull : Overfull overlongAnswer := by
  constructor
  · unfold overlongAnswer
    rw [List.length_replicate]
  · intro c hc
    exact List.eq_of_mem_replicate hc

theorem polled_error_ignored :
    ¬Unobserved plainLib (frameCodec overlongAnswer) {} (polledError overlongAnswer)
      ⟨62, "62.0".toList⟩ none :=
  error_ignored overlongAnswer_overfull

end Example
end Prompta.SnapshotPolls
