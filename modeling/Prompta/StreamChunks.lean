import Prompta.ResponseCapture

/-!
The chunks of a response stream. What the decoder holds after any chunks is what the lines of
their joined text give, cut at the size limit: the buffer is the text since the last line
break, and it has none itself.
-/
namespace Prompta.StreamChunks

open Texts DisplayBlocks ToolCalls JsonValues ResponseCapture

variable (lib : Stdlib) (codec : Codec) (now : Stamp)

theorem handleLine_lineBuffer (s : SseResponseAccumulator) (buffer line : Text) :
    handleLine lib codec now { s with lineBuffer := buffer } line =
      { handleLine lib codec now s line with lineBuffer := buffer } := by
  unfold handleLine flushEvent
  dsimp only
  split_ifs
  · rfl
  · rfl
  · cases codec.loads (joinLines s.dataLines) with
    | none => rfl
    | some value => cases value <;> rfl
  · rfl
  · rfl

theorem handleLine_received (s : SseResponseAccumulator) (received : ℕ) (overflow : Bool)
    (line : Text) :
    handleLine lib codec now { s with received := received, overflow := overflow } line =
      { handleLine lib codec now s line with received := received, overflow := overflow } := by
  unfold handleLine flushEvent
  dsimp only
  split_ifs
  · rfl
  · rfl
  · cases codec.loads (joinLines s.dataLines) with
    | none => rfl
    | some value => cases value <;> rfl
  · rfl
  · rfl

/-- A line is handled at its break. -/
theorem takeLines_cons (s : SseResponseAccumulator) (line : Text) (c : Char) (rest : Text) :
    takeLines lib codec now s line (c :: rest) =
      if c = '\n' then takeLines lib codec now
        (handleLine lib codec now s (removeReturn line)) [] rest
      else takeLines lib codec now s (line ++ [c]) rest := by
  by_cases hc : c = '\n'
  · subst hc
    rfl
  · rw [if_neg hc, takeLines]
    exact hc

/-- Only the buffer is replaced at the end. -/
theorem takeLines_lineBuffer (s : SseResponseAccumulator) (buffer line t : Text) :
    takeLines lib codec now { s with lineBuffer := buffer } line t =
      takeLines lib codec now s line t := by
  induction t generalizing s line with
  | nil => rfl
  | cons c rest ih =>
    rw [takeLines_cons, takeLines_cons]
    split
    · rw [handleLine_lineBuffer]
      exact ih _ _
    · exact ih _ _

theorem takeLines_received (s : SseResponseAccumulator) (received : ℕ) (overflow : Bool)
    (line t : Text) :
    takeLines lib codec now { s with received := received, overflow := overflow } line t =
      { takeLines lib codec now s line t with received := received, overflow := overflow } := by
  induction t generalizing s line with
  | nil => rfl
  | cons c rest ih =>
    rw [takeLines_cons, takeLines_cons]
    split
    · rw [handleLine_received]
      exact ih _ _
    · exact ih _ _

/-- The lines of a text are those of its first part, and those of the rest behind what is left. -/
theorem takeLines_append (s : SseResponseAccumulator) (line first second : Text) :
    takeLines lib codec now s line (first ++ second) =
      takeLines lib codec now (takeLines lib codec now s line first)
        (takeLines lib codec now s line first).lineBuffer second := by
  induction first generalizing s line with
  | nil => exact (takeLines_lineBuffer lib codec now s line line second).symm
  | cons c rest ih =>
    rw [List.cons_append, takeLines_cons, takeLines_cons]
    split
    · exact ih _ _
    · exact ih _ _

theorem takeLines_unbroken (s : SseResponseAccumulator) (line first second : Text)
    (h : '\n' ∉ first) :
    takeLines lib codec now s line (first ++ second) =
      takeLines lib codec now s (line ++ first) second := by
  induction first generalizing line with
  | nil => rw [List.append_nil, List.nil_append]
  | cons c rest ih =>
    have hc : c ≠ '\n' := fun hc => h (hc ▸ List.mem_cons_self)
    have hrest : '\n' ∉ rest := fun hmem => h (List.mem_cons_of_mem c hmem)
    rw [List.cons_append, takeLines_cons, if_neg hc, ih _ hrest, List.append_assoc]
    rfl

/-- The buffer holds no line break. -/
theorem takeLines_buffer (s : SseResponseAccumulator) (line t : Text) (h : '\n' ∉ line) :
    '\n' ∉ (takeLines lib codec now s line t).lineBuffer := by
  induction t generalizing s line with
  | nil => exact h
  | cons c rest ih =>
    rw [takeLines_cons]
    split
    · exact ih _ _ List.not_mem_nil
    · rename_i hc
      apply ih
      intro hmem
      rcases List.mem_append.mp hmem with hline | hlast
      · exact h hline
      · exact hc (List.mem_singleton.mp hlast).symm

/-- What the lines of a text leave of an empty decoder. -/
def linesOf (t : Text) : SseResponseAccumulator := takeLines lib codec now {} [] t

theorem linesOf_append (first second : Text) :
    linesOf lib codec now (first ++ second) =
      takeLines lib codec now (linesOf lib codec now first) []
        ((linesOf lib codec now first).lineBuffer ++ second) := by
  have hbuffer : '\n' ∉ (linesOf lib codec now first).lineBuffer :=
    takeLines_buffer lib codec now {} [] first List.not_mem_nil
  rw [takeLines_unbroken lib codec now _ _ _ _ hbuffer]
  exact takeLines_append lib codec now {} [] first second

/-- The decoder after a text: its lines, cut at the limit, with the count of what came while
there was room. -/
structure Fed (t : Text) (s : SseResponseAccumulator) : Prop where
  lines : s = { linesOf lib codec now (t.take maxSseCharacters) with
                received := s.received, overflow := decide (maxSseCharacters < t.length) }
  received : t.length ≤ maxSseCharacters → s.received = t.length

theorem fed_nil : Fed lib codec now [] {} := ⟨rfl, fun _ => rfl⟩

theorem fed_feed {t : Text} {s : SseResponseAccumulator} (h : Fed lib codec now t s)
    (chunk : Text) :
    Fed lib codec now (t ++ chunk) (feed lib codec now s chunk) := by
  have hoverflow : s.overflow = decide (maxSseCharacters < t.length) := by rw [h.lines]
  by_cases hfull : maxSseCharacters < t.length
  · have hskip : feed lib codec now s chunk = s := by
      unfold feed
      rw [if_pos (Or.inr (hoverflow.trans (decide_eq_true hfull)))]
    have hlength : maxSseCharacters < (t ++ chunk).length := by
      rw [List.length_append]
      omega
    constructor
    · rw [hskip, List.take_append_of_le_length (by omega)]
      have hlines := h.lines
      rw [decide_eq_true hfull] at hlines
      rw [decide_eq_true hlength]
      exact hlines
    · intro hle
      omega
  · have hreceived := h.received (by omega)
    have hroom : s.overflow = false := hoverflow.trans (decide_eq_false hfull)
    have htake : t.take maxSseCharacters = t := List.take_of_length_le (by omega)
    have hlines := h.lines
    rw [htake, decide_eq_false hfull] at hlines
    by_cases hchunk : chunk = []
    · subst hchunk
      have hskip : feed lib codec now s [] = s := by
        unfold feed
        rw [if_pos (Or.inl rfl)]
      rw [hskip, List.append_nil]
      exact h
    · have hcut : (t ++ chunk).take maxSseCharacters = t ++ chunk.take
          (maxSseCharacters - t.length) := by
        rw [List.take_append, htake]
      have hlonger : decide (maxSseCharacters - t.length < chunk.length) =
          decide (maxSseCharacters < (t ++ chunk).length) := by
        rw [decide_eq_decide, List.length_append]
        omega
      have hfeed : feed lib codec now s chunk =
          { linesOf lib codec now (t ++ chunk.take (maxSseCharacters - t.length)) with
            received := t.length + chunk.length
            overflow := decide (maxSseCharacters < (t ++ chunk).length) } := by
        unfold feed
        rw [if_neg (by simp [hchunk, hroom]), hreceived, linesOf_append]
        dsimp only
        rw [hlonger, takeLines_received]
        rw [hlines]
        dsimp only
        rw [takeLines_received]
      constructor
      · rw [hcut, hfeed]
      · intro _
        rw [hfeed, List.length_append]

theorem fed_chunks (chunks : List Text) :
    Fed lib codec now chunks.flatten (chunks.foldl (feed lib codec now) {}) := by
  induction chunks using List.reverseRecOn with
  | nil => exact fed_nil lib codec now
  | append_singleton chunks chunk ih =>
    rw [List.flatten_concat, List.foldl_concat]
    exact fed_feed lib codec now ih chunk

theorem flushEvent_received (s : SseResponseAccumulator) (received : ℕ) (overflow : Bool) :
    flushEvent lib codec now { s with received := received, overflow := overflow } =
      { flushEvent lib codec now s with received := received, overflow := overflow } :=
  handleLine_received lib codec now s received overflow []

theorem finish_received (s : SseResponseAccumulator) (received : ℕ) (overflow : Bool) :
    finish lib codec now { s with received := received, overflow := overflow } =
      { finish lib codec now s with received := received, overflow := overflow } := by
  unfold finish
  dsimp only
  split_ifs
  · exact flushEvent_received lib codec now s received overflow
  · rw [handleLine_received]
    exact flushEvent_received lib codec now
      { handleLine lib codec now s (removeReturn s.lineBuffer) with lineBuffer := [] }
      received overflow

/-- The end of the stream, as if its text had come in one chunk. -/
theorem fed_finish {t : Text} {s : SseResponseAccumulator} (h : Fed lib codec now t s) :
    finish lib codec now s =
      { finish lib codec now (linesOf lib codec now (t.take maxSseCharacters)) with
      received := s.received, overflow := decide (maxSseCharacters < t.length) } :=
  (congrArg (finish lib codec now) h.lines).trans (finish_received lib codec now _ _ _)

/-- The chunks in which a stream arrives do not matter. -/
theorem chunking_invariant (chunks : List Text) (stopReason : Option StopReason) :
    let split := finish lib codec now (chunks.foldl (feed lib codec now) {})
    let whole := finish lib codec now (feed lib codec now {} chunks.flatten)
    snapshot lib split stopReason = snapshot lib whole stopReason ∧
      split.overflow = whole.overflow := by
  have hsplit := fed_finish lib codec now (fed_chunks lib codec now chunks)
  have hwhole := fed_finish lib codec now
      (fed_feed lib codec now (fed_nil lib codec now) chunks.flatten)
  rw [List.nil_append] at hwhole
  dsimp only
  rw [hsplit, hwhole]
  exact ⟨rfl, rfl⟩

end Prompta.StreamChunks
