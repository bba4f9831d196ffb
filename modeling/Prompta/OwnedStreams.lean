import Prompta.ImageStore
import Prompta.Runs

/-!
The passive reading of response streams on one owned tab. The chunks of a stream arrive while the
answer to the arming, which brings the data buffered so far, is still under way. They wait in a
list of bounded size and follow the buffered data into the decoder. A chunk that does not fit the
list is dropped alone, so a later one can come through behind the gap.
-/
namespace Prompta.OwnedStreams

open ImageStore Runs Texts

section Streams

def maxStreamBytes : ℕ := 4 * 1024 * 1024

/-- A payload in base 64 with its arrival number, by which two equal payloads are told apart. -/
structure Chunk where
  number : ℕ
  data : Text
  deriving DecidableEq

/-- The decoder, the parser behind it, and what the observer publishes of a parser. -/
structure Reader (δ π ω : Type) where
  decode : δ → Bytes → δ × Text
  decodeFinal : δ → Text
  feed : π → Text → π
  finish : π → π
  progressEvents : π → ℕ
  publish : ω → π → ω

structure Stream (δ π : Type) where
  parser : π
  decoder : δ
  pending : List Chunk := []
  armed : Bool := false
  finished : Bool := false
  received : ℕ := 0
  publishedEvents : ℕ := 0

/-- What the decoder is given. -/
inductive Handed
  | chunk (c : Chunk)
  | flush
  deriving DecidableEq

/-- A stream at work, with what was published and what the decoder was given so far. -/
structure Feeding (δ π ω : Type) where
  stream : Stream δ π
  published : ω
  handed : List Handed := []

structure OwnedToolStream (δ π ω : Type) where
  streams : String → Option (Stream δ π)
  published : ω
  isActive : Bool := true
  stopped : Bool := false

inductive StreamEvent
  | armed (bufferedData : Option Chunk)
  | refused
  | data (chunk : Chunk)
  | finished
  deriving DecidableEq

variable {δ π ω : Type} (reader : Reader δ π ω)

def snapshot (w : Feeding δ π ω) : Feeding δ π ω :=
  if reader.progressEvents w.stream.parser = w.stream.publishedEvents then w
  else
    { w with
      stream := { w.stream with publishedEvents := reader.progressEvents w.stream.parser }
      published := reader.publish w.published w.stream.parser }

def feed (w : Feeding δ π ω) (encoded : Chunk) : Feeding δ π ω :=
  if maxStreamBytes ≤ w.stream.received then w
  else
    match b64decode encoded.data with
    | none => w
    | some bytes =>
      let received := w.stream.received + bytes.length
      if maxStreamBytes < received then { w with stream := { w.stream with received := received } }
      else
        let (decoder, text) := reader.decode w.stream.decoder bytes
        snapshot reader
          { w with
            stream :=
              { w.stream with
                received := received
                decoder := decoder
                parser := reader.feed w.stream.parser text }
            handed := w.handed ++ [.chunk encoded] }

/-- The stream goes back under its identifier. -/
def OwnedToolStream.put (o : OwnedToolStream δ π ω) (identity : String) (w : Feeding δ π ω) :
    OwnedToolStream δ π ω :=
  { o with streams := Function.update o.streams identity (some w.stream), published := w.published }

def flush (o : OwnedToolStream δ π ω) (identity : String) (w : Feeding δ π ω) :
    OwnedToolStream δ π ω × List Handed :=
  let parser := reader.feed w.stream.parser (reader.decodeFinal w.stream.decoder)
  let last := snapshot reader { w with stream := { w.stream with parser := reader.finish parser } }
  ({ o with streams := Function.update o.streams identity none, published := last.published },
    w.handed ++ [.flush])

/-- The stream becomes armed and takes the chunks that wait. -/
def feedPending (w : Feeding δ π ω) : Feeding δ π ω :=
  let armed := { w with stream := { w.stream with armed := true } }
  let fed := w.stream.pending.foldl (feed reader) armed
  { fed with stream := { fed.stream with pending := [] } }

/-- The rest of `arm`, once the response is there. -/
def arm (o : OwnedToolStream δ π ω) (identity : String) (bufferedData : Option Chunk) :
    OwnedToolStream δ π ω × List Handed :=
  match o.streams identity with
  | none => (o, [])
  | some stream =>
    if o.stopped then (o, [])
    else
      let opened : Feeding δ π ω := { stream := stream, published := o.published }
      let fed := feedPending reader (bufferedData.elim opened (feed reader opened))
      if fed.stream.finished then flush reader o identity fed else (o.put identity fed, fed.handed)

def textSize (chunks : List Chunk) : ℕ := (chunks.map fun c => c.data.length).sum

def onData (o : OwnedToolStream δ π ω) (identity : String) (chunk : Chunk) :
    OwnedToolStream δ π ω × List Handed :=
  match o.streams identity with
  | none => (o, [])
  | some stream =>
    let opened : Feeding δ π ω := { stream := stream, published := o.published }
    if !o.isActive then (o, [])
    else if stream.armed then
      (o.put identity (feed reader opened chunk), (feed reader opened chunk).handed)
    else if textSize stream.pending + chunk.data.length ≤ maxStreamBytes * 2 then
      let held := { opened with stream := { stream with pending := stream.pending ++ [chunk] } }
      (o.put identity held, [])
    else (o, [])

def onFinished (o : OwnedToolStream δ π ω) (identity : String) :
    OwnedToolStream δ π ω × List Handed :=
  match o.streams identity with
  | none => (o, [])
  | some stream =>
    let ended : Feeding δ π ω :=
      { stream := { stream with finished := true }, published := o.published }
    if stream.armed then flush reader o identity ended else (o.put identity ended, [])

def step (o : OwnedToolStream δ π ω) (event : String × StreamEvent) :
    OwnedToolStream δ π ω × List Handed :=
  match event.2 with
  | .armed bufferedData => arm reader o event.1 bufferedData
  | .refused => ({ o with streams := Function.update o.streams event.1 none }, [])
  | .data chunk => onData reader o event.1 chunk
  | .finished => onFinished reader o event.1

/-- What the decoder of one stream is given in a run. -/
def handedTo (o : OwnedToolStream δ π ω) (identity : String) (run : List (String × StreamEvent)) :
    List Handed :=
  (events (step reader) o run).flatMap fun e => if e.input.1 = identity then e.output else []

end Streams

section Orders

def bytesOf (c : Chunk) : Bytes := (b64decode c.data).getD []

def numberedBytes (chunks : List Chunk) : List (ℕ × UInt8) :=
  chunks.flatMap fun c => (bytesOf c).map fun b => (c.number, b)

def byteSize (chunks : List Chunk) : ℕ := (chunks.map fun c => (bytesOf c).length).sum

def eventsOf (identity : String) (run : List (String × StreamEvent)) : List StreamEvent :=
  (run.filter fun event => event.1 = identity).map Prod.snd

def chunkOf : StreamEvent → Option Chunk
  | .data chunk => some chunk
  | _ => none

def isAnswer : StreamEvent → Bool
  | .armed _ => true
  | .refused => true
  | _ => false

def isEnd (event : StreamEvent) : Bool := decide (event = .finished)

/-- The buffered data, and behind it the chunks in their order of arrival. -/
def arrivals (before : List StreamEvent) (buffered : Option Chunk) (after : List StreamEvent) :
    List Chunk :=
  buffered.toList ++ (before.filterMap chunkOf ++ after.filterMap chunkOf)

/-- The decoder is given a first part of the bytes in order, and then the flush. -/
def FedInOrder (arrived : List Chunk) (handed : List Handed) : Prop :=
  ∃ fed : List Chunk, handed = fed.map Handed.chunk ++ [Handed.flush] ∧
    numberedBytes fed <+: numberedBytes arrived

/-- The events of one stream: the arming with the buffered data among chunks and an end. -/
structure Interleaved (events before : List StreamEvent) (buffered : Option Chunk)
    (after : List StreamEvent) : Prop where
  split : events = before ++ .armed buffered :: after
  unanswered : ∀ e ∈ before ++ after, isAnswer e = false
  ended : (before ++ after).countP isEnd = 1
  valid : ∀ c ∈ arrivals before buffered after, (b64decode c.data).isSome
  distinct : ((arrivals before buffered after).map Chunk.number).Nodup

/-- The waiting list with a further chunk, where that still fits. -/
def hold (pending : List Chunk) (c : Chunk) : List Chunk :=
  if textSize pending + c.data.length ≤ maxStreamBytes * 2 then pending ++ [c] else pending

def kept (early : List Chunk) : List Chunk := early.foldl hold []

/-- The chunks that go straight to the decoder. -/
def live (before after : List StreamEvent) : List Chunk :=
  if before.any isEnd then [] else (after.takeWhile fun e => !isEnd e).filterMap chunkOf

def offered (before : List StreamEvent) (buffered : Option Chunk) (after : List StreamEvent) :
    List Chunk :=
  buffered.toList ++ (kept (before.filterMap chunkOf) ++ live before after)

/-- A chunk does not fit the waiting list, while a later one with bytes in it is taken and still
fits the size limit of the stream. -/
def LeavesHole (before : List StreamEvent) (buffered : Option Chunk) (after : List StreamEvent) :
    Prop :=
  ∃ p d q, before.filterMap chunkOf = p ++ d :: q ∧
    maxStreamBytes * 2 < textSize (kept p) + d.data.length ∧
    ∃ front e back, offered before buffered after = front ++ e :: back ∧
      e ∈ q ++ live before after ∧ bytesOf e ≠ [] ∧ byteSize (front ++ [e]) ≤ maxStreamBytes

end Orders

section Chunks

theorem groupBytes_ne_nil {a b c d : Char} {group : Bytes} (h : groupBytes a b c d = some group) :
    group ≠ [] := by
  simp only [groupBytes, Option.bind_eq_bind, Option.pure_def, Option.bind_eq_some_iff] at h
  obtain ⟨x, -, y, -, h⟩ := h
  split at h
  · cases h
    exact List.cons_ne_nil _ _
  · simp only [Option.bind_eq_some_iff] at h
    obtain ⟨z, -, h⟩ := h
    split at h
    · cases h
      exact List.cons_ne_nil _ _
    · obtain ⟨w, -, h⟩ := Option.bind_eq_some_iff.mp h
      cases h
      exact List.cons_ne_nil _ _

theorem b64decode_ne_nil {data : Text} {bytes : Bytes} (h : b64decode data = some bytes)
    (hdata : data ≠ []) : bytes ≠ [] := by
  unfold b64decode at h
  split at h
  · exact absurd rfl hdata
  · simp only [Option.bind_eq_bind, Option.pure_def, Option.bind_eq_some_iff] at h
    obtain ⟨group, hgroup, h⟩ := h
    split at h
    · cases h
    · obtain ⟨tail, -, h⟩ := Option.bind_eq_some_iff.mp h
      cases h
      exact List.append_ne_nil_of_left_ne_nil (groupBytes_ne_nil hgroup) tail
  · cases h

theorem numberedBytes_append (left right : List Chunk) :
    numberedBytes (left ++ right) = numberedBytes left ++ numberedBytes right :=
  List.flatMap_append

theorem number_of_mem {chunks : List Chunk} {x : ℕ × UInt8} (h : x ∈ numberedBytes chunks) :
    x.1 ∈ chunks.map Chunk.number := by
  obtain ⟨c, hc, hx⟩ := List.mem_flatMap.mp h
  obtain ⟨b, -, rfl⟩ := List.mem_map.mp hx
  exact List.mem_map_of_mem hc

/-- A chunk with bytes in it shows in the numbered bytes. -/
theorem exists_numbered {chunks : List Chunk} {c : Chunk} (hc : c ∈ chunks)
    (hbytes : bytesOf c ≠ []) : ∃ b, (c.number, b) ∈ numberedBytes chunks := by
  obtain ⟨b, rest, h⟩ := List.exists_cons_of_ne_nil hbytes
  refine ⟨b, List.mem_flatMap.mpr ⟨c, hc, ?_⟩⟩
  apply List.mem_map_of_mem
  rw [h]
  exact List.mem_cons_self

theorem numberedBytes_nil {chunks : List Chunk} (h : ∀ c ∈ chunks, bytesOf c = []) :
    numberedBytes chunks = [] := by
  apply List.flatMap_eq_nil_iff.mpr
  intro c hc
  rw [h c hc, List.map_nil]

/-- A prefix that goes past the first part has the element behind it. -/
theorem prefix_or_mem {α : Type} {l left right : List α} {x : α} (h : l <+: left ++ x :: right) :
    l <+: left ∨ x ∈ l := by
  rcases List.prefix_or_prefix_of_prefix h (List.prefix_append left (x :: right)) with h' | h'
  · exact Or.inl h'
  · obtain ⟨tail, rfl⟩ := h'
    have htail : tail <+: x :: right := (List.prefix_append_right_inj left).mp h
    rcases List.prefix_cons_iff.mp htail with hnil | ⟨rest, hcons, -⟩
    · left
      rw [hnil, List.append_nil]
    · right
      rw [hcons]
      simp

end Chunks

section Limits

/-- The counter of a stream when a chunk of that many bytes has gone through `feed`. -/
def advance (received : ℕ) (c : Chunk) : ℕ :=
  if maxStreamBytes ≤ received then received else received + (bytesOf c).length

/-- The chunks that `feed` hands on, one after the other. -/
def fits (received : ℕ) : List Chunk → List Chunk
  | [] => []
  | c :: rest =>
    if received < maxStreamBytes ∧ received + (bytesOf c).length ≤ maxStreamBytes then
      c :: fits (advance received c) rest
    else fits (advance received c) rest

theorem fits_append (received : ℕ) (left right : List Chunk) :
    fits received (left ++ right) = fits received left ++ fits (left.foldl advance received)
      right := by
  induction left generalizing received with
  | nil => rfl
  | cons c rest ih =>
    simp only [List.cons_append, fits, List.foldl_cons, ih]
    split
    · rfl
    · rfl

theorem fits_full {received : ℕ} (h : maxStreamBytes ≤ received) (chunks : List Chunk) :
    fits received chunks = [] := by
  induction chunks with
  | nil => rfl
  | cons c rest ih =>
    rw [fits, advance, if_pos h, if_neg, ih]
    omega

/-- A chunk that fits is handed on, and the rest is counted from there. -/
theorem fits_pos {received : ℕ} {c : Chunk} (hlt : received < maxStreamBytes)
    (hle : received + (bytesOf c).length ≤ maxStreamBytes) (rest : List Chunk) :
    fits received (c :: rest) = c :: fits (received + (bytesOf c).length) rest := by
  rw [fits, if_pos ⟨hlt, hle⟩, advance, if_neg (Nat.not_le.mpr hlt)]

/-- One refused chunk closes the stream for all later ones. -/
theorem fits_neg {received : ℕ} {c : Chunk}
    (h : ¬(received < maxStreamBytes ∧ received + (bytesOf c).length ≤ maxStreamBytes))
    (rest : List Chunk) : fits received (c :: rest) = [] := by
  rw [fits, if_neg h]
  apply fits_full
  unfold advance
  split
  · assumption
  · omega

theorem fits_leading (received : ℕ) (chunks : List Chunk) : fits received chunks <+: chunks := by
  induction chunks generalizing received with
  | nil => exact List.prefix_rfl
  | cons c rest ih =>
    by_cases h : received < maxStreamBytes ∧ received + (bytesOf c).length ≤ maxStreamBytes
    · rw [fits_pos h.1 h.2]
      exact (List.prefix_cons_inj c).mpr (ih _)
    · rw [fits_neg h]
      exact List.nil_prefix

/-- A chunk with bytes in it is handed on as long as the bytes up to its end fit. -/
theorem fits_reaches {e : Chunk} (hbytes : bytesOf e ≠ []) (received : ℕ)
    (front back : List Chunk) :
    front ++ [e] <+: fits received (front ++ e :: back) ↔
      received + byteSize (front ++ [e]) ≤ maxStreamBytes := by
  have hpos : 0 < (bytesOf e).length := List.length_pos_iff.mpr hbytes
  induction front generalizing received with
  | nil =>
    have hsize : byteSize [e] = (bytesOf e).length := by simp [byteSize]
    rw [List.nil_append, List.nil_append, hsize]
    by_cases h : received < maxStreamBytes ∧ received + (bytesOf e).length ≤ maxStreamBytes
    · rw [fits_pos h.1 h.2]
      simp [h.2]
    · rw [fits_neg h]
      simp only [List.prefix_nil, List.cons_ne_self, false_iff]
      omega
  | cons c rest ih =>
    have hsize : byteSize (c :: rest ++ [e]) = (bytesOf c).length + byteSize (rest ++ [e]) := by
      simp [byteSize]
    have he : byteSize (rest ++ [e]) = byteSize rest + (bytesOf e).length := by simp [byteSize]
    rw [hsize, List.cons_append, List.cons_append]
    by_cases h : received < maxStreamBytes ∧ received + (bytesOf c).length ≤ maxStreamBytes
    · rw [fits_pos h.1 h.2, List.prefix_cons_inj, ← Nat.add_assoc]
      exact ih (received + (bytesOf c).length)
    · rw [fits_neg h]
      simp only [List.prefix_nil, reduceCtorEq, false_iff]
      omega

end Limits

section Waiting

theorem hold_sublist (early pending : List Chunk) :
    ∃ taken, taken.Sublist early ∧ early.foldl hold pending = pending ++ taken := by
  induction early generalizing pending with
  | nil => exact ⟨[], List.Sublist.refl [], (List.append_nil pending).symm⟩
  | cons c rest ih =>
    obtain ⟨taken, hsub, hfold⟩ := ih (hold pending c)
    rw [List.foldl_cons, hfold]
    unfold hold
    split
    · exact ⟨c :: taken, hsub.cons_cons c, by rw [List.append_assoc, List.singleton_append]⟩
    · exact ⟨taken, hsub.cons c, rfl⟩

/-- Either all chunks are taken, or there is a first one that does not fit. -/
theorem hold_cases (early pending : List Chunk) :
    early.foldl hold pending = pending ++ early ∨
      ∃ p d q, early = p ++ d :: q ∧ p.foldl hold pending = pending ++ p ∧
        maxStreamBytes * 2 < textSize (pending ++ p) + d.data.length := by
  induction early generalizing pending with
  | nil => exact Or.inl (List.append_nil pending).symm
  | cons c rest ih =>
    by_cases hfits : textSize pending + c.data.length ≤ maxStreamBytes * 2
    · have hold_c : hold pending c = pending ++ [c] := if_pos hfits
      rcases ih (pending ++ [c]) with hall | ⟨p, d, q, hsplit, hp, hd⟩
      · left
        rw [List.foldl_cons, hold_c, hall, List.append_assoc, List.singleton_append]
      · right
        rw [List.append_assoc, List.singleton_append] at hp hd
        refine ⟨c :: p, d, q, ?_, ?_, hd⟩
        · rw [hsplit, List.cons_append]
        · rw [List.foldl_cons, hold_c, hp]
    · exact Or.inr ⟨[], c, rest, rfl, (List.append_nil pending).symm, by
        rw [List.append_nil]
        exact Nat.not_le.mp hfits⟩

theorem kept_refused {p q : List Chunk} {d : Chunk}
    (h : maxStreamBytes * 2 < textSize (kept p) + d.data.length) :
    ∃ taken, taken.Sublist q ∧ kept (p ++ d :: q) = kept p ++ taken := by
  have hd : hold (kept p) d = kept p := if_neg (Nat.not_le.mpr h)
  obtain ⟨taken, hsub, hfold⟩ := hold_sublist q (kept p)
  refine ⟨taken, hsub, ?_⟩
  unfold kept at hd hfold ⊢
  rw [List.foldl_append, List.foldl_cons, hd, hfold]

theorem kept_sublist (early : List Chunk) : (kept early).Sublist early := by
  obtain ⟨taken, hsub, hfold⟩ := hold_sublist early []
  unfold kept
  rw [hfold]
  exact hsub

theorem kept_size (early : List Chunk) : textSize (kept early) ≤ maxStreamBytes * 2 := by
  induction early using List.reverseRecOn with
  | nil => exact Nat.zero_le _
  | append_singleton early c ih =>
    have hkept : kept (early ++ [c]) = hold (kept early) c := by
      unfold kept
      rw [List.foldl_append]
      rfl
    rw [hkept]
    unfold hold
    split
    · rename_i hfits
      simpa [textSize] using hfits
    · exact ih

theorem live_sublist (before after : List StreamEvent) :
    (live before after).Sublist (after.filterMap chunkOf) := by
  unfold live
  split
  · exact List.nil_sublist _
  · exact (List.takeWhile_sublist _).filterMap chunkOf

theorem live_prefix (before after : List StreamEvent) :
    live before after <+: after.filterMap chunkOf := by
  unfold live
  split
  · exact List.nil_prefix
  · exact (List.takeWhile_prefix _).filterMap chunkOf

end Waiting

section Holes

variable {events before after : List StreamEvent} {buffered : Option Chunk}

/-- A refused chunk has bytes in it: the waiting list itself keeps within its size. -/
theorem Interleaved.refused_bytes (h : Interleaved events before buffered after) {p q : List Chunk}
    {d : Chunk} (hsplit : before.filterMap chunkOf = p ++ d :: q)
    (hd : maxStreamBytes * 2 < textSize (kept p) + d.data.length) : bytesOf d ≠ [] := by
  have harrived : d ∈ arrivals before buffered after := by
    unfold arrivals
    rw [hsplit]
    simp
  have hdata : d.data ≠ [] := by
    intro hnil
    have hsize := kept_size p
    rw [hnil, List.length_nil] at hd
    omega
  obtain ⟨bytes, hbytes⟩ := Option.isSome_iff_exists.mp (h.valid d harrived)
  unfold bytesOf
  rw [hbytes]
  exact b64decode_ne_nil hbytes hdata

/-- Behind a dropped chunk only chunks without bytes come through. -/
theorem fed_prefix (hhole : ¬LeavesHole before buffered after) :
    numberedBytes (fits 0 (offered before buffered after)) <+:
      numberedBytes (arrivals before buffered after) := by
  have hmono : ∀ {left right : List Chunk}, left <+: right →
      numberedBytes left <+: numberedBytes right := by
    intro left right hle
    obtain ⟨tail, rfl⟩ := hle
    rw [numberedBytes_append]
    exact List.prefix_append _ _
  rcases hold_cases (before.filterMap chunkOf) [] with hall | ⟨p, d, q, hsplit, hp, hd⟩
  · apply hmono
    apply (fits_leading 0 _).trans
    unfold offered arrivals kept
    rw [hall, List.nil_append, List.prefix_append_right_inj, List.prefix_append_right_inj]
    exact live_prefix before after
  · have hkept : kept p = p := hp
    rw [List.nil_append, ← hkept] at hd
    obtain ⟨taken, hsub, htaken⟩ := kept_refused hd
    have hoffered : offered before buffered after =
        (buffered.toList ++ p) ++ (taken ++ live before after) := by
      unfold offered
      rw [hsplit, htaken, hkept]
      simp only [List.append_assoc]
    have harrivals : buffered.toList ++ p <+: arrivals before buffered after := by
      unfold arrivals
      rw [hsplit]
      simp only [List.append_assoc, List.prefix_append_right_inj, List.prefix_append]
    have hfed := fits_leading 0 (offered before buffered after)
    have hstart : buffered.toList ++ p <+: offered before buffered after := by
      rw [hoffered]
      exact List.prefix_append _ _
    rcases List.prefix_or_prefix_of_prefix hfed hstart with hshort | hlong
    · exact hmono (hshort.trans harrivals)
    · obtain ⟨passed, hpassed⟩ := hlong
      have hempty : ∀ c ∈ passed, bytesOf c = [] := by
        intro c hc
        by_contra hbytes
        obtain ⟨front, back, hfront⟩ := List.append_of_mem hc
        obtain ⟨rest, hrest⟩ := hfed
        have hwhole : offered before buffered after =
            (buffered.toList ++ p ++ front) ++ c :: (back ++ rest) := by
          rw [← hrest, ← hpassed, hfront]
          simp only [List.append_assoc, List.cons_append]
        apply hhole
        refine ⟨p, d, q, hsplit, hd, _, c, _, hwhole, ?_, hbytes, ?_⟩
        · have htail : passed ++ rest = taken ++ live before after := by
            rw [← hpassed, List.append_assoc, hoffered] at hrest
            exact List.append_cancel_left hrest
          have hc' : c ∈ taken ++ live before after := by
            rw [← htail]
            exact List.mem_append_left rest hc
          exact ((hsub.append_right _).subset hc')
        · have hreach := fits_reaches hbytes 0 (buffered.toList ++ p ++ front) (back ++ rest)
          rw [Nat.zero_add] at hreach
          apply hreach.mp
          rw [← hwhole, ← hpassed, hfront]
          refine ⟨back, ?_⟩
          simp only [List.append_assoc, List.cons_append, List.nil_append]
      rw [← hpassed, numberedBytes_append, numberedBytes_nil hempty, List.append_nil]
      exact hmono harrivals

/-- A later chunk with bytes in it shows the gap that the dropped one leaves. -/
theorem Interleaved.fed_gap (h : Interleaved events before buffered after)
    (hhole : LeavesHole before buffered after) :
    ¬numberedBytes (fits 0 (offered before buffered after)) <+:
      numberedBytes (arrivals before buffered after) := by
  intro hprefix
  obtain ⟨p, d, q, hsplit, hd, front, e, back, hoffered, he, hbytes, hsize⟩ := hhole
  obtain ⟨taken, hsub, htaken⟩ := kept_refused hd
  have harrivals : arrivals before buffered after =
      (buffered.toList ++ p) ++ d :: (q ++ after.filterMap chunkOf) := by
    unfold arrivals
    rw [hsplit]
    simp only [List.append_assoc, List.cons_append]
  have hnodup := h.distinct
  rw [harrivals, List.map_append, List.map_cons, List.nodup_append, List.nodup_cons] at hnodup
  obtain ⟨-, ⟨hdlater, -⟩, hapart⟩ := hnodup
  have helater : e.number ∈ (q ++ after.filterMap chunkOf).map Chunk.number := by
    apply List.mem_map_of_mem
    exact ((List.Sublist.refl q).append (live_sublist before after)).subset he
  obtain ⟨b, hb⟩ := exists_numbered
    (((fits_reaches hbytes 0 front back).mpr (by omega)).subset (List.mem_append_right front
      List.mem_cons_self)) hbytes
  rw [← hoffered] at hb
  obtain ⟨x, hx⟩ := exists_numbered (List.mem_singleton_self d) (h.refused_bytes hsplit hd)
  have hdoffered : d.number ∉ (offered before buffered after).map Chunk.number := by
    intro hmem
    have hsub' : (offered before buffered after).Sublist
        ((buffered.toList ++ p) ++ (q ++ after.filterMap chunkOf)) := by
      unfold offered
      rw [hsplit, htaken]
      simp only [List.append_assoc]
      exact (List.Sublist.refl _).append
        ((kept_sublist p).append (hsub.append (live_sublist before after)))
    have hin := (hsub'.map Chunk.number).subset hmem
    rw [List.map_append] at hin
    rcases List.mem_append.mp hin with hin | hin
    · exact hapart _ hin _ List.mem_cons_self rfl
    · exact hdlater hin
  have hbefore : numberedBytes (fits 0 (offered before buffered after)) <+:
      numberedBytes (buffered.toList ++ p) ++ numberedBytes [d] ++
        numberedBytes (q ++ after.filterMap chunkOf) := by
    rw [← numberedBytes_append, ← numberedBytes_append]
    rw [harrivals] at hprefix
    simpa only [List.append_assoc, List.cons_append, List.nil_append] using hprefix
  obtain ⟨left, right, hdsplit⟩ := List.append_of_mem hx
  have hdnil : numberedBytes (buffered.toList ++ p) ++ numberedBytes [d] ++
        numberedBytes (q ++ after.filterMap chunkOf) =
      (numberedBytes (buffered.toList ++ p) ++ left) ++ (d.number, x) ::
        (right ++ numberedBytes (q ++ after.filterMap chunkOf)) := by
    rw [hdsplit]
    simp only [List.append_assoc, List.cons_append]
  rw [hdnil] at hbefore
  rcases prefix_or_mem hbefore with hshort | hmem
  · have hin := hshort.subset hb
    rcases List.mem_append.mp hin with hin | hin
    · exact hapart _ (number_of_mem hin) _ (List.mem_cons_of_mem _ helater) rfl
    · have hed : (e.number, b) ∈ numberedBytes [d] := by
        rw [hdsplit]
        exact List.mem_append_left _ hin
      have hnumber : e.number = d.number := by simpa using number_of_mem hed
      rw [hnumber] at helater
      exact hdlater helater
  · exact hdoffered (((fits_leading 0 _).map Chunk.number).subset (number_of_mem hmem))

end Holes

section Feeds

variable {δ π ω : Type} {reader : Reader δ π ω}

/-- The parts of a stream that decide what is handed on. -/
structure Ready (s : Stream δ π) (pending : List Chunk) (armed finished : Bool) (received : ℕ) :
    Prop where
  pending_eq : s.pending = pending
  armed_eq : s.armed = armed
  finished_eq : s.finished = finished
  received_eq : s.received = received

variable {pending : List Chunk} {armed finished : Bool} {received : ℕ}

theorem snapshot_ready {w : Feeding δ π ω} (h : Ready w.stream pending armed finished received) :
    Ready (snapshot reader w).stream pending armed finished received := by
  unfold snapshot
  split
  · exact h
  · exact ⟨h.pending_eq, h.armed_eq, h.finished_eq, h.received_eq⟩

theorem snapshot_handed (w : Feeding δ π ω) : (snapshot reader w).handed = w.handed := by
  unfold snapshot
  split
  · rfl
  · rfl

/-- One chunk through `feed`: it is handed on if it fits. -/
theorem feed_ready (reader : Reader δ π ω) {w : Feeding δ π ω} {c : Chunk}
    (hvalid : (b64decode c.data).isSome)
    (h : Ready w.stream pending armed finished received) :
    Ready (feed reader w c).stream pending armed finished (advance received c) ∧
      (feed reader w c).handed = w.handed ++ (fits received [c]).map Handed.chunk := by
  obtain ⟨bytes, hbytes⟩ := Option.isSome_iff_exists.mp hvalid
  have hof : bytesOf c = bytes := by
    unfold bytesOf
    rw [hbytes]
    rfl
  have hreceived := h.received_eq
  by_cases hfull : maxStreamBytes ≤ received
  · have hfeed : feed reader w c = w := by
      unfold feed
      rw [hreceived, if_pos hfull]
    rw [hfeed, fits_full hfull, advance, if_pos hfull]
    exact ⟨h, by simp⟩
  · have hadvance : advance received c = received + bytes.length := by
      rw [advance, if_neg hfull, hof]
    rw [hadvance]
    by_cases hover : maxStreamBytes < received + bytes.length
    · have hfeed : feed reader w c =
          { w with stream := { w.stream with received := received + bytes.length } } := by
        unfold feed
        rw [hreceived, if_neg hfull, hbytes]
        exact if_pos hover
      have hnone : fits received [c] = [] := fits_neg (by rw [hof]; omega) []
      rw [hfeed, hnone]
      exact ⟨⟨h.pending_eq, h.armed_eq, h.finished_eq, rfl⟩, by simp⟩
    · have hfeed : feed reader w c = snapshot reader
          { w with
            stream :=
              { w.stream with
                received := received + bytes.length
                decoder := (reader.decode w.stream.decoder bytes).1
                parser := reader.feed w.stream.parser (reader.decode w.stream.decoder bytes).2 }
            handed := w.handed ++ [.chunk c] } := by
        unfold feed
        rw [hreceived, if_neg hfull, hbytes]
        exact if_neg hover
      have hone : fits received [c] = [c] := by
        rw [fits_pos (by omega) (by rw [hof]; omega)]
        rfl
      rw [hfeed, hone, snapshot_handed]
      exact ⟨snapshot_ready ⟨h.pending_eq, h.armed_eq, h.finished_eq, rfl⟩, rfl⟩

/-- By induction on the chunks. -/
theorem feeds_ready (reader : Reader δ π ω) {chunks : List Chunk}
    (hvalid : ∀ c ∈ chunks, (b64decode c.data).isSome)
    {w : Feeding δ π ω} (h : Ready w.stream pending armed finished received) :
    Ready (chunks.foldl (feed reader) w).stream pending armed finished
        (chunks.foldl advance received) ∧
      (chunks.foldl (feed reader) w).handed =
        w.handed ++ (fits received chunks).map Handed.chunk := by
  induction chunks generalizing w received with
  | nil => exact ⟨h, (List.append_nil _).symm⟩
  | cons c rest ih =>
    obtain ⟨hready, hhanded⟩ := feed_ready reader (hvalid c List.mem_cons_self) h
    obtain ⟨hlast, hall⟩ := ih (fun a ha => hvalid a (List.mem_cons_of_mem c ha)) hready
    refine ⟨hlast, ?_⟩
    have hsplit := fits_append received [c] rest
    rw [List.singleton_append] at hsplit
    rw [List.foldl_cons, hall, hhanded, hsplit, List.map_append, List.append_assoc]
    rfl

/-- The chunks that waited are handed on in their order, and none wait any more. -/
theorem feedPending_ready (reader : Reader δ π ω) {w : Feeding δ π ω}
    (hvalid : ∀ c ∈ pending, (b64decode c.data).isSome)
    (h : Ready w.stream pending armed finished received) :
    Ready (feedPending reader w).stream [] true finished (pending.foldl advance received) ∧
      (feedPending reader w).handed = w.handed ++ (fits received pending).map Handed.chunk := by
  have harmed : Ready (Feeding.mk { w.stream with armed := true } w.published w.handed).stream
      pending true finished received :=
    ⟨h.pending_eq, rfl, h.finished_eq, h.received_eq⟩
  obtain ⟨hlast, hall⟩ := feeds_ready reader hvalid harmed
  unfold feedPending
  rw [h.pending_eq]
  exact ⟨⟨rfl, hlast.armed_eq, hlast.finished_eq, hlast.received_eq⟩, hall⟩

end Feeds

section Steps

variable {δ π ω : Type} (reader : Reader δ π ω) {o : OwnedToolStream δ π ω} {identity : String}

/-- The observer runs and its tab is the active one. -/
structure Observing (o : OwnedToolStream δ π ω) : Prop where
  active : o.isActive = true
  running : o.stopped = false

@[simp] theorem step_armed (bufferedData : Option Chunk) :
    step reader o (identity, .armed bufferedData) = arm reader o identity bufferedData := rfl

@[simp] theorem step_data (c : Chunk) :
    step reader o (identity, .data c) = onData reader o identity c := rfl

@[simp] theorem step_finished :
    step reader o (identity, .finished) = onFinished reader o identity := rfl

omit reader in
theorem unchanged (o : OwnedToolStream δ π ω) (identity : String) : ∃ stream published,
    o = { o with streams := Function.update o.streams identity stream, published := published } :=
  ⟨o.streams identity, o.published, by rw [Function.update_eq_self]⟩

/-- A step changes the stream of its identifier and what was published, and nothing else. -/
theorem step_frame (o : OwnedToolStream δ π ω)
    (event : String × StreamEvent) : ∃ stream published,
      (step reader o event).1 =
        { o with streams := Function.update o.streams event.1 stream, published := published } := by
  obtain ⟨identity, e⟩ := event
  cases e with
  | armed bufferedData =>
    rw [step_armed]
    unfold arm
    split
    · exact unchanged o identity
    · split
      · exact unchanged o identity
      · dsimp only
        split
        · exact ⟨none, _, rfl⟩
        · exact ⟨some _, _, rfl⟩
  | refused => exact ⟨none, o.published, rfl⟩
  | data chunk =>
    rw [step_data]
    unfold onData
    split
    · exact unchanged o identity
    · split
      · exact unchanged o identity
      · split
        · exact ⟨some _, _, rfl⟩
        · split
          · exact ⟨some _, _, rfl⟩
          · exact unchanged o identity
  | finished =>
    rw [step_finished]
    unfold onFinished
    split
    · exact unchanged o identity
    · split
      · exact ⟨none, _, rfl⟩
      · exact ⟨some _, _, rfl⟩

theorem step_observing (h : Observing o) (event : String × StreamEvent) :
    Observing (step reader o event).1 := by
  obtain ⟨stream, published, hstep⟩ := step_frame reader o event
  rw [hstep]
  exact ⟨h.active, h.running⟩

theorem step_other {event : String × StreamEvent} (hother : event.1 ≠ identity) :
    (step reader o event).1.streams identity = o.streams identity := by
  obtain ⟨stream, published, hstep⟩ := step_frame reader o event
  rw [hstep]
  exact Function.update_of_ne (Ne.symm hother) _ _

/-- A stream that is closed stays closed. -/
theorem step_closed (hclosed : o.streams identity = none) (e : StreamEvent) :
    (step reader o (identity, e)).1.streams identity = none ∧
      (step reader o (identity, e)).2 = [] := by
  cases e with
  | armed bufferedData =>
    have harm : arm reader o identity bufferedData = (o, []) := by
      unfold arm
      rw [hclosed]
    exact ⟨(congrArg (fun r => r.1.streams identity) harm).trans hclosed, congrArg Prod.snd harm⟩
  | refused => exact ⟨Function.update_self _ _ _, rfl⟩
  | data chunk =>
    have hdata : onData reader o identity chunk = (o, []) := by
      unfold onData
      rw [hclosed]
    exact ⟨(congrArg (fun r => r.1.streams identity) hdata).trans hclosed, congrArg Prod.snd hdata⟩
  | finished =>
    have hfinished : onFinished reader o identity = (o, []) := by
      unfold onFinished
      rw [hclosed]
    exact ⟨(congrArg (fun r => r.1.streams identity) hfinished).trans hclosed,
      congrArg Prod.snd hfinished⟩

variable {s : Stream δ π} {pending : List Chunk} {finished : Bool} {received : ℕ}

/-- Before the answer a chunk joins the waiting list. -/
theorem data_waiting (ho : Observing o) (hs : o.streams identity = some s)
    (h : Ready s pending false finished received) (c : Chunk) :
    ∃ s', (step reader o (identity, .data c)).1.streams identity = some s' ∧
      Ready s' (hold pending c) false finished received ∧
      (step reader o (identity, .data c)).2 = [] := by
  rw [step_data]
  unfold onData hold
  rw [hs]
  dsimp only
  rw [ho.active, Bool.not_true, if_neg Bool.false_ne_true, h.armed_eq, if_neg Bool.false_ne_true,
    h.pending_eq]
  split
  · exact ⟨_, Function.update_self _ _ _, ⟨rfl, rfl, h.finished_eq, h.received_eq⟩, rfl⟩
  · exact ⟨s, hs, h, rfl⟩

/-- Before the answer the end of the stream is only noted. -/
theorem finished_waiting (hs : o.streams identity = some s)
    (h : Ready s pending false finished received) :
    ∃ s', (step reader o (identity, .finished)).1.streams identity = some s' ∧
      Ready s' pending false true received ∧
      (step reader o (identity, .finished)).2 = [] := by
  rw [step_finished]
  unfold onFinished
  rw [hs]
  dsimp only
  rw [h.armed_eq, if_neg Bool.false_ne_true]
  exact ⟨_, Function.update_self _ _ _, ⟨h.pending_eq, rfl, rfl, h.received_eq⟩, rfl⟩

/-- Behind the answer a chunk goes straight to the decoder. -/
theorem data_armed (ho : Observing o) (hs : o.streams identity = some s)
    (h : Ready s pending true finished received) {c : Chunk} (hvalid : (b64decode c.data).isSome) :
    ∃ s', (step reader o (identity, .data c)).1.streams identity = some s' ∧
      Ready s' pending true finished (advance received c) ∧
      (step reader o (identity, .data c)).2 = (fits received [c]).map Handed.chunk := by
  have hopened : Ready (Feeding.mk s o.published []).stream pending true finished received := h
  obtain ⟨hready, hhanded⟩ := feed_ready reader hvalid hopened
  have hdata : onData reader o identity c =
      (o.put identity (feed reader ⟨s, o.published, []⟩ c),
        (feed reader ⟨s, o.published, []⟩ c).handed) := by
    unfold onData
    rw [hs]
    dsimp only
    rw [ho.active, Bool.not_true, if_neg Bool.false_ne_true, if_pos h.armed_eq]
  rw [step_data, hdata]
  exact ⟨_, Function.update_self _ _ _, hready, hhanded⟩

/-- Behind the answer the end flushes the decoder and forgets the stream. -/
theorem finished_armed (hs : o.streams identity = some s)
    (h : Ready s pending true finished received) :
    (step reader o (identity, .finished)).1.streams identity = none ∧
      (step reader o (identity, .finished)).2 = [Handed.flush] := by
  have hfinished : onFinished reader o identity =
      flush reader o identity ⟨{ s with finished := true }, o.published, []⟩ := by
    unfold onFinished
    rw [hs]
    dsimp only
    rw [if_pos h.armed_eq]
  rw [step_finished, hfinished]
  exact ⟨Function.update_self _ _ _, rfl⟩

/-- The arming hands on the buffered data and then what waits. -/
theorem armed_waiting (ho : Observing o) (hs : o.streams identity = some s)
    (h : Ready s pending false finished 0) (buffered : Option Chunk)
    (hvalid : ∀ c ∈ buffered.toList ++ pending, (b64decode c.data).isSome) :
    (step reader o (identity, .armed buffered)).2 =
        (fits 0 (buffered.toList ++ pending)).map Handed.chunk ++
          (if finished then [Handed.flush] else []) ∧
      (if finished then (step reader o (identity, .armed buffered)).1.streams identity = none
      else ∃ s', (step reader o (identity, .armed buffered)).1.streams identity = some s' ∧
        Ready s' [] true false ((buffered.toList ++ pending).foldl advance 0)) := by
  have hopened : Ready (Feeding.mk s o.published []).stream pending false finished 0 := h
  have hfirst : ∃ first : Feeding δ π ω,
      buffered.elim ⟨s, o.published, []⟩ (feed reader ⟨s, o.published, []⟩) = first ∧
      Ready first.stream pending false finished (buffered.toList.foldl advance 0) ∧
      first.handed = (fits 0 buffered.toList).map Handed.chunk := by
    cases buffered with
    | none => exact ⟨_, rfl, h, rfl⟩
    | some c =>
      obtain ⟨hready, hhanded⟩ := feed_ready reader (hvalid c (by simp)) hopened
      exact ⟨_, rfl, hready, hhanded⟩
  obtain ⟨first, heq, hready, hhanded⟩ := hfirst
  obtain ⟨hlast, hall⟩ := feedPending_ready reader
    (fun c hc => hvalid c (List.mem_append_right _ hc)) hready
  have harm : arm reader o identity buffered =
      if finished then flush reader o identity (feedPending reader first)
      else (o.put identity (feedPending reader first), (feedPending reader first).handed) := by
    unfold arm
    rw [hs]
    dsimp only
    rw [ho.running, if_neg Bool.false_ne_true, heq, hlast.finished_eq]
  rw [step_armed, harm, fits_append, List.map_append, List.foldl_append, ← hhanded, ← hall]
  cases finished with
  | true => exact ⟨rfl, Function.update_self _ _ _⟩
  | false => exact ⟨(List.append_nil _).symm, _, Function.update_self _ _ _, hlast⟩

end Steps

section Runs

variable {δ π ω : Type} (reader : Reader δ π ω) {o : OwnedToolStream δ π ω} {identity : String}

/-- The events of other streams hand nothing to this one. -/
theorem handedTo_cons (o : OwnedToolStream δ π ω) (identity : String) (event : String × StreamEvent)
    (rest : List (String × StreamEvent)) :
    handedTo reader o identity (event :: rest) =
      (if event.1 = identity then (step reader o event).2 else []) ++
        handedTo reader (step reader o event).1 identity rest :=
  List.flatMap_cons

/-- What two runs hand on, one behind the other. -/
theorem handedTo_append (o : OwnedToolStream δ π ω) (identity : String)
    (left right : List (String × StreamEvent)) :
    handedTo reader o identity (left ++ right) =
      handedTo reader o identity left ++
        handedTo reader (final (step reader) o left) identity right := by
  unfold handedTo
  rw [events_append, List.flatMap_append]

theorem eventsOf_self (identity : String) (e : StreamEvent) (rest : List (String × StreamEvent)) :
    eventsOf identity ((identity, e) :: rest) = e :: eventsOf identity rest := by
  simp [eventsOf]

theorem eventsOf_other {identity : String} {event : String × StreamEvent}
    (hother : event.1 ≠ identity) (rest : List (String × StreamEvent)) :
    eventsOf identity (event :: rest) = eventsOf identity rest := by
  unfold eventsOf
  rw [List.filter_cons_of_neg (by simpa using hother)]

/-- A run whose events of one stream have an event in the middle splits there. -/
theorem eventsOf_split {identity : String} {run : List (String × StreamEvent)}
    {before after : List StreamEvent} {e : StreamEvent}
    (h : eventsOf identity run = before ++ e :: after) :
    ∃ left right, run = left ++ (identity, e) :: right ∧ eventsOf identity left = before ∧
      eventsOf identity right = after := by
  induction run generalizing before with
  | nil => exact absurd h.symm (by simp [eventsOf])
  | cons event rest ih =>
    by_cases hself : event.1 = identity
    · obtain ⟨id, f⟩ := event
      obtain rfl : id = identity := hself
      rw [eventsOf_self] at h
      cases before with
      | nil =>
        obtain ⟨rfl, hrest⟩ := List.cons.inj h
        exact ⟨[], rest, rfl, rfl, hrest⟩
      | cons g before =>
        obtain ⟨rfl, hrest⟩ := List.cons.inj h
        obtain ⟨left, right, hrun, hleft, hright⟩ := ih hrest
        exact ⟨(id, f) :: left, right, by rw [hrun, List.cons_append], by
          rw [eventsOf_self, hleft], hright⟩
    · rw [eventsOf_other hself] at h
      obtain ⟨left, right, hrun, hleft, hright⟩ := ih h
      exact ⟨event :: left, right, by rw [hrun, List.cons_append], by
        rw [eventsOf_other hself, hleft], hright⟩

theorem closed_run (hclosed : o.streams identity = none) (run : List (String × StreamEvent)) :
    handedTo reader o identity run = [] := by
  induction run generalizing o with
  | nil => rfl
  | cons event rest ih =>
    rw [handedTo_cons]
    by_cases hself : event.1 = identity
    · obtain ⟨id, e⟩ := event
      obtain rfl : id = identity := hself
      obtain ⟨hnext, hnone⟩ := step_closed reader hclosed e
      rw [if_pos rfl, hnone, ih hnext, List.append_nil]
    · rw [if_neg hself, ih (by rw [step_other reader hself]; exact hclosed), List.append_nil]

variable {s : Stream δ π} {pending : List Chunk} {finished : Bool} {received : ℕ}

/-- Until the answer comes the chunks wait, and the decoder gets nothing. -/
theorem waiting_run (ho : Observing o) (hs : o.streams identity = some s)
    (h : Ready s pending false finished received) (run : List (String × StreamEvent))
    (hunanswered : ∀ e ∈ eventsOf identity run, isAnswer e = false) :
    ∃ s', (final (step reader) o run).streams identity = some s' ∧
      Ready s' (((eventsOf identity run).filterMap chunkOf).foldl hold pending) false
        (finished || (eventsOf identity run).any isEnd) received ∧
      Observing (final (step reader) o run) ∧ handedTo reader o identity run = [] := by
  induction run generalizing o s pending finished with
  | nil => exact ⟨s, hs, by simpa [eventsOf] using h, ho, rfl⟩
  | cons event rest ih =>
    have hnext := step_observing reader ho event
    rw [handedTo_cons]
    by_cases hself : event.1 = identity
    · obtain ⟨id, e⟩ := event
      obtain rfl : id = identity := hself
      rw [eventsOf_self] at hunanswered ⊢
      have hrest : ∀ f ∈ eventsOf id rest, isAnswer f = false :=
        fun f hf => hunanswered f (List.mem_cons_of_mem e hf)
      have he := hunanswered e List.mem_cons_self
      cases e with
      | armed _ => cases he
      | refused => cases he
      | data c =>
        obtain ⟨s', hs', hready, hnone⟩ := data_waiting reader ho hs h c
        obtain ⟨last, hlast, hlastReady, hobserving, hhanded⟩ := ih hnext hs' hready hrest
        exact ⟨last, hlast, hlastReady, hobserving, by rw [hnone, hhanded]; simp⟩
      | finished =>
        obtain ⟨s', hs', hready, hnone⟩ := finished_waiting reader hs h
        obtain ⟨last, hlast, hlastReady, hobserving, hhanded⟩ := ih hnext hs' hready hrest
        refine ⟨last, hlast, ?_, hobserving, by rw [hnone, hhanded]; simp⟩
        have hended : (finished || (StreamEvent.finished :: eventsOf id rest).any isEnd) =
            (true || (eventsOf id rest).any isEnd) := by
          simp [isEnd]
        rw [hended]
        exact hlastReady
    · rw [eventsOf_other hself] at hunanswered ⊢
      obtain ⟨last, hlast, hlastReady, hobserving, hhanded⟩ :=
        ih hnext (by rw [step_other reader hself]; exact hs) h hunanswered
      exact ⟨last, hlast, hlastReady, hobserving, by rw [if_neg hself, hhanded]; rfl⟩

/-- An armed stream hands on the chunks up to the end, and flushes there. -/
theorem armed_run (ho : Observing o) (hs : o.streams identity = some s)
    (h : Ready s pending true finished received) (run : List (String × StreamEvent))
    (hunanswered : ∀ e ∈ eventsOf identity run, isAnswer e = false)
    (hvalid : ∀ c ∈ (eventsOf identity run).filterMap chunkOf, (b64decode c.data).isSome) :
    handedTo reader o identity run =
      (fits received (((eventsOf identity run).takeWhile fun e => !isEnd e).filterMap
        chunkOf)).map Handed.chunk ++
        (if (eventsOf identity run).any isEnd then [Handed.flush] else []) := by
  induction run generalizing o s received with
  | nil => rfl
  | cons event rest ih =>
    have hnext := step_observing reader ho event
    rw [handedTo_cons]
    by_cases hself : event.1 = identity
    · obtain ⟨id, e⟩ := event
      obtain rfl : id = identity := hself
      rw [eventsOf_self] at hunanswered hvalid ⊢
      rw [if_pos rfl]
      have hrest : ∀ f ∈ eventsOf id rest, isAnswer f = false :=
        fun f hf => hunanswered f (List.mem_cons_of_mem e hf)
      have he := hunanswered e List.mem_cons_self
      cases e with
      | armed _ => cases he
      | refused => cases he
      | data c =>
        rw [List.filterMap_cons_some (rfl : chunkOf (.data c) = some c)] at hvalid
        obtain ⟨s', hs', hready, hhanded⟩ :=
          data_armed reader ho hs h (hvalid c List.mem_cons_self)
        have hlater := ih hnext hs' hready hrest fun a ha => hvalid a (List.mem_cons_of_mem c ha)
        have hsplit := fits_append received [c]
          (((eventsOf id rest).takeWhile fun e => !isEnd e).filterMap chunkOf)
        rw [List.singleton_append] at hsplit
        have htake : ((StreamEvent.data c :: eventsOf id rest).takeWhile fun e => !isEnd e) =
            .data c :: (eventsOf id rest).takeWhile fun e => !isEnd e :=
          List.takeWhile_cons_of_pos rfl
        have hany : (StreamEvent.data c :: eventsOf id rest).any isEnd =
            (eventsOf id rest).any isEnd := rfl
        rw [hhanded, hlater, htake, List.filterMap_cons_some (rfl : chunkOf (.data c) = some c),
          hsplit, List.map_append, List.append_assoc, hany]
        rfl
      | finished =>
        obtain ⟨hclosed, hhanded⟩ := finished_armed reader hs h
        rw [hhanded, closed_run reader hclosed]
        rfl
    · rw [eventsOf_other hself] at hunanswered hvalid ⊢
      rw [if_neg hself, List.nil_append]
      exact ih hnext (by rw [step_other reader hself]; exact hs) h hunanswered hvalid

/-- What the decoder of a new stream is given. -/
theorem handedTo_interleaved (ho : Observing o) {parser : π} {decoder : δ}
    (hs : o.streams identity = some { parser := parser, decoder := decoder })
    {run : List (String × StreamEvent)} {before after : List StreamEvent} {buffered : Option Chunk}
    (h : Interleaved (eventsOf identity run) before buffered after) :
    handedTo reader o identity run =
      (fits 0 (offered before buffered after)).map Handed.chunk ++ [Handed.flush] := by
  obtain ⟨left, right, rfl, rfl, rfl⟩ := eventsOf_split h.split
  have hready : Ready (Stream.mk parser decoder [] false false 0 0) [] false false 0 :=
    ⟨rfl, rfl, rfl, rfl⟩
  obtain ⟨s, hsome, hwaiting, hobserving, hnone⟩ :=
    waiting_run reader ho hs hready left fun e he => h.unanswered e (List.mem_append_left _ he)
  rw [Bool.false_or] at hwaiting
  have hvalid : ∀ c ∈ buffered.toList ++ kept ((eventsOf identity left).filterMap chunkOf),
      (b64decode c.data).isSome := by
    intro c hc
    apply h.valid
    unfold arrivals
    exact ((List.Sublist.refl _).append
      ((kept_sublist _).trans (List.sublist_append_left _ _))).subset hc
  obtain ⟨harmed, hafter⟩ := armed_waiting reader hobserving hsome hwaiting buffered hvalid
  rw [handedTo_append, hnone, List.nil_append, handedTo_cons, if_pos rfl, harmed]
  unfold offered live
  by_cases hended : (eventsOf identity left).any isEnd = true
  · rw [if_pos hended] at hafter ⊢
    rw [if_pos hended, closed_run reader hafter, List.append_nil, List.append_nil]
    rfl
  · rw [if_neg hended] at hafter ⊢
    rw [if_neg hended]
    obtain ⟨s', hsome', hopen⟩ := hafter
    have hend : (eventsOf identity right).any isEnd = true := by
      have hcount : 0 < (eventsOf identity left ++ eventsOf identity right).countP isEnd := by
        rw [h.ended]
        exact Nat.one_pos
      obtain ⟨e, he, hlast⟩ := List.countP_pos_iff.mp hcount
      rcases List.mem_append.mp he with he | he
      · exact absurd (List.any_eq_true.mpr ⟨e, he, hlast⟩) hended
      · exact List.any_eq_true.mpr ⟨e, he, hlast⟩
    have hrest := armed_run reader (step_observing reader hobserving _) hsome' hopen right
      (fun e he => h.unanswered e (List.mem_append_right _ he)) fun c hc => h.valid c (by
        unfold arrivals
        exact List.mem_append_right _ (List.mem_append_right _ hc))
    rw [if_pos hend] at hrest
    rw [hrest]
    simp only [kept, fits_append, List.foldl_append, List.map_append, List.append_assoc,
      List.append_nil]

end Runs

section Order

variable {δ π ω : Type} (reader : Reader δ π ω)

theorem fedInOrder_iff (arrived fed : List Chunk) :
    FedInOrder arrived (fed.map Handed.chunk ++ [Handed.flush]) ↔
      numberedBytes fed <+: numberedBytes arrived := by
  constructor
  · intro h
    obtain ⟨fed', hsame, hprefix⟩ := h
    have hmap : fed.map Handed.chunk = fed'.map Handed.chunk := List.append_cancel_right hsame
    have hinj : Function.Injective Handed.chunk := by
      intro c d hcd
      exact Handed.chunk.inj hcd
    rw [List.map_injective_iff.mpr hinj hmap]
    exact hprefix
  · intro h
    exact ⟨fed, rfl, h⟩

/-- A reader of texts in ASCII that keeps what it has read. -/
def asciiReader : Reader Unit Text (List Text) where
  decode _ bytes := ((), bytes.map fun b => Char.ofNat b.toNat)
  decodeFinal _ := []
  feed parser text := parser ++ text
  finish parser := parser
  progressEvents := List.length
  publish published parser := published ++ [parser]

def newObserver : OwnedToolStream Unit Text (List Text) where
  streams := Function.update (fun _ => none) "1" (some { parser := [], decoder := () })
  published := []

theorem newObserver_observing : Observing newObserver := ⟨rfl, rfl⟩

theorem newObserver_stream : newObserver.streams "1" = some { parser := [], decoder := () } := by
  simp [newObserver]

def bufferedText : Chunk := ⟨0, "".toList⟩

def shortChunk : Chunk := ⟨2, "QUJD".toList⟩

def skippingRun (wide : Chunk) : List (String × StreamEvent) :=
  [("1", .data wide), ("1", .data shortChunk), ("1", .armed (some bufferedText)), ("1", .finished)]

/-- The run as the events of one stream. -/
theorem skippingRun_interleaved {wide : Chunk} (hnumber : wide.number = 1)
    (hvalid : (b64decode wide.data).isSome) : Interleaved (eventsOf "1" (skippingRun wide))
      [.data wide, .data shortChunk] (some bufferedText) [.finished] where
  split := by
    unfold skippingRun
    simp only [eventsOf_self, List.cons_append, List.nil_append]
    rfl
  unanswered := by simp [isAnswer]
  ended := by simp [isEnd]
  valid := by
    intro c hc
    have hcases : c = bufferedText ∨ c = wide ∨ c = shortChunk := by
      simpa [arrivals, chunkOf] using hc
    rcases hcases with rfl | rfl | rfl
    · decide
    · exact hvalid
    · decide
  distinct := by
    have hnumbers : (arrivals [.data wide, .data shortChunk] (some bufferedText)
        [.finished]).map Chunk.number = [0, wide.number, 2] := rfl
    rw [hnumbers, hnumber]
    decide

theorem skippingRun_hole {wide : Chunk}
    (hwide : maxStreamBytes * 2 < textSize (kept []) + wide.data.length) :
    LeavesHole [.data wide, .data shortChunk] (some bufferedText) [.finished] := by
  have hkept : kept [wide, shortChunk] = [shortChunk] := by
    have hrefused : hold [] wide = [] := if_neg (Nat.not_le.mpr hwide)
    have hshort : hold [] shortChunk = [shortChunk] := by decide
    unfold kept
    rw [List.foldl_cons, List.foldl_cons, hrefused, hshort, List.foldl_nil]
  have hearly : [StreamEvent.data wide, .data shortChunk].filterMap chunkOf = [wide, shortChunk] :=
    rfl
  refine ⟨[], wide, [shortChunk], hearly, hwide, [bufferedText], shortChunk, [], ?_, ?_, ?_, ?_⟩
  · unfold offered
    rw [hearly, hkept]
    rfl
  · exact List.mem_append_left _ (List.mem_singleton_self _)
  · decide
  · decide

def zeros (n : ℕ) : Text := List.replicate (4 * n) 'A'

theorem zeros_valid (n : ℕ) : (b64decode (zeros n)).isSome := by
  unfold zeros
  induction n with
  | zero => rfl
  | succ n ih =>
    have hgroup : groupBytes 'A' 'A' 'A' 'A' = some [0, 0, 0] := by decide
    obtain ⟨bytes, hbytes⟩ := Option.isSome_iff_exists.mp ih
    rw [Nat.mul_succ]
    simp only [List.replicate_succ, b64decode, hgroup, hbytes]
    rfl

theorem zeros_length (n : ℕ) : (zeros n).length = 4 * n := List.length_replicate

end Order

end Prompta.OwnedStreams
