import Mathlib.Data.List.Basic

/-!
Byte strings behind their lengths. A frame is the length in four bytes, most significant first,
and the bytes; a record is a fixed number of frames. Records are told apart from a marker behind
them as long as no frame is so long that its length starts like the marker.
-/
namespace Prompta.ByteFrames

abbrev Bytes := List UInt8

/-- `n.to_bytes(4, "big")` -/
def be32 (n : ℕ) : Bytes :=
  [UInt8.ofNat (n / 16777216), UInt8.ofNat (n / 65536), UInt8.ofNat (n / 256), UInt8.ofNat n]

theorem ofNat_inj {m n : ℕ} (h : UInt8.ofNat m = UInt8.ofNat n) : m % 256 = n % 256 := by
  have htoNat := congrArg UInt8.toNat h
  simpa only [UInt8.toNat_ofNat'] using htoNat

theorem be32_inj {m n : ℕ} (hm : m < 4294967296) (hn : n < 4294967296)
    (h : be32 m = be32 n) : m = n := by
  unfold be32 at h
  simp only [List.cons.injEq, and_true] at h
  obtain ⟨h3, h2, h1, h0⟩ := h
  have h3 := ofNat_inj h3
  have h2 := ofNat_inj h2
  have h1 := ofNat_inj h1
  have h0 := ofNat_inj h0
  omega

def frame (data : Bytes) : Bytes := be32 data.length ++ data

theorem frame_cancel {a b x y : Bytes} (ha : a.length < 4294967296) (hb : b.length < 4294967296)
    (h : frame a ++ x = frame b ++ y) : a = b ∧ x = y := by
  rw [frame, frame, List.append_assoc, List.append_assoc] at h
  obtain ⟨hlength, hrest⟩ := List.append_inj h rfl
  exact List.append_inj hrest (be32_inj ha hb hlength)

def frames (fields : List Bytes) : Bytes := fields.flatMap frame

/-- Records of as many fields are read off in one way. -/
theorem frames_cancel {fields fields' : List Bytes} {x y : Bytes}
    (hlength : fields.length = fields'.length) (hshort : ∀ f ∈ fields, f.length < 4294967296)
    (hshort' : ∀ f ∈ fields', f.length < 4294967296)
    (h : frames fields ++ x = frames fields' ++ y) :
    fields = fields' ∧ x = y := by
  induction fields generalizing fields' with
  | nil =>
    obtain rfl := List.length_eq_zero_iff.mp hlength.symm
    exact ⟨rfl, h⟩
  | cons f rest ih =>
    cases fields' with
    | nil => cases hlength
    | cons f' rest' =>
      rw [frames, frames, List.flatMap_cons, List.flatMap_cons, List.append_assoc,
        List.append_assoc] at h
      obtain ⟨rfl, hrest⟩ :=
        frame_cancel (hshort f List.mem_cons_self) (hshort' f' List.mem_cons_self) h
      obtain ⟨rfl, hxy⟩ :=
        ih (Nat.succ.inj hlength) (fun g hg => hshort g (List.mem_cons_of_mem f hg))
        (fun g hg => hshort' g (List.mem_cons_of_mem f hg)) hrest
      exact ⟨rfl, hxy⟩

/-- Records of a fixed number of fields, each below a bound. -/
structure Regular (width bound : ℕ) (rows : List (List Bytes)) : Prop where
  width : ∀ row ∈ rows, row.length = width
  short : ∀ row ∈ rows, ∀ f ∈ row, f.length < bound

theorem Regular.tail {width bound : ℕ} {row : List Bytes} {rows : List (List Bytes)}
    (h : Regular width bound (row :: rows)) : Regular width bound rows :=
  ⟨fun r hr => h.width r (List.mem_cons_of_mem row hr),
    fun r hr => h.short r (List.mem_cons_of_mem row hr)⟩

def records (rows : List (List Bytes)) : Bytes := rows.flatMap frames

theorem records_cons (row : List Bytes) (rows : List (List Bytes)) :
    records (row :: rows) = frames row ++ records rows := List.flatMap_cons

/-- No length below the bound starts like the marker. -/
def Marks (marker : Bytes) (bound : ℕ) : Prop :=
  ∀ n < bound, ∀ x y, be32 n ++ x ≠ marker ++ y

section Records

variable {width bound : ℕ} {rows rows' : List (List Bytes)}

theorem first_frame {row : List Bytes} (hwidth : 0 < width)
    (h : Regular width bound (row :: rows)) :
    ∃ (f : Bytes) (x : Bytes), f.length < bound ∧ records (row :: rows) = be32 f.length ++ x := by
  have hrow := h.width row List.mem_cons_self
  cases row with
  | nil =>
    rw [List.length_nil] at hrow
    omega
  | cons f rest =>
    refine ⟨f, f ++ frames rest ++ records rows,
      h.short _ List.mem_cons_self f List.mem_cons_self, ?_⟩
    rw [records_cons, frames, List.flatMap_cons, frame]
    simp only [List.append_assoc, frames]

/-- The first record is read off in one way. -/
theorem row_cancel {row row' : List Bytes} {x y : Bytes} (hbound : bound ≤ 4294967296)
    (h : Regular width bound (row :: rows)) (h' : Regular width bound (row' :: rows'))
    (heq : frames row ++ x = frames row' ++ y) : row = row' ∧ x = y := by
  have hwidths : row.length = row'.length :=
    (h.width row List.mem_cons_self).trans (h'.width row' List.mem_cons_self).symm
  apply frames_cancel hwidths _ _ heq
  · intro f hf
    have hlt := h.short row List.mem_cons_self f hf
    omega
  · intro f hf
    have hlt := h'.short row' List.mem_cons_self f hf
    omega

/-- Records ahead of a marker are read off in one way. -/
theorem records_cancel {marker x y : Bytes} (hwidth : 0 < width) (hbound : bound ≤ 4294967296)
    (hmarker : Marks marker bound) (hrows : Regular width bound rows)
    (hrows' : Regular width bound rows')
    (h : records rows ++ (marker ++ x) = records rows' ++ (marker ++ y)) :
    rows = rows' ∧ x = y := by
  induction rows generalizing rows' with
  | nil =>
    cases rows' with
    | nil => exact ⟨rfl, List.append_cancel_left h⟩
    | cons row' rows' =>
      exfalso
      obtain ⟨f, z, hf, hrecords⟩ := first_frame hwidth hrows'
      rw [hrecords, List.append_assoc] at h
      exact hmarker _ hf _ x h.symm
  | cons row rows ih =>
    cases rows' with
    | nil =>
      exfalso
      obtain ⟨f, z, hf, hrecords⟩ := first_frame hwidth hrows
      rw [hrecords, List.append_assoc] at h
      exact hmarker _ hf _ y h
    | cons row' rows' =>
      rw [records_cons, records_cons, List.append_assoc, List.append_assoc] at h
      obtain ⟨rfl, hrest⟩ := row_cancel hbound hrows hrows' h
      obtain ⟨rfl, hxy⟩ := ih hrows.tail hrows'.tail hrest
      exact ⟨rfl, hxy⟩

theorem records_inj (hwidth : 0 < width) (hbound : bound ≤ 4294967296)
    (hrows : Regular width bound rows)
    (hrows' : Regular width bound rows') (h : records rows = records rows') : rows = rows' := by
  induction rows generalizing rows' with
  | nil =>
    cases rows' with
    | nil => rfl
    | cons row' rows' =>
      obtain ⟨f, z, _, hrecords⟩ := first_frame hwidth hrows'
      rw [hrecords] at h
      cases h
  | cons row rows ih =>
    cases rows' with
    | nil =>
      obtain ⟨f, z, _, hrecords⟩ := first_frame hwidth hrows
      rw [hrecords] at h
      cases h
    | cons row' rows' =>
      rw [records_cons, records_cons] at h
      obtain ⟨rfl, hrest⟩ := row_cancel hbound hrows hrows' h
      rw [ih hrows.tail hrows'.tail hrest]

end Records

end Prompta.ByteFrames
