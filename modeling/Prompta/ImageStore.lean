import Mathlib.Data.List.DropRight
import Prompta.DeliveryQueue

/-!
The files of uploaded images and videos. A file is named by the digest of its bytes and by a
clean name; what an upload must meet is checked before it is stored and again when it is read.
-/
namespace Prompta.ImageStore

open Texts DeliveryQueue

abbrev Bytes := List UInt8

/-- The bytes of a text without characters above 255. -/
def latin (t : String) : Bytes := t.toList.map fun c => UInt8.ofNat c.toNat

/-- The types of `_MIME`. -/
inductive Mime
  | png
  | jpeg
  | gif
  | webp
  | mp4
  | quicktime
  | webm
  deriving DecidableEq, Repr

def Mime.value : Mime → String
  | .png => "image/png"
  | .jpeg => "image/jpeg"
  | .gif => "image/gif"
  | .webp => "image/webp"
  | .mp4 => "video/mp4"
  | .quicktime => "video/quicktime"
  | .webm => "video/webm"

def Mime.isVideo (mime : Mime) : Bool := startsWith mime.value "video/"

/-- `_MIME` -/
def mimeOfSuffix : List (String × Mime) :=
  [(".png", .png), (".jpg", .jpeg), (".jpeg", .jpeg), (".gif", .gif), (".webp", .webp),
    (".mp4", .mp4), (".mov", .quicktime), (".webm", .webm)]

def mp4Brands : List Bytes :=
  ["isom", "iso2", "iso4", "iso5", "iso6", "avc1", "mp41", "mp42", "M4V ", "MSNV", "dash"].map latin

inductive ImageError
  | attachmentTooLarge
  | encoding
  | empty
  | unsupported
  | videoTooLarge
  | imageTooLarge
  | extension
  | reference (error : QueueError)
  | missing
  | integrity
  | mismatch
  deriving DecidableEq

def ImageError.message : ImageError → String
  | .attachmentTooLarge => "Attachment exceeds 50 MiB"
  | .encoding => "Invalid attachment encoding"
  | .empty => "Attachment must not be empty"
  | .unsupported => "Unsupported image or video format"
  | .videoTooLarge => "Video exceeds 50 MiB"
  | .imageTooLarge => "Image exceeds 8 MiB"
  | .extension => "Attachment extension does not match contents"
  | .reference error => error.message
  | .missing => "Attachment no longer exists"
  | .integrity => "Stored attachment integrity check failed"
  | .mismatch => "Stored attachment type mismatch"

def maxImageBytes : ℕ := 8 * 1024 * 1024

def maxVideoBytes : ℕ := 50 * 1024 * 1024

def Mime.limit (mime : Mime) : ℕ := if mime.isVideo then maxVideoBytes else maxImageBytes

def Mime.tooLarge (mime : Mime) : ImageError :=
  if mime.isVideo then .videoTooLarge else .imageTooLarge

section Formats

variable (data : Bytes)

def startsWithBytes (stem : Bytes) : Bool := stem.isPrefixOf data

def isoBrand : Option Bytes :=
  if 12 ≤ data.length ∧ (data.drop 4).take 4 = latin "ftyp" then some
    ((data.drop 8).take 4) else none

def isoMime : Option Mime :=
  match isoBrand data with
  | some brand =>
    if brand = latin "qt  " then some .quicktime else if brand ∈ mp4Brands then some .mp4 else none
  | none => none

def imageMime : Except ImageError Mime :=
  match isoMime data with
  | some mime => .ok mime
  | none =>
    if startsWithBytes data [0x1a, 0x45, 0xdf, 0xa3] &&
        (data.take 128).tails.any (latin "webm").isPrefixOf then .ok .webm
    else if startsWithBytes data [0x89, 0x50, 0x4e, 0x47, 0x0d, 0x0a, 0x1a, 0x0a] then .ok .png
    else if startsWithBytes data [0xff, 0xd8, 0xff] then .ok .jpeg
    else if startsWithBytes data (latin "GIF87a") || startsWithBytes data (latin "GIF89a")
      then .ok .gif
    else if startsWithBytes data (latin "RIFF") && decide ((data.drop 8).take 4 = latin "WEBP") then
      .ok .webp
    else .error .unsupported

end Formats

def sextet (c : Char) : Option ℕ :=
  if 'A' ≤ c ∧ c ≤ 'Z' then some (c.toNat - 'A'.toNat)
  else if 'a' ≤ c ∧ c ≤ 'z' then some (c.toNat - 'a'.toNat + 26)
  else if '0' ≤ c ∧ c ≤ '9' then some (c.toNat - '0'.toNat + 52)
  else if c = '+' then some 62
  else if c = '/' then some 63
  else none

def groupBytes (a b c d : Char) : Option Bytes := do
  let x ← sextet a
  let y ← sextet b
  let first := UInt8.ofNat (x * 4 + y / 16)
  if c = '=' ∧ d = '=' then return [first]
  let z ← sextet c
  let second := UInt8.ofNat (y % 16 * 16 + z / 4)
  if d = '=' then return [first, second]
  let w ← sextet d
  return [first, second, UInt8.ofNat (z % 4 * 64 + w)]

/-- `base64.b64decode(.., validate=True)`: padding is allowed in the last group only. -/
def b64decode : Text → Option Bytes
  | [] => some []
  | a :: b :: c :: d :: rest => do
    let bytes ← groupBytes a b c d
    if d = '=' ∧ rest ≠ [] then none
    let tail ← b64decode rest
    return bytes ++ tail
  | _ => none

/-- `Path(name).name`: the last component. -/
def pathName (name : Text) : Text :=
  let parts := (name.splitOn '/').filter fun part => decide (part ≠ [] ∧ part ≠ ['.'])
  parts.getLast?.getD []

def suffix (name : Text) : Text :=
  let tail := name.rtakeWhile fun c => decide (c ≠ '.')
  if tail.length + 1 < name.length ∧ tail ≠ [] then '.' :: tail else []

def stripDots (t : Text) : Text :=
  let dot := fun c : Char => decide (c = '.' ∨ c = '_')
  (t.dropWhile dot).rdropWhile dot

def cleanName (name : Text) : Text :=
  stripDots (((pathName name).map fun c => if imageNameChar c then c else '_').take 100)

def suffixMime (name : Text) : Option Mime :=
  (mimeOfSuffix.find? fun entry =>
    decide (entry.1 = lower (String.ofList (suffix name)))).map Prod.snd

/-- The digests of the library, as they are written. -/
structure Digest where
  hexdigest : Bytes → Text
  length_eq : ∀ data, (hexdigest data).length = 64
  hexadecimal : ∀ data, (hexdigest data).all isLowerHex = true

/-- An upload that has been checked. -/
structure Upload where
  clean : Text
  data : Bytes
  mime : Mime
  mime_eq : imageMime data = .ok mime
  size_le : data.length ≤ mime.limit
  clean_ne : clean ≠ []
  clean_length : clean.length ≤ 100
  clean_chars : clean.all imageNameChar = true
  suffix_eq : suffixMime clean = some mime

theorem stripDots_inside (t : Text) : stripDots t <:+: t :=
  (List.rdropWhile_prefix _ _).isInfix.trans (List.dropWhile_suffix _).isInfix

theorem cleanName_length (name : Text) : (cleanName name).length ≤ 100 :=
  (stripDots_inside _).length_le.trans (List.length_take_le _ _)

theorem cleanName_chars (name : Text) : (cleanName name).all imageNameChar = true := by
  apply List.all_eq_true.mpr
  intro c hc
  have htake := (stripDots_inside _).mem hc
  obtain ⟨d, _, rfl⟩ := List.mem_map.mp (List.mem_of_mem_take htake)
  split_ifs with h
  · exact h
  · decide

/-- The checks of `save`, ahead of the files. -/
def prepare (name encoded : Text) : Except ImageError Upload :=
  if (maxVideoBytes + 2) / 3 * 4 + 4 < encoded.length then .error .attachmentTooLarge
  else
    match b64decode encoded with
    | none => .error .encoding
    | some data =>
      if data = [] then .error .empty
      else
        match hmime : imageMime data with
        | .error e => .error e
        | .ok mime =>
          if hsize : mime.limit < data.length then .error mime.tooLarge
          else if hclean : cleanName name = [] ∨ suffixMime (cleanName name) ≠ some mime then
            .error .extension
          else
            .ok
              { clean := cleanName name, data, mime
                mime_eq := hmime
                size_le := Nat.le_of_not_lt hsize
                clean_ne := fun h => hclean (Or.inl h)
                clean_length := cleanName_length name
                clean_chars := cleanName_chars name
                suffix_eq := by_contra fun h => hclean (Or.inr h) }

section Read

variable (sha256 : Digest)

def Upload.ref (u : Upload) : String := String.ofList (sha256.hexdigest u.data ++ '/' :: u.clean)

/-- `read`, from the content of the file, when there is one. -/
def read (content : Option Bytes) (ref : String) : Except ImageError (Mime × Bytes) :=
  match imageRefs [ref] with
  | .error e => .error (.reference e)
  | .ok _ =>
    match content with
    | none => .error .missing
    | some data =>
      match imageMime data with
      | .error e => .error e
      | .ok mime =>
        if mime.limit < data.length ∨
          sha256.hexdigest data ≠ ref.toList.takeWhile (fun c => decide (c ≠ '/')) then
          .error .integrity
        else if suffixMime ((ref.toList.dropWhile fun c => decide (c ≠ '/')).tail) ≠ some mime then
          .error .mismatch
        else .ok (mime, data)

variable {sha256}

theorem hexdigest_noSlash (data : Bytes) :
    ∀ c ∈ sha256.hexdigest data, decide (c ≠ '/') = true := by
  intro c hc
  have hhex := List.all_eq_true.mp (sha256.hexadecimal data) c hc
  apply decide_eq_true
  rintro rfl
  exact absurd hhex (by decide)

theorem ref_parts (u : Upload) :
    (u.ref sha256).toList.takeWhile (fun c => decide (c ≠ '/')) = sha256.hexdigest u.data ∧
      ((u.ref sha256).toList.dropWhile fun c => decide (c ≠ '/')).tail = u.clean := by
  rw [Upload.ref, String.toList_ofList, List.takeWhile_append_of_pos (hexdigest_noSlash u.data),
    List.dropWhile_append_of_pos (hexdigest_noSlash u.data)]
  exact ⟨List.append_nil _, rfl⟩

theorem ref_valid (u : Upload) : imageRefs [u.ref sha256] = .ok [u.ref sha256] := by
  have hlength := sha256.length_eq u.data
  have htake : (u.ref sha256).toList.take 64 = sha256.hexdigest u.data := by
    rw [Upload.ref, String.toList_ofList, List.take_left' hlength]
  have hdrop : (u.ref sha256).toList.drop 64 = '/' :: u.clean := by
    rw [Upload.ref, String.toList_ofList, List.drop_left' hlength]
  have hvalid : validImageRef (u.ref sha256) = true := by
    have hone : 1 ≤ u.clean.length := List.length_pos_of_ne_nil u.clean_ne
    unfold validImageRef
    rw [htake, hdrop, hlength, sha256.hexadecimal]
    show (true && (u.clean.all imageNameChar && decide (1 ≤ u.clean.length) &&
      decide (u.clean.length ≤ 100))) = true
    rw [u.clean_chars, decide_eq_true hone, decide_eq_true u.clean_length]
    rfl
  have hsingle : ¬maxImages < [u.ref sha256].length := by
    rw [maxImages, List.length_singleton]
    omega
  unfold imageRefs
  rw [if_neg hsingle, List.all_cons, List.all_nil, hvalid]
  rw [if_neg (by decide), if_neg (not_not.mpr (List.nodup_singleton _))]

/-- References name the digest and the clean name. -/
theorem ref_inj {u v : Upload} (h : u.ref sha256 = v.ref sha256) :
    sha256.hexdigest u.data = sha256.hexdigest v.data ∧ u.clean = v.clean := by
  obtain ⟨hu, hu'⟩ := @ref_parts sha256 u
  obtain ⟨hv, hv'⟩ := @ref_parts sha256 v
  rw [← hu, ← hv, ← hu', ← hv', h]
  exact ⟨rfl, rfl⟩

/-- The complete file is read back. -/
theorem read_complete (u : Upload) :
    read sha256 (some u.data) (u.ref sha256) = .ok (u.mime, u.data) := by
  obtain ⟨hdigest, hclean⟩ := @ref_parts sha256 u
  unfold read
  rw [ref_valid]
  dsimp only
  rw [u.mime_eq]
  dsimp only
  rw [hdigest, hclean, u.suffix_eq, if_neg, if_neg (not_not.mpr rfl)]
  intro h
  rcases h with hsize | hne
  · exact absurd u.size_le (Nat.not_le_of_lt hsize)
  · exact hne rfl

/-- A file with another digest is not read. -/
theorem read_other {u : Upload} {content : Bytes}
    (h : sha256.hexdigest content ≠ sha256.hexdigest u.data) (result : Mime × Bytes) :
    read sha256 (some content) (u.ref sha256) ≠ .ok result := by
  obtain ⟨hdigest, _⟩ := @ref_parts sha256 u
  unfold read
  rw [ref_valid]
  dsimp only
  cases imageMime content with
  | error e => exact fun heq => by cases heq
  | ok mime =>
    dsimp only
    rw [hdigest, if_pos (Or.inr h)]
    exact fun heq => by cases heq

end Read

end Prompta.ImageStore
