import Mathlib.Logic.Function.Basic
import Prompta.Runs
import Prompta.ImageStore

/-!
Uploads saved by several processes. A file is created exclusively and written in place, a save
that finds it does not look into it, and a process may be killed at any point.
-/
namespace Prompta.ImageSaves

open Texts ImageStore Runs

/-- Where a running save stands. The directory of the file exists by then. -/
inductive Phase
  | checking (upload : Upload)
  | opening (upload : Upload)
  | writing (upload : Upload) (rest : Bytes)

def Phase.upload : Phase → Upload
  | .checking u => u
  | .opening u => u
  | .writing u _ => u

/-- The files, the running saves and the uploads that got a reference. -/
structure State (π : Type*) where
  files : String → Option Bytes := fun _ => none
  phases : π → Option Phase := fun _ => none
  returned : List Upload := []

/-- A process goes on by one system call; a call that writes takes some of the bytes. -/
inductive Action (π : Type*)
  | save (p : π) (name encoded : Text)
  | advance (p : π) (count : ℕ)
  | kill (p : π)

variable {π : Type*} [DecidableEq π]

section Saves

variable (sha256 : Digest)

def setPhase (s : State π) (p : π) (phase : Option Phase) : State π :=
  { s with phases := Function.update s.phases p phase }

/-- `return ref` -/
def finishSave (s : State π) (p : π) (u : Upload) : State π × Option (Except ImageError String) :=
  ({ setPhase s p none with returned := u :: s.returned }, some (.ok (u.ref sha256)))

def advance (s : State π) (p : π) (count : ℕ) : State π × Option (Except ImageError String) :=
  match s.phases p with
  | none => (s, none)
  | some (.checking u) =>
    if (s.files (u.ref sha256)).isSome then finishSave sha256 s p u
    else (setPhase s p (some (.opening u)), none)
  | some (.opening u) =>
    if (s.files (u.ref sha256)).isSome then finishSave sha256 s p u
    else
      ({ setPhase s p (some (.writing u u.data)) with
         files := Function.update s.files (u.ref sha256) (some []) }, none)
  | some (.writing u rest) =>
    if rest = [] then finishSave sha256 s p u
    else
      let written := (s.files (u.ref sha256)).getD [] ++ rest.take (count + 1)
      ({ setPhase s p (some (.writing u (rest.drop (count + 1)))) with
         files := Function.update s.files (u.ref sha256) (some written) }, none)

/-- `save`, up to its first look at the files. -/
def start (s : State π) (p : π) (name encoded : Text) :
    State π × Option (Except ImageError String) :=
  match s.phases p, prepare name encoded with
  | some _, _ => (s, none)
  | none, .error e => (s, some (.error e))
  | none, .ok u => (setPhase s p (some (.checking u)), none)

def step (s : State π) : Action π → State π × Option (Except ImageError String)
  | .save p name encoded => start s p name encoded
  | .advance p count => advance sha256 s p count
  | .kill p => (setPhase s p none, none)

/-- Every returned reference can be read, with the uploaded bytes and their type. -/
def Readable (s : State π) : Prop :=
  ∀ u ∈ s.returned, read sha256 (s.files (u.ref sha256)) (u.ref sha256) = .ok (u.mime, u.data)

def Looks (s : State π) (p : π) (u : Upload) : Prop :=
  s.phases p = some (.checking u) ∨ s.phases p = some (.opening u)

/-- A save that finds its file finds it complete. -/
def FindsComplete (s : State π) : Action π → Prop
  | .advance p _ => ∀ u, Looks s p u → ∀ content, s.files (u.ref sha256) = some content →
    content = u.data
  | _ => True

end Saves

def Among (K : Bytes → Prop) (_ : State π) : Action π → Prop
  | .save _ name encoded => ∀ u, prepare name encoded = .ok u → K u.data
  | _ => True

/-- The digests tell apart all that the files may hold while they are written. -/
def TellsApart (sha256 : Digest) (K : Bytes → Prop) : Prop :=
  ∀ a b c d, K a → K b → c <+: a → d <+: b → sha256.hexdigest c = sha256.hexdigest d → c = d

/-- A file holds the start of an upload, and its only writer has the rest. -/
structure Stored (sha256 : Digest) (K : Bytes → Prop) (s : State π) : Prop where
  running : ∀ p phase, s.phases p = some phase → K phase.upload.data
  returned : ∀ u ∈ s.returned, K u.data
  files : ∀ ref content, s.files ref = some content →
    ∃ u : Upload, K u.data ∧ u.ref sha256 = ref ∧ content <+: u.data
  writing : ∀ p u rest, s.phases p = some (.writing u rest) →
    ∃ content, s.files (u.ref sha256) = some content ∧ content ++ rest = u.data
  sole : ∀ p q u v rest rest', s.phases p = some (.writing u rest) →
    s.phases q = some (.writing v rest') → u.ref sha256 = v.ref sha256 → p = q
  complete : ∀ u ∈ s.returned, s.files (u.ref sha256) = some u.data

variable {sha256 : Digest} {K : Bytes → Prop} {s : State π} {p : π} {u : Upload}

omit [DecidableEq π] in
theorem Stored.readable (h : Stored sha256 K s) : Readable sha256 s := by
  intro u hu
  rw [h.complete u hu]
  exact read_complete u

theorem phases_set {phase : Option Phase} {q : π} {found : Phase}
    (h : (setPhase s p phase).phases q = some found) :
    (q = p ∧ phase = some found) ∨ (q ≠ p ∧ s.phases q = some found) := by
  have hupdate : Function.update s.phases p phase q = some found := h
  by_cases hq : q = p
  · rw [hq, Function.update_self] at hupdate
    exact Or.inl ⟨hq, hupdate⟩
  · rw [Function.update_of_ne hq] at hupdate
    exact Or.inr ⟨hq, hupdate⟩

/-- A save that is not writing yet may go on, and any save may end. -/
theorem Stored.setPhase (h : Stored sha256 K s) {phase : Option Phase}
    (hphase : ∀ found, phase = some found → K found.upload.data ∧
      ∀ u rest, found ≠ .writing u rest) :
    Stored sha256 K (setPhase s p phase) := by
  have hold : ∀ q u rest, (ImageSaves.setPhase s p phase).phases q = some (.writing u rest) →
      s.phases q = some (.writing u rest) := by
    intro q u rest hq
    rcases phases_set hq with ⟨_, hfound⟩ | ⟨_, hq⟩
    · exact absurd rfl ((hphase _ hfound).2 u rest)
    · exact hq
  refine ⟨?_, h.returned, h.files, ?_, ?_, h.complete⟩
  · intro q found hq
    rcases phases_set hq with ⟨_, hfound⟩ | ⟨_, hq⟩
    · exact (hphase found hfound).1
    · exact h.running q found hq
  · intro q u rest hq
    exact h.writing q u rest (hold q u rest hq)
  · intro q q' u v rest rest' hq hq'
    exact h.sole q q' u v rest rest' (hold q u rest hq) (hold q' v rest' hq')

/-- A save returns once its file is complete. -/
theorem Stored.finishSave (h : Stored sha256 K s) (hu : K u.data)
    (hfile : s.files (u.ref sha256) = some u.data) :
    Stored sha256 K (finishSave sha256 s p u).1 := by
  have hset : Stored sha256 K (ImageSaves.setPhase s p none) :=
    h.setPhase fun found hfound => by cases hfound
  refine ⟨hset.running, ?_, hset.files, hset.writing, hset.sole, ?_⟩
  · intro v hv
    rcases List.mem_cons.mp hv with rfl | hv
    · exact hu
    · exact h.returned v hv
  · intro v hv
    rcases List.mem_cons.mp hv with rfl | hv
    · exact hfile
    · exact h.complete v hv

theorem data_eq (hapart : TellsApart sha256 K) {u v : Upload} (hu : K u.data) (hv : K v.data)
    (h : u.ref sha256 = v.ref sha256) : u.data = v.data :=
  hapart _ _ _ _ hu hv (List.prefix_refl _) (List.prefix_refl _) (ref_inj h).1

/-- The exclusive creation of a file that was not there. -/
theorem Stored.create (h : Stored sha256 K s) (hu : K u.data)
    (hfile : s.files (u.ref sha256) = none) :
    Stored sha256 K
      { ImageSaves.setPhase s p (some (.writing u u.data)) with
        files := Function.update s.files (u.ref sha256) (some []) } := by
  have hother : ∀ ref content, s.files ref = some content →
      Function.update s.files (u.ref sha256) (some []) ref = some content := by
    intro ref content hcontent
    have hne : ref ≠ u.ref sha256 := by
      rintro rfl
      rw [hfile] at hcontent
      cases hcontent
    rw [Function.update_of_ne hne]
    exact hcontent
  have hfresh : ∀ q v rest, s.phases q = some (.writing v rest) → v.ref sha256 ≠ u.ref sha256 := by
    intro q v rest hq hsame
    obtain ⟨content, hcontent, _⟩ := h.writing q v rest hq
    rw [hsame, hfile] at hcontent
    cases hcontent
  refine ⟨?_, h.returned, ?_, ?_, ?_, ?_⟩
  · intro q found hq
    rcases phases_set hq with ⟨_, hfound⟩ | ⟨_, hq⟩
    · rw [← Option.some.inj hfound]
      exact hu
    · exact h.running q found hq
  · intro ref content hcontent
    by_cases hsame : ref = u.ref sha256
    · rw [hsame] at hcontent ⊢
      have hnil : some [] = some content := (Function.update_self _ _ s.files).symm.trans hcontent
      rw [← Option.some.inj hnil]
      exact ⟨u, hu, rfl, List.nil_prefix⟩
    · exact h.files ref content ((Function.update_of_ne hsame _ s.files).symm.trans hcontent)
  · intro q v rest hq
    rcases phases_set hq with ⟨_, hfound⟩ | ⟨_, hq⟩
    · obtain ⟨rfl, rfl⟩ := Phase.writing.inj (Option.some.inj hfound)
      exact ⟨[], Function.update_self _ _ s.files, rfl⟩
    · obtain ⟨content, hcontent, hrest⟩ := h.writing q v rest hq
      exact ⟨content, hother _ content hcontent, hrest⟩
  · intro q q' v w rest rest' hq hq' hsame
    rcases phases_set hq with ⟨hqp, hfound⟩ | ⟨_, hq⟩
    · rcases phases_set hq' with ⟨hqp', _⟩ | ⟨_, hq'⟩
      · rw [hqp, hqp']
      · obtain ⟨rfl, _⟩ := Phase.writing.inj (Option.some.inj hfound)
        exact absurd hsame.symm (hfresh q' w rest' hq')
    · rcases phases_set hq' with ⟨_, hfound⟩ | ⟨_, hq'⟩
      · obtain ⟨rfl, _⟩ := Phase.writing.inj (Option.some.inj hfound)
        exact absurd hsame (hfresh q v rest hq)
      · exact h.sole q q' v w rest rest' hq hq' hsame
  · intro v hv
    exact hother _ _ (h.complete v hv)

/-- The writer of a file appends to it, and no reference to the file has been returned. -/
theorem Stored.append (h : Stored sha256 K s) (hapart : TellsApart sha256 K) {rest : Bytes}
    (hphase : s.phases p = some (.writing u rest)) (hrest : rest ≠ []) (count : ℕ) :
    Stored sha256 K
      { ImageSaves.setPhase s p (some (.writing u (rest.drop count))) with
        files := Function.update s.files (u.ref sha256)
          (some ((s.files (u.ref sha256)).getD [] ++ rest.take count)) } := by
  have hu : K u.data := h.running p _ hphase
  obtain ⟨content, hcontent, hwhole⟩ := h.writing p u rest hphase
  have hsplit : content ++ rest.take count ++ rest.drop count = u.data := by
    rw [List.append_assoc, List.take_append_drop]
    exact hwhole
  rw [hcontent, Option.getD_some]
  refine ⟨?_, h.returned, ?_, ?_, ?_, ?_⟩
  · intro q found hq
    rcases phases_set hq with ⟨_, hfound⟩ | ⟨_, hq⟩
    · rw [← Option.some.inj hfound]
      exact hu
    · exact h.running q found hq
  · intro ref other hother
    by_cases hsame : ref = u.ref sha256
    · rw [hsame] at hother ⊢
      have hnew : some (content ++ rest.take count) = some other :=
        (Function.update_self _ _ s.files).symm.trans hother
      rw [← Option.some.inj hnew]
      exact ⟨u, hu, rfl, ⟨rest.drop count, hsplit⟩⟩
    · exact h.files ref other ((Function.update_of_ne hsame _ s.files).symm.trans hother)
  · intro q v rest' hq
    rcases phases_set hq with ⟨_, hfound⟩ | ⟨hne, hq⟩
    · obtain ⟨rfl, rfl⟩ := Phase.writing.inj (Option.some.inj hfound)
      exact ⟨_, Function.update_self _ _ s.files, hsplit⟩
    · have hother : v.ref sha256 ≠ u.ref sha256 := by
        intro hsame
        exact hne (h.sole q p v u rest' rest hq hphase hsame)
      obtain ⟨other, hfile, hdata⟩ := h.writing q v rest' hq
      exact ⟨other, (Function.update_of_ne hother _ s.files).trans hfile, hdata⟩
  · intro q q' v w first second hq hq' hsame
    rcases phases_set hq with ⟨hqp, hfound⟩ | ⟨_, hq⟩
    · rcases phases_set hq' with ⟨hqp', _⟩ | ⟨_, hq'⟩
      · rw [hqp, hqp']
      · obtain ⟨rfl, _⟩ := Phase.writing.inj (Option.some.inj hfound)
        rw [hqp]
        exact h.sole p q' u w rest second hphase hq' hsame
    · rcases phases_set hq' with ⟨hqp', hfound⟩ | ⟨_, hq'⟩
      · obtain ⟨rfl, _⟩ := Phase.writing.inj (Option.some.inj hfound)
        rw [hqp']
        exact h.sole q p v u first rest hq hphase hsame
      · exact h.sole q q' v w first second hq hq' hsame
  · intro v hv
    have hother : v.ref sha256 ≠ u.ref sha256 := by
      intro hsame
      have hcomplete := h.complete v hv
      rw [hsame, hcontent, data_eq hapart (h.returned v hv) hu hsame] at hcomplete
      rw [Option.some.inj hcomplete] at hwhole
      exact hrest (List.append_cancel_left (hwhole.trans (List.append_nil _).symm))
    exact (Function.update_of_ne hother _ s.files).trans (h.complete v hv)

theorem stored_advance (hapart : TellsApart sha256 K) (count : ℕ)
    (hfinds : FindsComplete sha256 s (.advance p count)) (h : Stored sha256 K s) :
    Stored sha256 K (advance sha256 s p count).1 := by
  unfold advance
  cases hphase : s.phases p with
  | none => exact h
  | some phase =>
    have hu : K phase.upload.data := h.running p phase hphase
    cases phase with
    | checking u =>
      dsimp only
      cases hfile : s.files (u.ref sha256) with
      | some content =>
        obtain rfl := hfinds u (Or.inl hphase) content hfile
        exact h.finishSave hu hfile
      | none =>
        refine h.setPhase ?_
        intro found hfound
        rw [← Option.some.inj hfound]
        exact ⟨hu, fun _ _ heq => by cases heq⟩
    | opening u =>
      dsimp only
      cases hfile : s.files (u.ref sha256) with
      | some content =>
        obtain rfl := hfinds u (Or.inr hphase) content hfile
        exact h.finishSave hu hfile
      | none => exact h.create hu hfile
    | writing u rest =>
      dsimp only
      split_ifs with hrest
      · obtain ⟨content, hfile, hwhole⟩ := h.writing p u rest hphase
        rw [hrest, List.append_nil] at hwhole
        rw [hwhole] at hfile
        exact h.finishSave hu hfile
      · exact h.append hapart hphase hrest (count + 1)

theorem stored_step (hapart : TellsApart sha256 K) {a : Action π} (hamong : Among K s a)
    (hfinds : FindsComplete sha256 s a) (h : Stored sha256 K s) :
    Stored sha256 K (step sha256 s a).1 := by
  cases a with
  | save p name encoded =>
    show Stored sha256 K (start s p name encoded).1
    unfold start
    cases hphase : s.phases p with
    | some _ => exact h
    | none =>
      cases hprepare : prepare name encoded with
      | error e => exact h
      | ok u =>
        refine h.setPhase ?_
        intro found hfound
        rw [← Option.some.inj hfound]
        exact ⟨hamong u hprepare, fun _ _ heq => by cases heq⟩
  | advance p count => exact stored_advance hapart count hfinds h
  | kill p => exact h.setPhase fun found hfound => by cases hfound

theorem looks_found {content : Bytes} (count : ℕ) (hlooks : Looks s p u)
    (hfile : s.files (u.ref sha256) = some content) :
    (step sha256 s (.advance p count)).1 = (finishSave sha256 s p u).1 := by
  show (advance sha256 s p count).1 = _
  unfold advance
  rcases hlooks with hphase | hphase
  · rw [hphase]
    dsimp only
    rw [hfile]
    rfl
  · rw [hphase]
    dsimp only
    rw [hfile]
    rfl

/-- A save that finds a file of other content returns a reference that cannot be read. -/
theorem breaks_step (hapart : TellsApart sha256 K) {a : Action π}
    (hbreaks : ¬FindsComplete sha256 s a) (h : Stored sha256 K s) :
    ¬Readable sha256 (step sha256 s a).1 := by
  cases a with
  | advance p count =>
    intro hreadable
    apply hbreaks
    intro u hlooks content hfile
    have hu : K u.data := by
      rcases hlooks with hphase | hphase
      · exact h.running p _ hphase
      · exact h.running p _ hphase
    obtain ⟨v, hv, _, hprefix⟩ := h.files _ content hfile
    rw [looks_found count hlooks hfile] at hreadable
    have hread := hreadable u List.mem_cons_self
    by_contra hne
    have hdigest : sha256.hexdigest content ≠ sha256.hexdigest u.data :=
      fun heq => hne (hapart _ _ _ _ hv hu hprefix (List.prefix_refl _) heq)
    rw [show (finishSave sha256 s p u).1.files = s.files from rfl, hfile] at hread
    exact read_other hdigest _ hread
  | _ => exact absurd trivial hbreaks

/-- What a file may hold in a run: the start of an upload. -/
def Uploaded (actions : List (Action π)) (data : Bytes) : Prop :=
  ∃ p name encoded u, Action.save p name encoded ∈ actions ∧ prepare name encoded = .ok u ∧
    u.data = data

omit [DecidableEq π] in
theorem among_uploaded (step : State π → Action π → State π × Option (Except ImageError String))
    (s : State π) (actions run : List (Action π)) (h : ∀ a ∈ run, a ∈ actions) :
    Meets step (Among (Uploaded actions)) s run := by
  induction run generalizing s with
  | nil => trivial
  | cons a rest ih =>
    refine ⟨?_, ih _ fun b hb => h b (List.mem_cons_of_mem a hb)⟩
    cases a with
    | save p name encoded =>
      intro u hu
      exact ⟨p, name, encoded, u, h _ List.mem_cons_self, hu, rfl⟩
    | _ => trivial

omit [DecidableEq π] in
theorem stored_initial (sha256 : Digest) (K : Bytes → Prop) : Stored sha256 K ({} : State π) :=
  { running := fun _ _ h => by cases h
    returned := fun _ h => absurd h List.not_mem_nil
    files := fun _ _ h => by cases h
    writing := fun _ _ _ h => by cases h
    sole := fun _ _ _ _ _ _ h => by cases h
    complete := fun _ h => absurd h List.not_mem_nil }

/-- For every interleaving of saves and kills: the returned references are readable from then on
exactly when each save that finds its file finds it complete. -/
theorem references_readable_iff (sha256 : Digest) (actions : List (Action π))
    (hapart : TellsApart sha256 (Uploaded actions)) :
    (∀ s, Reaches (step sha256) {} actions s → Readable sha256 s) ↔
      Meets (step sha256) (FindsComplete sha256) {} actions := by
  apply meets_exact (step sha256) (Among (Uploaded actions)) (FindsComplete sha256)
    (Stored sha256 (Uploaded actions)) (Readable sha256)
  · exact fun s h => h.readable
  · exact fun s a hamong hfinds h => stored_step hapart hamong hfinds h
  · exact fun s a _ hbreaks h => breaks_step hapart hbreaks h
  · exact stored_initial sha256 _
  · exact among_uploaded (step sha256) {} actions actions fun _ h => h

section Example

def lengthDigest : Digest where
  hexdigest := fun data =>
    List.replicate (64 - min data.length 64) '0' ++ List.replicate (min data.length 64) '1'
  length_eq := fun data => by
    rw [List.length_append, List.length_replicate, List.length_replicate]
    omega
  hexadecimal := fun data => by
    rw [List.all_append, List.all_replicate, List.all_replicate]
    split_ifs <;> rfl

theorem lengthDigest_count (data : Bytes) :
    (lengthDigest.hexdigest data).count '1' = min data.length 64 := by
  show (List.replicate _ '0' ++ List.replicate _ '1').count '1' = _
  rw [List.count_append, List.count_replicate, List.count_replicate_self, if_neg (by decide),
    Nat.zero_add]

def pngUpload : Upload where
  clean := "photo.png".toList
  data := [0x89, 0x50, 0x4e, 0x47, 0x0d, 0x0a, 0x1a, 0x0a]
  mime := .png
  mime_eq := rfl
  size_le := by decide
  clean_ne := by decide
  clean_length := by decide
  clean_chars := by decide
  suffix_eq := by decide

def savePng (p : ℕ) : Action ℕ := .save p "photo.png".toList "iVBORw0KGgo=".toList

theorem prepare_png : prepare "photo.png".toList "iVBORw0KGgo=".toList = .ok pngUpload := by rfl

def OnlyPng : Action ℕ → Prop
  | .save _ name encoded => name = "photo.png".toList ∧ encoded = "iVBORw0KGgo=".toList
  | _ => True

/-- The prefixes of one upload have different lengths. -/
theorem png_apart {actions : List (Action ℕ)} (h : ∀ a ∈ actions, OnlyPng a) :
    TellsApart lengthDigest (Uploaded actions) := by
  have hdata : ∀ data, Uploaded actions data → data = pngUpload.data := by
    intro data hdata
    obtain ⟨p, name, encoded, u, hmem, hprepare, rfl⟩ := hdata
    obtain ⟨rfl, rfl⟩ := h _ hmem
    rw [prepare_png] at hprepare
    rw [Except.ok.inj hprepare]
  intro a b c d ha hb hc hd heq
  rw [hdata a ha] at hc
  rw [hdata b hb] at hd
  have hshort : pngUpload.data.length = 8 := rfl
  have hcount := congrArg (fun t => t.count '1') heq
  rw [lengthDigest_count, lengthDigest_count] at hcount
  have hc' := hc.length_le
  have hd' := hd.length_le
  rw [List.prefix_iff_eq_take] at hc hd
  rw [hc, hd, show c.length = d.length by omega]

def savedTwice : List (Action ℕ) :=
  [savePng 0, .advance 0 0, .advance 0 0, .advance 0 7, .advance 0 0, savePng 1, .advance 1 0]

theorem references_readable_twice :
    (∀ s, Reaches (step lengthDigest) {} savedTwice s → Readable lengthDigest s) ↔
      Meets (step lengthDigest) (FindsComplete lengthDigest) {} savedTwice := by
  apply references_readable_iff
  apply png_apart
  simp [savedTwice, savePng, OnlyPng]

/-- The first upload is killed after three bytes, the second one gets its reference. -/
def killedSave : List (Action ℕ) :=
  [savePng 0, .advance 0 0, .advance 0 0, .advance 0 2, .kill 0, savePng 1, .advance 1 0]

theorem killed_save_unreadable :
    TellsApart lengthDigest (Uploaded killedSave) ∧
      ¬Readable lengthDigest (final (step lengthDigest) {} killedSave) := by
  constructor
  · apply png_apart
    simp [killedSave, savePng, OnlyPng]
  · intro h
    have hread := h pngUpload (by
      show pngUpload ∈ [pngUpload]
      exact List.mem_singleton_self _)
    cases hread

end Example

end Prompta.ImageSaves
