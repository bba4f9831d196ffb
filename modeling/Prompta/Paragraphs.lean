import Mathlib.Data.List.DropRight
import Mathlib.Data.List.Infix

/-!
Texts that are split at breaks. A break starts at a mark, goes on with blanks, and ends with the
last mark among them. The parts and the breaks behind them are the text again, so a text can be
cut behind each of its breaks.
-/
namespace Prompta.Paragraphs

variable {α : Type*}

section Breaks

variable [DecidableEq α] (mark : α) (blank : α → Bool)

def IsBreak (brk : List α) : Prop :=
  ∃ middle, brk = mark :: (middle ++ [mark]) ∧ ∀ c ∈ middle, blank c = true

/-- The longest break at the head of the text. -/
def breakAt : List α → Option (List α)
  | [] => none
  | c :: rest =>
    let blanks := (rest.takeWhile blank).rdropWhile fun d => decide (d ≠ mark)
    if c = mark ∧ blanks ≠ [] then some (c :: blanks) else none

/-- The parts with the breaks behind them. The characters of a break are skipped. -/
def paragraphsFrom : ℕ → List α → List α → List (List α × List α)
  | _, part, [] => [(part, [])]
  | skip + 1, part, _ :: rest => paragraphsFrom skip part rest
  | 0, part, c :: rest =>
    match breakAt mark blank (c :: rest) with
    | none => paragraphsFrom 0 (part ++ [c]) rest
    | some brk => (part, brk) :: paragraphsFrom (brk.length - 1) [] rest

def paragraphs (t : List α) : List (List α × List α) := paragraphsFrom mark blank 0 [] t

def split (t : List α) : List (List α) := (paragraphs mark blank t).map Prod.fst

def sections (t : List α) : List (List α) := (paragraphs mark blank t).map fun p => p.1 ++ p.2

/-- A break ends the text. -/
def AfterBreak (t : List α) : Prop := ∃ brk, IsBreak mark blank brk ∧ brk <:+ t

end Breaks

/-- The text before and the text behind every cut between the pieces are as allowed. -/
def CutAt (allowed : List α → List α → Prop) (pieces : List (List α)) : Prop :=
  ∀ front back, pieces = front ++ back → front ≠ [] → back ≠ [] →
    allowed front.flatten back.flatten

section Cuts

variable {allowed more : List α → List α → Prop} {pieces : List (List α)}

theorem CutAt.mono (h : CutAt allowed pieces) (hmore : ∀ left right, allowed left right →
    more left right) : CutAt more pieces := by
  intro front back hsplit hfront hback
  exact hmore _ _ (h front back hsplit hfront hback)

theorem cutAt_single (piece : List α) : CutAt allowed [piece] := by
  intro front back hsplit hfront hback
  have hlength := congrArg List.length hsplit
  rw [List.length_singleton, List.length_append] at hlength
  have hfront' := List.length_pos_iff.mpr hfront
  have hback' := List.length_pos_iff.mpr hback
  omega

theorem cutAt_pair {left right : List α} (h : allowed left right) :
    CutAt allowed [left, right] := by
  intro front back hsplit hfront hback
  obtain ⟨a, front, rfl⟩ := List.exists_cons_of_ne_nil hfront
  rw [List.cons_append, List.cons.injEq] at hsplit
  obtain ⟨rfl, hrest⟩ := hsplit
  cases front with
  | nil =>
    rw [List.nil_append] at hrest
    rw [← hrest, List.flatten_singleton, List.flatten_singleton]
    exact h
  | cons b front =>
    have hlength := congrArg List.length hrest
    rw [List.length_singleton, List.length_append, List.length_cons] at hlength
    have hback' := List.length_pos_iff.mpr hback
    omega

end Cuts

section Parts

variable [DecidableEq α] {mark : α} {blank : α → Bool}

theorem breakAt_spec {t brk : List α} (h : breakAt mark blank t = some brk) :
    IsBreak mark blank brk ∧ brk <+: t := by
  cases t with
  | nil => cases h
  | cons c rest =>
    unfold breakAt at h
    dsimp only at h
    split at h
    · rename_i hmark
      obtain ⟨rfl, hne⟩ := hmark
      obtain rfl := Option.some.inj h
      set run := rest.takeWhile blank
      set blanks := run.rdropWhile fun d => decide (d ≠ c)
      have hstart : blanks <+: run := List.rdropWhile_prefix _ _
      have hlast : blanks.getLast hne = c := by
        by_contra hother
        exact List.rdropWhile_last_not (fun d => decide (d ≠ c)) run hne (decide_eq_true hother)
      have hends : blanks.dropLast ++ [c] = blanks := by
        rw [← hlast]
        exact List.dropLast_append_getLast hne
      refine ⟨⟨blanks.dropLast, by rw [hends], ?_⟩, ?_⟩
      · intro d hd
        apply List.mem_takeWhile_imp (l := rest)
        exact hstart.subset (List.mem_of_mem_dropLast hd)
      · exact (List.prefix_cons_inj c).mpr (hstart.trans (List.takeWhile_prefix blank))
    · cases h

omit [DecidableEq α] in
theorem IsBreak.blanks {brk : List α} (h : IsBreak mark blank brk) (hmark : blank mark = true) :
    ∀ c ∈ brk, blank c = true := by
  obtain ⟨middle, rfl, hmiddle⟩ := h
  intro c hc
  rcases List.mem_cons.mp hc with rfl | hc
  · exact hmark
  · rcases List.mem_append.mp hc with hc | hc
    · exact hmiddle c hc
    · rw [List.mem_singleton.mp hc]
      exact hmark

omit [DecidableEq α] in
theorem IsBreak.length_pos {brk : List α} (h : IsBreak mark blank brk) : 0 < brk.length := by
  obtain ⟨middle, rfl, -⟩ := h
  simp

theorem paragraphsFrom_ne_nil (skip : ℕ) (part t : List α) :
    paragraphsFrom mark blank skip part t ≠ [] := by
  induction t generalizing skip part with
  | nil => simp [paragraphsFrom]
  | cons c rest ih =>
    cases skip with
    | succ skip => exact ih skip part
    | zero =>
      unfold paragraphsFrom
      split
      · exact ih 0 _
      · exact List.cons_ne_nil _ _

/-- The parts and the breaks behind them are the text. -/
theorem paragraphsFrom_flatten (skip : ℕ) (part t : List α) :
    ((paragraphsFrom mark blank skip part t).map fun p => p.1 ++ p.2).flatten =
      part ++ t.drop skip := by
  induction t generalizing skip part with
  | nil => simp [paragraphsFrom]
  | cons c rest ih =>
    cases skip with
    | succ skip =>
      rw [paragraphsFrom, ih, List.drop_succ_cons]
    | zero =>
      cases hbreak : breakAt mark blank (c :: rest) with
      | none =>
        rw [paragraphsFrom, hbreak]
        dsimp only
        rw [ih]
        simp
      | some brk =>
        obtain ⟨hbrk, hstart⟩ := breakAt_spec hbreak
        obtain ⟨tail, htail⟩ := hstart
        have hdrop : tail = rest.drop (brk.length - 1) := by
          have hlength := hbrk.length_pos
          have hcons : rest.drop (brk.length - 1) = (c :: rest).drop brk.length := by
            obtain ⟨n, hn⟩ := Nat.exists_eq_succ_of_ne_zero (Nat.pos_iff_ne_zero.mp hlength)
            rw [hn, List.drop_succ_cons, Nat.succ_sub_one]
          rw [hcons, ← htail, List.drop_left]
        rw [paragraphsFrom, hbreak]
        dsimp only
        rw [List.map_cons, List.flatten_cons, ih, List.nil_append, ← hdrop,
          List.append_assoc, htail, List.drop_zero]

/-- Behind a part stands a break, and behind the last one nothing. -/
theorem paragraphsFrom_breaks (skip : ℕ) (part t : List α) :
    (∀ p ∈ paragraphsFrom mark blank skip part t, IsBreak mark blank p.2 ∨ p.2 = []) ∧
      ∀ p ∈ (paragraphsFrom mark blank skip part t).dropLast, IsBreak mark blank p.2 := by
  induction t generalizing skip part with
  | nil => simp [paragraphsFrom]
  | cons c rest ih =>
    cases skip with
    | succ skip => exact ih skip part
    | zero =>
      cases hbreak : breakAt mark blank (c :: rest) with
      | none =>
        rw [paragraphsFrom, hbreak]
        exact ih 0 (part ++ [c])
      | some brk =>
        have hbrk := (breakAt_spec hbreak).1
        obtain ⟨hall, hlast⟩ := ih (brk.length - 1) []
        rw [paragraphsFrom, hbreak]
        dsimp only
        rw [List.dropLast_cons_of_ne_nil (paragraphsFrom_ne_nil _ _ _)]
        constructor
        · intro p hp
          rcases List.mem_cons.mp hp with rfl | hp
          · exact Or.inl hbrk
          · exact hall p hp
        · intro p hp
          rcases List.mem_cons.mp hp with rfl | hp
          · exact hbrk
          · exact hlast p hp

theorem sections_flatten (t : List α) : (sections mark blank t).flatten = t :=
  paragraphsFrom_flatten 0 [] t

/-- The sections are cut behind breaks. -/
theorem sections_cut (t : List α) :
    CutAt (fun left _ => AfterBreak mark blank left) (sections mark blank t) := by
  intro front back hsplit hfront hback
  obtain ⟨first, second, hpairs, rfl, rfl⟩ := List.map_eq_append_iff.mp hsplit
  have hfirst : first ≠ [] := fun h => hfront (by rw [h, List.map_nil])
  have hsecond : second ≠ [] := fun h => hback (by rw [h, List.map_nil])
  obtain ⟨init, p, rfl⟩ : ∃ init p, first = init ++ [p] :=
    ⟨first.dropLast, first.getLast hfirst, (List.dropLast_append_getLast hfirst).symm⟩
  have hmem : p ∈ (paragraphs mark blank t).dropLast := by
    rw [hpairs, List.dropLast_append_of_ne_nil hsecond]
    simp
  refine ⟨p.2, (paragraphsFrom_breaks 0 [] t).2 p hmem, ?_⟩
  rw [List.map_append, List.flatten_append]
  refine ⟨(init.map fun q => q.1 ++ q.2).flatten ++ p.1, ?_⟩
  simp

/-- A section is a part with blanks behind it. -/
theorem sections_parts (hmark : blank mark = true) {t piece : List α}
    (h : piece ∈ sections mark blank t) :
    ∃ part ∈ split mark blank t, ∃ blanks, piece = part ++ blanks ∧
      ∀ c ∈ blanks, blank c = true := by
  obtain ⟨p, hp, rfl⟩ := List.mem_map.mp h
  refine ⟨p.1, List.mem_map_of_mem hp, p.2, rfl, ?_⟩
  rcases (paragraphsFrom_breaks 0 [] t).1 p hp with hbrk | hnil
  · exact hbrk.blanks hmark
  · rw [hnil]
    exact fun c hc => absurd hc List.not_mem_nil

theorem split_inside {t part : List α} (h : part ∈ split mark blank t) : part <:+: t := by
  obtain ⟨p, hp, rfl⟩ := List.mem_map.mp h
  have hsection : p.1 ++ p.2 ∈ sections mark blank t := List.mem_map_of_mem hp
  have hinfix : p.1 ++ p.2 <:+: (sections mark blank t).flatten :=
    List.infix_of_mem_flatten hsection
  rw [sections_flatten] at hinfix
  exact (List.prefix_append p.1 p.2).isInfix.trans hinfix

end Parts

end Prompta.Paragraphs
