import Mathlib.Data.List.Forall2
import Prompta.DomMarkdown

/-!
The fenced code of a printed answer. Code elements stand in containers, in quotes and in list
items. A container joins the lines of its sections with a blank line, and a quote puts its
marker in front of each line, so both keep the lines of a fenced block together; an item of a
list joins and rewrites what it has printed.
-/
namespace Prompta.CodeFences

open Texts ConnectorApproval DomMarkdown

def linesOf (t : Text) : List Text := t.splitOn '\n'

/-- The tags whose children are printed as sections. -/
def isGrouped (tagName : String) : Bool :=
  (headingLevel (lower tagName)).isNone &&
    !(["p", "ul", "ol", "table", "hr", "pre"].contains (lower tagName))

def isContainer (tagName : String) : Bool :=
  ["DIV", "SECTION", "ARTICLE", "BLOCKQUOTE"].contains tagName

mutual

def hasPre : Node → Bool
  | .element tagName _ children => decide (tagName = "PRE") || anyPre children
  | _ => false

def anyPre : List Node → Bool
  | [] => false
  | child :: rest => hasPre child || anyPre rest

end

mutual

/-- Code elements occur only as children of containers and of the items of lists. -/
def placed : Node → Bool
  | .element tagName _ children =>
    if tagName = "PRE" then !anyPre children
    else if isContainer tagName then placedAll children
    else if tagName = "UL" ∨ tagName = "OL" then placedItems children
    else !anyPre children
  | _ => true

def placedAll : List Node → Bool
  | [] => true
  | child :: rest => placed child && placedAll rest

def placedItems : List Node → Bool
  | [] => true
  | .element tagName _ children :: rest =>
    (if tagName = "LI" then placedAll children else !decide (tagName = "PRE") &&
      !anyPre children) &&
      placedItems rest
  | _ :: rest => placedItems rest

end

/-- The root may be any element whose children are printed as sections. -/
def placedRoot : Node → Bool
  | .element tagName a children =>
    if isGrouped tagName then placedAll children else placed (.element tagName a children)
  | _ => true

mutual

/-- The visible code elements, in document order. -/
def visiblePres : Node → List Node
  | .element tagName a children =>
    if allowedElement tagName a then
      if tagName = "PRE" then [.element tagName a children] else visiblePresAll children
    else []
  | _ => []

def visiblePresAll : List Node → List Node
  | [] => []
  | child :: rest => visiblePres child ++ visiblePresAll rest

end

mutual

/-- The visible code elements inside of lists. -/
def listedPres : Node → List Node
  | .element tagName a children =>
    if allowedElement tagName a then
      if tagName = "UL" ∨ tagName = "OL" then visiblePresAll children else listedPresAll children
    else []
  | _ => []

def listedPresAll : List Node → List Node
  | [] => []
  | child :: rest => listedPres child ++ listedPresAll rest

end

def codeLines (pre : Node) : List Text := linesOf (withoutLastBreaks (codeText pre))

def ticks (k : ℕ) : Text := List.replicate k '\x60'

/-- A line of the code behind a prefix. In front of an empty line the prefix stands without
its last blanks. -/
def Prefixed (lead line shown : Text) : Prop :=
  shown = lead ++ line ∨ (line = [] ∧ shown = lead.rdropWhile fun c => decide (c = ' '))

/-- The lines hold, one after the other, a fenced block for each of the code elements: between
two fences that are longer than every run of backticks in the code stand its lines, all of them
behind one prefix. -/
inductive Fenced (lead : Text → Prop) : List Text → List Node → Prop
  | none {lines : List Text} : Fenced lead lines []
  | skip {line : Text} {lines : List Text} {pres : List Node} :
      Fenced lead lines pres → Fenced lead (line :: lines) pres
  | block {p language : Text} {k : ℕ} {shown lines : List Text} {pre : Node} {pres : List Node} :
      lead p → 3 ≤ k → (∀ n, ticks n <:+: codeText pre → n < k) → '\x60' ∉ language →
      List.Forall₂ (Prefixed p) (codeLines pre) shown → Fenced lead lines pres →
      Fenced lead ((p ++ ticks k ++ language) :: (shown ++ (p ++ ticks k) :: lines)) (pre :: pres)

/-- Indentation and quote markers. -/
def Marks (p : Text) : Prop := ∀ c ∈ p, c = ' ' ∨ c = '>'

def quoteMarks (depth : ℕ) : Text := (List.replicate depth "> ".toList).flatten

def Quotes (p : Text) : Prop := ∃ depth, p = quoteMarks depth

/-- Every visible code element is found in the Markdown of the root. -/
def CodeKept (b : Browser) (root : Node) : Prop :=
  Fenced Marks (linesOf (markdownFromRoot b root)) (visiblePres root)

section Lines

theorem linesOf_break (s t : Text) : linesOf (s ++ '\n' :: t) = linesOf s ++ linesOf t := by
  unfold linesOf
  rw [List.splitOn_eq_splitOnP, List.splitOn_eq_splitOnP, List.splitOn_eq_splitOnP]
  exact List.splitOnP_append_cons s t (by decide)

theorem linesOf_unbroken {t : Text} (h : '\n' ∉ t) : linesOf t = [t] := by
  unfold linesOf
  rw [List.splitOn_eq_splitOnP]
  apply List.splitOnP_eq_singleton
  intro c hc
  rw [beq_eq_false_iff_ne]
  rintro rfl
  exact h hc

theorem linesOf_joined {lines : List Text} (h : ∀ line ∈ lines, '\n' ∉ line) (hne : lines ≠ []) :
    linesOf (List.intercalate ['\n'] lines) = lines := List.splitOn_intercalate '\n' h hne

theorem linesOf_ne_nil (t : Text) : linesOf t ≠ [] := by
  unfold linesOf
  rw [List.splitOn_eq_splitOnP]
  exact List.splitOnP_ne_nil _ _

/-- A break begins a new line, any other character continues the first one. -/
theorem linesOf_cons (c : Char) (t : Text) :
    linesOf (c :: t) = if c = '\n' then [] :: linesOf t else (linesOf t).modifyHead (c :: ·) := by
  unfold linesOf
  rw [List.splitOn_eq_splitOnP, List.splitOn_eq_splitOnP, List.splitOnP_cons_eq_if_modifyHead]
  simp only [beq_iff_eq]

theorem unbroken_of_mem {t line : Text} (h : line ∈ linesOf t) : '\n' ∉ line := by
  induction t generalizing line with
  | nil =>
    rw [List.mem_singleton.mp h]
    exact List.not_mem_nil
  | cons c t ih =>
    rw [linesOf_cons] at h
    split at h
    · rcases List.mem_cons.mp h with rfl | h
      · exact List.not_mem_nil
      · exact ih h
    · rename_i hc
      obtain ⟨first, rest, hlines⟩ := List.exists_cons_of_ne_nil (linesOf_ne_nil t)
      rw [hlines] at h ih
      rcases List.mem_cons.mp h with rfl | h
      · rw [List.mem_cons, not_or]
        exact ⟨fun heq => hc heq.symm, ih List.mem_cons_self⟩
      · exact ih (List.mem_cons_of_mem first h)

end Lines

section Runs

/-- What does not contain an element lies on one side of it. -/
theorem infix_split {l s t : Text} {c : Char} (hc : c ∉ l) (h : l <:+: s ++ c :: t) :
    l <:+: s ∨ l <:+: t := by
  obtain ⟨u, v, huv⟩ := h
  rw [List.append_assoc] at huv
  rcases List.append_eq_append_iff.mp huv with ⟨a, hs, hrest⟩ | ⟨a, hu, hrest⟩
  · rcases List.append_eq_append_iff.mp hrest with ⟨d, ha, -⟩ | ⟨d, hl, hv⟩
    · left
      rw [hs, ha]
      exact ⟨u, d, List.append_assoc u l d⟩
    · cases d with
      | nil =>
        left
        rw [hs, hl, List.append_nil]
        exact (List.suffix_append u a).isInfix
      | cons d rest =>
        have hd : c = d := (List.cons.inj hv).1
        rw [hl, hd] at hc
        exact absurd (List.mem_append_right a List.mem_cons_self) hc
  · cases a with
    | nil =>
      cases l with
      | nil => exact Or.inl (List.nil_infix)
      | cons d rest =>
        have hd : c = d := (List.cons.inj hrest).1
        rw [hd] at hc
        exact absurd List.mem_cons_self hc
    | cons d rest =>
      right
      have htail := (List.cons.inj hrest).2
      exact ⟨rest, v, by rw [List.append_assoc]; exact htail.symm⟩

theorem ticks_length (k : ℕ) : (ticks k).length = k := List.length_replicate

/-- A run of backticks is not longer than one of the runs that the printer counts. -/
theorem run_counted {n m : ℕ} {value : Text} (h : ticks n <:+: ticks m ++ value) :
    n = 0 ∨ ∃ run ∈ tickRuns m value, n ≤ run := by
  have hleft : ∀ {j}, ticks n <:+: ticks j → n = 0 ∨ 0 < j ∧ n ≤ j := by
    intro j hm
    have hlength := hm.length_le
    rw [ticks_length, ticks_length] at hlength
    omega
  induction value generalizing m with
  | nil =>
    rw [List.append_nil] at h
    rcases hleft h with hzero | ⟨hpos, hle⟩
    · exact Or.inl hzero
    · refine Or.inr ⟨m, ?_, hle⟩
      show m ∈ (if m = 0 then [] else [m])
      rw [if_neg (by omega)]
      exact List.mem_singleton_self m
  | cons c rest ih =>
    by_cases hc : c = '\x60'
    · have hmore : ticks m ++ c :: rest = ticks (m + 1) ++ rest := by
        unfold ticks
        rw [List.replicate_succ', List.append_assoc, hc]
        rfl
      rw [hmore] at h
      show n = 0 ∨ ∃ run ∈ (if c = '\x60' then tickRuns (m + 1) rest else _), n ≤ run
      rw [if_pos hc]
      exact ih h
    · have hother : c ∉ ticks n := fun hmem => hc (List.eq_of_mem_replicate hmem)
      show n = 0 ∨ ∃ run ∈ (if c = '\x60' then _ else
        (if m = 0 then [] else [m]) ++ tickRuns 0 rest), n ≤ run
      rw [if_neg hc]
      rcases infix_split hother h with hs | ht
      · rcases hleft hs with hzero | ⟨hpos, hle⟩
        · exact Or.inl hzero
        · refine Or.inr ⟨m, List.mem_append_left _ ?_, hle⟩
          rw [if_neg (by omega)]
          exact List.mem_singleton_self m
      · rcases ih (m := 0) ht with hzero | ⟨run, hrun, hle⟩
        · exact Or.inl hzero
        · exact Or.inr ⟨run, List.mem_append_right _ hrun, hle⟩

/-- The fence is longer than every run of backticks in the code. -/
theorem fence_longer {n : ℕ} {value : Text} (h : ticks n <:+: value) : n < fenceLength value 3 := by
  have hmin := fenceLength_min value 3
  rcases run_counted (m := 0) h with hzero | ⟨run, hrun, hle⟩
  · omega
  · have hrun' := run_lt_fenceLength hrun 3
    omega

end Runs

section Blocks

theorem languageFrom_chars (opens : Bool) (t : Text) :
    ∀ c ∈ languageFrom opens t, isLanguageChar c = true := by
  induction t generalizing opens with
  | nil => exact fun c hc => absurd hc List.not_mem_nil
  | cons d rest ih =>
    intro c hc
    unfold languageFrom at hc
    dsimp only at hc
    split at hc
    · exact List.mem_takeWhile_imp hc
    · exact ih _ c hc

theorem codeLanguage_chars (node : Node) : ∀ c ∈ codeLanguage node, isLanguageChar c = true := by
  unfold codeLanguage
  split
  · exact languageFrom_chars true _
  · exact fun c hc => absurd hc List.not_mem_nil

theorem language_no_mark (node : Node) : '\x60' ∉ codeLanguage node ∧ '\n' ∉ codeLanguage node :=
  ⟨fun h => absurd (codeLanguage_chars node _ h) (by decide),
    fun h => absurd (codeLanguage_chars node _ h) (by decide)⟩

theorem ticks_unbroken (k : ℕ) : '\n' ∉ ticks k := by
  intro h
  exact absurd (List.eq_of_mem_replicate h) (by decide)

theorem fencedCode_lines (pre : Node) : linesOf (fencedCode pre) =
    (ticks (fenceLength (codeText pre) 3) ++ codeLanguage pre) ::
      (codeLines pre ++ [ticks (fenceLength (codeText pre) 3)]) := by
  have hshape : fencedCode pre =
      (ticks (fenceLength (codeText pre) 3) ++ codeLanguage pre) ++ '\n' ::
        (withoutLastBreaks (codeText pre) ++ '\n' :: ticks (fenceLength (codeText pre) 3)) := by
    show _ ++ _ ++ ['\n'] ++ _ ++ ['\n'] ++ _ = _
    simp only [List.append_assoc, List.singleton_append]
    rfl
  have hopening : '\n' ∉ ticks (fenceLength (codeText pre) 3) ++ codeLanguage pre := by
    rw [List.mem_append, not_or]
    exact ⟨ticks_unbroken _, (language_no_mark pre).2⟩
  rw [hshape, linesOf_break, linesOf_break, linesOf_unbroken hopening, linesOf_unbroken
    (ticks_unbroken _)]
  rfl

theorem quotes_nil : Quotes [] := ⟨0, rfl⟩

/-- A code element is printed as its own fenced block. -/
theorem fencedCode_fenced (pre : Node) : Fenced Quotes (linesOf (fencedCode pre)) [pre] := by
  rw [fencedCode_lines]
  have hshown : List.Forall₂ (Prefixed []) (codeLines pre) (codeLines pre) :=
    List.forall₂_same.mpr fun line _ => Or.inl rfl
  exact Fenced.block quotes_nil (fenceLength_min _ 3) (fun n => fence_longer)
    (language_no_mark pre).1
    hshown Fenced.none

variable {lead : Text → Prop} {lines : List Text} {pres : List Node}

theorem fenced_behind (front : List Text) (h : Fenced lead lines pres) :
    Fenced lead (front ++ lines) pres := by
  induction front with
  | nil => exact h
  | cons line rest ih => exact Fenced.skip ih

theorem fenced_append {more : List Text} {others : List Node} (h : Fenced lead lines pres)
    (hmore : Fenced lead more others) : Fenced lead (lines ++ more) (pres ++ others) := by
  induction h with
  | none => exact fenced_behind _ hmore
  | skip _ ih => exact Fenced.skip ih
  | @block p language k shown lines pre pres hp hk hlong hlanguage hshown _ ih =>
    have hshape : ((p ++ ticks k ++ language) :: (shown ++ (p ++ ticks k) :: lines)) ++ more =
        (p ++ ticks k ++ language) :: (shown ++ (p ++ ticks k) :: (lines ++ more)) := by
      rw [List.cons_append, List.append_assoc shown, List.cons_append]
    rw [hshape]
    exact Fenced.block hp hk hlong hlanguage hshown ih

theorem fenced_mono {weaker : Text → Prop} (hweaker : ∀ p, lead p → weaker p)
    (h : Fenced lead lines pres) : Fenced weaker lines pres := by
  induction h with
  | none => exact Fenced.none
  | skip _ ih => exact Fenced.skip ih
  | block hp hk hlong hlanguage hshown _ ih =>
    exact Fenced.block (hweaker _ hp) hk hlong hlanguage hshown ih

theorem quotes_quoted {p : Text} (h : Quotes p) : Quotes ("> ".toList ++ p) := by
  obtain ⟨depth, rfl⟩ := h
  exact ⟨depth + 1, rfl⟩

theorem quotes_head {p : Text} (h : Quotes p) : p = [] ∨ p.head? = some '>' := by
  obtain ⟨depth, rfl⟩ := h
  cases depth with
  | zero => exact Or.inl rfl
  | succ depth => exact Or.inr rfl

theorem quotes_marks {p : Text} (h : Quotes p) : Marks p := by
  obtain ⟨depth, rfl⟩ := h
  intro c hc
  obtain ⟨mark, hmark, hin⟩ := List.mem_flatten.mp hc
  rw [List.eq_of_mem_replicate hmark] at hin
  rcases List.mem_cons.mp hin with rfl | hin
  · exact Or.inr rfl
  · rw [List.mem_singleton.mp hin]
    exact Or.inl rfl

theorem quoteLine_solid {line : Text} (h : line ≠ []) : quoteLine line = "> ".toList ++
    line := if_neg h

/-- A quote puts its marker in front of the prefix. -/
theorem prefixed_quoted {p line shown : Text} (h : Prefixed p line shown) :
    Prefixed ("> ".toList ++ p) line (quoteLine shown) := by
  have hblank : ∀ t : Text, ("> ".toList ++ t).rdropWhile (fun c => decide (c = ' ')) =
      if t.rdropWhile (fun c => decide (c = ' ')) = [] then ['>']
      else "> ".toList ++ t.rdropWhile fun c => decide (c = ' ') := by
    intro t
    induction t using List.reverseRecOn with
    | nil => rfl
    | append_singleton t c ih =>
      rw [← List.append_assoc]
      by_cases hc : c = ' '
      · have hdrop := fun u : Text => List.rdropWhile_concat_pos (fun d => decide (d = ' ')) u c
          (decide_eq_true hc)
        rw [hdrop, hdrop]
        exact ih
      · have hkeep := fun u : Text => List.rdropWhile_concat_neg (fun d => decide (d = ' ')) u c
          (fun h => hc (of_decide_eq_true h))
        rw [hkeep, hkeep, if_neg
          (fun hnil => List.cons_ne_nil c [] (List.append_eq_nil_iff.mp hnil).2)]
        exact List.append_assoc _ _ _
  rcases h with rfl | ⟨rfl, rfl⟩
  · by_cases hempty : p ++ line = []
    · obtain ⟨rfl, rfl⟩ := List.append_eq_nil_iff.mp hempty
      exact Or.inr ⟨rfl, by decide⟩
    · left
      rw [quoteLine_solid hempty, List.append_assoc]
  · right
    refine ⟨rfl, ?_⟩
    rw [hblank]
    split
    · rename_i hnil
      rw [hnil]
      rfl
    · rename_i hsolid
      exact quoteLine_solid hsolid

theorem fenced_quoted (h : Fenced Quotes lines pres) :
    Fenced Quotes (lines.map quoteLine) pres := by
  induction h with
  | none => exact Fenced.none
  | skip _ ih => exact Fenced.skip ih
  | @block p language k shown lines pre pres hp hk hlong hlanguage hshown _ ih =>
    have hticks : ticks k ≠ [] := by
      apply List.ne_nil_of_length_pos
      rw [ticks_length]
      omega
    have hopening : p ++ ticks k ++ language ≠ [] := fun hnil =>
      hticks (List.append_eq_nil_iff.mp (List.append_eq_nil_iff.mp hnil).1).2
    have hclosing : p ++ ticks k ≠ [] := fun hnil => hticks (List.append_eq_nil_iff.mp hnil).2
    rw [List.map_cons, List.map_append, List.map_cons, quoteLine_solid hopening,
      quoteLine_solid hclosing, ← List.append_assoc, ← List.append_assoc]
    refine Fenced.block (quotes_quoted hp) hk hlong hlanguage ?_ ih
    rw [List.forall₂_map_right_iff]
    exact hshown.imp fun _ _ => prefixed_quoted

/-- A line that begins with neither a quote marker nor a fence is no part of a block. -/
theorem fenced_dropFirst {line : Text} (h : Fenced Quotes (line :: lines) pres)
    (hquote : line.head? ≠ some '>') (htick : line.head? ≠ some '\x60') :
    Fenced Quotes lines pres := by
  cases h with
  | none => exact Fenced.none
  | skip h => exact h
  | @block p language k _ _ _ _ hp hk =>
    exfalso
    obtain ⟨k, rfl⟩ : ∃ j, k = j + 1 := ⟨k - 1, by omega⟩
    rcases quotes_head hp with rfl | hhead
    · exact htick rfl
    · apply hquote
      cases p with
      | nil => cases hhead
      | cons c rest => exact hhead

theorem ticks_getLast (p : Text) {k : ℕ} (hk : 3 ≤ k) : (p ++ ticks k).getLast? = some '\x60' := by
  obtain ⟨j, rfl⟩ : ∃ j, k = j + 1 := ⟨k - 1, by omega⟩
  unfold ticks
  rw [List.replicate_succ', ← List.append_assoc]
  exact List.getLast?_concat

/-- A line that does not end in a fence closes no block. -/
theorem fenced_dropLast {line : Text} (h : Fenced Quotes (lines ++ [line]) pres)
    (hline : line.getLast? ≠ some '\x60') : Fenced Quotes lines pres := by
  generalize hall : lines ++ [line] = all at h
  induction h generalizing lines with
  | none => exact Fenced.none
  | @skip first rest pres h ih =>
    cases lines with
    | nil =>
      obtain ⟨-, rfl⟩ := List.cons.inj hall
      cases h with
      | none => exact Fenced.none
    | cons first' lines =>
      obtain ⟨rfl, hrest⟩ := List.cons.inj hall
      exact Fenced.skip (ih hrest)
  | @block p language k shown rest pre pres hp hk hlong hlanguage hshown _ ih =>
    rcases List.eq_nil_or_concat rest with rfl | ⟨front, last, rfl⟩
    · have hsplit : (p ++ ticks k ++ language) :: (shown ++ [p ++ ticks k]) =
          ((p ++ ticks k ++ language) :: shown) ++ [p ++ ticks k] := rfl
      rw [hsplit] at hall
      obtain ⟨-, hlast⟩ := List.append_inj' hall rfl
      rw [(List.cons.inj hlast).1, ticks_getLast p hk] at hline
      exact absurd rfl hline
    · have hsplit : (p ++ ticks k ++ language) :: (shown ++ (p ++ ticks k) :: (front ++ [last])) =
          ((p ++ ticks k ++ language) :: (shown ++ (p ++ ticks k) :: front)) ++ [last] := by
        rw [List.cons_append, List.append_assoc shown, List.cons_append]
      rw [List.concat_eq_append, hsplit] at hall
      obtain ⟨rfl, hlast⟩ := List.append_inj' hall rfl
      obtain rfl := (List.cons.inj hlast).1
      exact Fenced.block hp hk hlong hlanguage hshown (ih List.concat_eq_append.symm)

theorem linesOf_concat {c : Char} (hc : c ≠ '\n') (t : Text) :
    ∃ front last, linesOf t = front ++ [last] ∧ linesOf (t ++ [c]) = front ++ [last ++ [c]] := by
  induction t with
  | nil => exact ⟨[], [], rfl, linesOf_unbroken
    (by rw [List.nil_append, List.mem_singleton]; exact hc.symm)⟩
  | cons d t ih =>
    obtain ⟨front, last, hlines, hmore⟩ := ih
    rw [List.cons_append, linesOf_cons, linesOf_cons, hlines, hmore]
    split
    · exact ⟨[] :: front, last, rfl, rfl⟩
    · cases front with
      | nil => exact ⟨[], d :: last, rfl, rfl⟩
      | cons first front => exact ⟨(d :: first) :: front, last, rfl, rfl⟩

theorem blank_no_mark {c : Char} (h : isWhitespace c = true) : c ≠ '>' ∧ c ≠ '\x60' := by
  constructor
  · rintro rfl
    exact absurd h (by decide)
  · rintro rfl
    exact absurd h (by decide)

theorem fenced_dropBlanks {t : Text} (h : Fenced Quotes (linesOf t) pres) :
    Fenced Quotes (linesOf (t.dropWhile isWhitespace)) pres := by
  induction t with
  | nil => exact h
  | cons c rest ih =>
    cases hblank : isWhitespace c
    · rw [List.dropWhile_cons_of_neg (by rw [hblank]; exact Bool.false_ne_true)]
      exact h
    · rw [List.dropWhile_cons_of_pos hblank]
      apply ih
      rw [linesOf_cons] at h
      split at h
      · exact fenced_dropFirst h (by decide) (by decide)
      · obtain ⟨first, more, hlines⟩ := List.exists_cons_of_ne_nil (linesOf_ne_nil rest)
        rw [hlines] at h ⊢
        obtain ⟨hquote, htick⟩ := blank_no_mark hblank
        exact Fenced.skip (fenced_dropFirst h (fun heq => hquote (Option.some.inj heq))
          (fun heq => htick (Option.some.inj heq)))

theorem fenced_dropLastBlanks {t : Text} (h : Fenced Quotes (linesOf t) pres) :
    Fenced Quotes (linesOf (t.rdropWhile isWhitespace)) pres := by
  induction t using List.reverseRecOn with
  | nil => exact h
  | append_singleton t c ih =>
    cases hblank : isWhitespace c
    · rw [List.rdropWhile_concat_neg _ _ _ (by rw [hblank]; exact Bool.false_ne_true)]
      exact h
    · rw [List.rdropWhile_concat_pos _ _ _ hblank]
      apply ih
      by_cases hc : c = '\n'
      · rw [hc, linesOf_break] at h
        exact fenced_dropLast h (by decide)
      · obtain ⟨front, last, hlines, hmore⟩ := linesOf_concat hc t
        rw [hmore] at h
        have htick : (last ++ [c]).getLast? ≠ some '\x60' := by
          rw [List.getLast?_concat]
          exact fun heq => (blank_no_mark hblank).2 (Option.some.inj heq)
        have hfront := fenced_append (fenced_dropLast h htick) (@Fenced.none Quotes [last])
        rw [List.append_nil] at hfront
        rw [hlines]
        exact hfront

theorem fenced_trim {t : Text} (h : Fenced Quotes (linesOf t) pres) :
    Fenced Quotes (linesOf (trim t)) pres := fenced_dropLastBlanks (fenced_dropBlanks h)

end Blocks

section Printing

def joined (parts : List Text) : Text := List.intercalate "\n\n".toList parts

theorem fenced_empty {pres : List Node} (h : Fenced Quotes (linesOf []) pres) : pres = [] := by
  cases fenced_dropFirst h (by decide) (by decide) with
  | none => rfl

/-- The sections of a container keep the blocks that each of them holds. -/
theorem fenced_join {s : Text} {parts : List Text} {pres others : List Node}
    (h : Fenced Quotes (linesOf s) pres) (hparts : Fenced Quotes (linesOf (joined parts)) others) :
    Fenced Quotes (linesOf (joined (s :: parts))) (pres ++ others) := by
  cases parts with
  | nil =>
    obtain rfl := fenced_empty hparts
    unfold joined
    rw [List.append_nil, List.intercalate_singleton]
    exact h
  | cons q rest =>
    have hshape : joined (s :: q :: rest) = s ++ '\n' :: ('\n' :: joined (q :: rest)) := by
      unfold joined
      rw [List.intercalate_cons_cons, List.append_assoc]
      rfl
    rw [hshape, linesOf_break, linesOf_cons, if_pos rfl]
    exact fenced_append h (Fenced.skip hparts)

theorem fenced_prose {s : Text} {parts : List Text} {others : List Node}
    (hparts : Fenced Quotes (linesOf (joined parts)) others) :
    Fenced Quotes (linesOf (joined (flush s ++ parts))) others := by
  unfold flush
  split
  · exact hparts
  · exact fenced_join Fenced.none hparts

/-- The lines of a part and of the parts behind it hold the code elements of both. -/
theorem fenced_solid {s : Text} {parts : List Text} {pres others : List Node}
    (h : Fenced Quotes (linesOf s) pres) (hparts : Fenced Quotes (linesOf (joined parts)) others) :
    Fenced Quotes (linesOf (joined (solid s ++ parts))) (pres ++ others) := by
  unfold solid
  split
  · rename_i hempty
    rw [hempty] at h
    rw [fenced_empty h]
    exact hparts
  · exact fenced_join h hparts

theorem quoteLine_unbroken {line : Text} (h : '\n' ∉ line) : '\n' ∉ quoteLine line := by
  unfold quoteLine
  split
  · decide
  · rw [List.mem_append, not_or]
    exact ⟨by decide, h⟩

theorem fenced_quote {s : Text} {pres : List Node} (h : Fenced Quotes (linesOf s) pres) :
    Fenced Quotes (linesOf (quoted s)) pres := by
  have hlines : linesOf (quoted s) = (linesOf s).map quoteLine := by
    apply linesOf_joined
    · intro line hline
      obtain ⟨source, hsource, rfl⟩ := List.mem_map.mp hline
      exact quoteLine_unbroken (unbroken_of_mem hsource)
    · exact fun hnil => linesOf_ne_nil s (List.map_eq_nil_iff.mp hnil)
  rw [hlines]
  exact fenced_quoted h

mutual

theorem visiblePres_nil : ∀ {node : Node}, hasPre node = false → visiblePres node = []
  | .text _, _ => rfl
  | .other, _ => rfl
  | .element tagName a children, h => by
    rw [hasPre, Bool.or_eq_false_iff, decide_eq_false_iff_not] at h
    rw [visiblePres, if_neg h.1, visiblePresAll_nil h.2, ite_self]

theorem visiblePresAll_nil : ∀ {nodes : List Node}, anyPre nodes = false → visiblePresAll nodes = []
  | [], _ => rfl
  | child :: rest, h => by
    rw [anyPre, Bool.or_eq_false_iff] at h
    rw [visiblePresAll, visiblePres_nil h.1, visiblePresAll_nil h.2, List.append_nil]

end

variable (b : Browser)

/-- An element whose children are printed as sections prints them, behind quote markers when it
is a quote. -/
theorem block_grouped {tagName : String} (a : Attributes) (children : List Node)
    (hgrouped : isGrouped tagName = true) (hallowed : allowedElement tagName a = true) :
    block b (.element tagName a children) =
      if lower tagName = "blockquote" then quoted (joined (sections b [] children))
      else joined (sections b [] children) := by
  obtain ⟨hheading, hother⟩ := Bool.and_eq_true_iff.mp hgrouped
  simp only [List.contains_eq_mem, List.mem_cons, List.not_mem_nil, or_false, Bool.not_eq_true',
    decide_eq_false_iff_not, not_or] at hother
  obtain ⟨hp, hul, hol, htable, hhr, hpre⟩ := hother
  rw [block, if_pos hallowed, Option.isNone_iff_eq_none.mp hheading]
  show (if lower tagName = "p" then _ else if lower tagName = "ul" ∨
      lower tagName = "ol" then _ else
    if lower tagName = "table" then _ else if lower tagName = "hr" then _ else
    if lower tagName = "pre" then _ else _) = _
  rw [if_neg hp, if_neg (not_or.mpr ⟨hul, hol⟩), if_neg htable, if_neg hhr, if_neg hpre]
  rfl

/-- An element whose children are printed as sections holds what the sections hold. -/
theorem grouped_fenced {tagName : String} {a : Attributes} {children : List Node} {pres : List Node}
    (hgrouped : isGrouped tagName = true) (hallowed : allowedElement tagName a = true)
    (h : Fenced Quotes (linesOf (joined (sections b [] children))) pres) :
    Fenced Quotes (linesOf (block b (.element tagName a children))) pres := by
  rw [block_grouped b a children hgrouped hallowed]
  split
  · exact fenced_quote h
  · exact h

theorem container_grouped {tagName : String} (h : isContainer tagName = true) :
    isGrouped tagName = true := by
  unfold isContainer at h
  simp only [List.contains_eq_mem, List.mem_cons, List.not_mem_nil, or_false,
    decide_eq_true_eq] at h
  rcases h with rfl | rfl | rfl | rfl <;> decide

theorem grouped_tags {tagName : String} (h : isGrouped tagName = true) :
    tagName ≠ "PRE" ∧ ¬(tagName = "UL" ∨ tagName = "OL") := by
  constructor
  · rintro rfl
    exact absurd h (by decide)
  · rintro (rfl | rfl)
    · exact absurd h (by decide)
    · exact absurd h (by decide)

theorem block_pre (a : Attributes) (children : List Node)
    (hallowed : allowedElement "PRE" a = true) :
    block b (.element "PRE" a children) = fencedCode (.element "PRE" a children) := by
  rw [block, if_pos hallowed]
  rfl

/-- A child that is printed inline holds no code element. -/
theorem inline_no_pre {node : Node} (hplaced : placed node = true) (hblock : isBlock node = false) :
    visiblePres node = [] := by
  cases node with
  | text _ => rfl
  | other => rfl
  | element tagName a children =>
    have hother : ∀ name ∈ blockTags, tagName ≠ name := by
      rintro name hname rfl
      exact absurd (hblock.symm.trans (List.contains_iff_mem.mpr hname)) Bool.false_ne_true
    have hcontainer : ¬isContainer tagName = true := by
      intro h
      unfold isContainer at h
      simp only [List.contains_eq_mem, List.mem_cons, List.not_mem_nil, or_false,
        decide_eq_true_eq] at h
      rcases h with rfl | rfl | rfl | rfl
      · exact hother "DIV" (by decide) rfl
      · exact hother "SECTION" (by decide) rfl
      · exact hother "ARTICLE" (by decide) rfl
      · exact hother "BLOCKQUOTE" (by decide) rfl
    have hpre := hother "PRE" (by decide)
    rw [placed, if_neg hpre, if_neg hcontainer,
      if_neg (not_or.mpr ⟨hother "UL" (by decide), hother "OL" (by decide)⟩),
        Bool.not_eq_true'] at hplaced
    rw [visiblePres, if_neg hpre, visiblePresAll_nil hplaced, ite_self]

theorem visiblePres_hidden {node : Node}
    (h : allowedNode node = false) : visiblePres node = [] := by
  cases node with
  | text _ => rfl
  | other => rfl
  | element tagName a children =>
    have hhidden : allowedElement tagName a = false := h
    rw [visiblePres, hhidden, if_neg Bool.false_ne_true]

mutual

theorem block_fenced : ∀ node : Node, placed node = true → listedPres node = [] →
    Fenced Quotes (linesOf (block b node)) (visiblePres node)
  | .text _, _, _ => Fenced.none
  | .other, _, _ => Fenced.none
  | .element tagName a children, hplaced, hlisted => by
    rw [placed] at hplaced
    rw [listedPres] at hlisted
    rw [visiblePres]
    cases hallowed : allowedElement tagName a
    · exact Fenced.none
    rw [hallowed, if_pos rfl] at hlisted
    rw [if_pos rfl]
    by_cases hpre : tagName = "PRE"
    · rw [if_pos hpre]
      subst hpre
      rw [block_pre b a children hallowed]
      exact fencedCode_fenced _
    rw [if_neg hpre] at hplaced ⊢
    cases hcontainer : isContainer tagName
    · rw [hcontainer, if_neg Bool.false_ne_true] at hplaced
      by_cases hlist : tagName = "UL" ∨ tagName = "OL"
      · rw [if_pos hlist] at hlisted
        rw [hlisted]
        exact Fenced.none
      · rw [if_neg hlist, Bool.not_eq_true'] at hplaced
        rw [visiblePresAll_nil hplaced]
        exact Fenced.none
    · rw [hcontainer, if_pos rfl] at hplaced
      have hgrouped := container_grouped hcontainer
      rw [if_neg (grouped_tags hgrouped).2] at hlisted
      exact grouped_fenced b hgrouped hallowed (sections_fenced children [] hplaced hlisted)

/-- By induction on the children: what was gathered inline is printed before the next section. -/
theorem sections_fenced : ∀ (children : List Node) (current : Text), placedAll children = true →
    listedPresAll children = [] →
      Fenced Quotes (linesOf (joined (sections b current children))) (visiblePresAll children)
  | [], _, _, _ => Fenced.none
  | child :: rest, current, hplaced, hlisted => by
    rw [placedAll, Bool.and_eq_true] at hplaced
    rw [listedPresAll, List.append_eq_nil_iff] at hlisted
    rw [sections, visiblePresAll]
    cases hallowed : allowedNode child
    · rw [visiblePres_hidden hallowed]
      exact sections_fenced rest current hplaced.2 hlisted.2
    cases hblock : isBlock child
    · rw [inline_no_pre hplaced.1 hblock]
      exact sections_fenced rest _ hplaced.2 hlisted.2
    · show Fenced Quotes (linesOf (joined (flush current ++ solid (block b child) ++
        sections b [] rest))) _
      rw [List.append_assoc]
      exact fenced_prose (fenced_solid (block_fenced child hplaced.1 hlisted.1)
        (sections_fenced rest [] hplaced.2 hlisted.2))

end

theorem root_fenced (root : Node) (hplaced : placedRoot root = true)
    (hlisted : listedPres root = []) :
    Fenced Quotes (linesOf (block b root)) (visiblePres root) := by
  cases root with
  | text _ => exact Fenced.none
  | other => exact Fenced.none
  | element tagName a children =>
    have hroot : (if isGrouped tagName = true then placedAll children
        else placed (.element tagName a children)) = true := hplaced
    cases hgrouped : isGrouped tagName
    · rw [hgrouped, if_neg Bool.false_ne_true] at hroot
      exact block_fenced b _ hroot hlisted
    · rw [hgrouped, if_pos rfl] at hroot
      obtain ⟨hpre, hlist⟩ := grouped_tags hgrouped
      rw [listedPres, if_neg hlist] at hlisted
      rw [visiblePres, if_neg hpre]
      cases hallowed : allowedElement tagName a
      · exact Fenced.none
      · rw [hallowed, if_pos rfl] at hlisted
        exact grouped_fenced b hgrouped hallowed (sections_fenced b children [] hroot hlisted)

/-- Code elements that stand in containers and quotes, and not in lists, are all found in the
Markdown as fenced blocks. -/
theorem code_kept (b : Browser) (root : Node) (hplaced : placedRoot root = true)
    (hlisted : listedPres root = []) : CodeKept b root :=
  fenced_mono (fun _ => quotes_marks) (fenced_trim (root_fenced b root hplaced hlisted))

end Printing

section Examples

def countingBrowser : Browser where
  address := fun _ => none
  ordinal := fun _ index => (toString (index + 1)).toList

def shownCode (code : String) : Node := .element "PRE" {} [.element "CODE" {} [.text code.toList]]

def listedCode : Node :=
  .element "DIV" {} [.element "UL" {} [.element "LI" {} [shownCode "a\n\nb"]]]

def quotedCode : Node :=
  .element "DIV" {} [.element "BLOCKQUOTE" {} [shownCode "a\n\nb"], shownCode "c"]

/-- A block takes a line for each line of its code and two for its fences. -/
theorem fenced_length {lead : Text → Prop} {lines : List Text} {pres : List Node}
    (h : Fenced lead lines pres) : ∀ pre ∈ pres, (codeLines pre).length + 2 ≤ lines.length := by
  induction h with
  | none => exact fun pre hpre => absurd hpre List.not_mem_nil
  | skip _ ih =>
    intro pre hpre
    have hrest := ih pre hpre
    rw [List.length_cons]
    omega
  | block _ _ _ _ hshown _ ih =>
    intro pre hpre
    rw [List.length_cons, List.length_append, List.length_cons, ← hshown.length_eq]
    rcases List.mem_cons.mp hpre with rfl | hpre
    · omega
    · have hrest := ih pre hpre
      omega

/-- The item of a list removes the empty line of the code. -/
theorem listed_code_lost :
    ¬∀ (b : Browser) (root : Node), placedRoot root = true → CodeKept b root := by
  intro h
  have hkept := h countingBrowser listedCode (by decide)
  have hone : visiblePres listedCode = [shownCode "a\n\nb"] := rfl
  have hlength := fenced_length hkept (shownCode "a\n\nb")
    (by rw [hone]; exact List.mem_singleton_self _)
  exact absurd hlength (by decide +kernel)

theorem code_kept_quoted :
    (placedRoot quotedCode = true ∧ listedPres quotedCode = []) ∧
    CodeKept countingBrowser quotedCode :=
  ⟨⟨by decide, by decide⟩, code_kept countingBrowser quotedCode (by decide) (by decide)⟩

end Examples

end Prompta.CodeFences
