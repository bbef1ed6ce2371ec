import Mathlib.Data.List.Sort
import Mathlib.Order.Basic
import Mathlib.Tactic.Common

/-!
# Lib.Cursor — reading an ordered log through a cursor

A log is a list in strictly ascending order of a key, and a cursor is a key: the reader has seen
everything up to it. `after lo l` is what lies beyond a cursor, `window lo hi l` what lies beyond
`lo` and not beyond `hi`, `before hi l` what a reader who goes backward has still to see.

* A log is determined by its members (`Ascending.ext`), so two ways to compute it agree as soon as
  they find the same rows.
* Adjacent windows concatenate (`window_append`), which is why moving the cursor to the last key of
  a page neither repeats nor skips a row.
* The first rows beyond a cursor are the window up to the last of them (`page_eq_window`), so a page
  that is cut anywhere is still a window.
* A log that grows only beyond `hi` keeps its windows up to `hi` (`window_append_above`,
  `window_of_prefix`), which is what lets pages be read at different times.

The keys are any linear order, the rows any type.
-/

set_option autoImplicit false

namespace QuietStorage.Lib.Cursor

universe u v
variable {α : Type u} {κ : Type v} [LinearOrder κ] (key : α → κ)

/-- A list in strictly ascending order of the key. -/
def Ascending (l : List α) : Prop := l.Pairwise fun a b => key a < key b

/-- The rows beyond a cursor. -/
def after (lo : κ) (l : List α) : List α := l.filter fun a => decide (lo < key a)

/-- The rows before a cursor. -/
def before (hi : κ) (l : List α) : List α := l.filter fun a => decide (key a < hi)

/-- The rows beyond `lo` and not beyond `hi`. -/
def window (lo hi : κ) (l : List α) : List α := l.filter fun a => decide (lo < key a ∧ key a ≤ hi)

variable {key}

@[simp] theorem mem_after {lo : κ} {l : List α} {a : α} :
    a ∈ after key lo l ↔ a ∈ l ∧ lo < key a := by
  simp only [after, List.mem_filter, decide_eq_true_eq]

@[simp] theorem mem_window {lo hi : κ} {l : List α} {a : α} :
    a ∈ window key lo hi l ↔ a ∈ l ∧ lo < key a ∧ key a ≤ hi := by
  simp only [window, List.mem_filter, decide_eq_true_eq]

@[simp] theorem mem_before {hi : κ} {l : List α} {a : α} :
    a ∈ before key hi l ↔ a ∈ l ∧ key a < hi := by
  simp only [before, List.mem_filter, decide_eq_true_eq]

theorem Ascending.sublist {l l' : List α} (h : Ascending key l) (sub : l'.Sublist l) :
    Ascending key l' :=
  List.Pairwise.sublist sub h

theorem Ascending.after {l : List α} (h : Ascending key l) (lo : κ) :
    Ascending key (after key lo l) :=
  h.sublist List.filter_sublist

theorem Ascending.before {l : List α} (h : Ascending key l) (hi : κ) :
    Ascending key (before key hi l) :=
  h.sublist List.filter_sublist

theorem before_before {lo hi : κ} (le : lo ≤ hi) (l : List α) :
    before key lo (before key hi l) = before key lo l := by
  rw [before, before, before, List.filter_filter]
  refine List.filter_congr fun a _ => ?_
  rw [Bool.and_eq_left_iff_imp, decide_eq_true_eq, decide_eq_true_eq]
  exact fun lt => lt_of_lt_of_le lt le

/-- Going on before a row leaves fewer rows. -/
theorem length_before_lt {hi : κ} {l : List α} {a : α} (mem : a ∈ before key hi l) :
    (before key (key a) l).length < (before key hi l).length := by
  rw [← before_before (le_of_lt (mem_before.mp mem).2)]
  refine List.length_filter_lt_length_iff_exists.mpr ⟨a, mem, ?_⟩
  simp

/-- A log stays one under a key in the same order. -/
theorem Ascending.comp {κ' : Type*} [LinearOrder κ'] {f : κ → κ'} (mono : StrictMono f) {l : List α}
    (h : Ascending key l) : Ascending (fun a => f (key a)) l :=
  List.Pairwise.imp (fun lt => mono lt) h

theorem Ascending.window {l : List α} (h : Ascending key l) (lo hi : κ) :
    Ascending key (window key lo hi l) :=
  h.sublist List.filter_sublist

theorem ascending_append {l l' : List α} :
    Ascending key (l ++ l') ↔
      Ascending key l ∧ Ascending key l' ∧ ∀ a ∈ l, ∀ b ∈ l', key a < key b :=
  List.pairwise_append

/-- A log has no row twice. -/
theorem Ascending.nodup {l : List α} (h : Ascending key l) : l.Nodup :=
  List.Pairwise.imp (fun lt eq => absurd (congrArg key eq) (ne_of_lt lt)) h

/-- The last row of a log has the greatest key. -/
theorem Ascending.le_last {l : List α} (h : Ascending key l) {last : α}
    (isLast : l.getLast? = some last) : ∀ a ∈ l, key a ≤ key last := by
  obtain ⟨front, rfl⟩ := List.getLast?_eq_some_iff.mp isLast
  intro a mem
  rcases List.mem_append.mp mem with before | here
  · exact le_of_lt ((ascending_append.mp h).2.2 a before last (List.mem_singleton_self last))
  · rw [List.mem_singleton.mp here]

/-- Two logs with the same rows are the same list. -/
theorem Ascending.ext {l l' : List α} (h : Ascending key l) (h' : Ascending key l')
    (same : ∀ a, a ∈ l ↔ a ∈ l') : l = l' := by
  have perm : l.Perm l' := (List.perm_ext_iff_of_nodup h.nodup h'.nodup).mpr same
  have antisymm : ∀ a b, a ∈ l → b ∈ l' → key a < key b → key b < key a → a = b :=
    fun a b _ _ ab ba => absurd (lt_trans ab ba) (lt_irrefl _)
  exact List.Perm.eq_of_pairwise antisymm h h' perm

/-- Adjacent windows concatenate. -/
theorem window_append {l : List α} (h : Ascending key l) {lo mid hi : κ} (lm : lo ≤ mid)
    (mh : mid ≤ hi) : window key lo mid l ++ window key mid hi l = window key lo hi l := by
  refine Ascending.ext ?_ (h.window lo hi) fun a => ?_
  · refine ascending_append.mpr ⟨h.window lo mid, h.window mid hi, fun a ha b hb => ?_⟩
    exact lt_of_le_of_lt (mem_window.mp ha).2.2 (mem_window.mp hb).2.1
  · rw [List.mem_append, mem_window, mem_window, mem_window]
    constructor
    · rintro (⟨mem, low, high⟩ | ⟨mem, low, high⟩)
      · exact ⟨mem, low, le_trans high mh⟩
      · exact ⟨mem, lt_of_le_of_lt lm low, high⟩
    · rintro ⟨mem, low, high⟩
      rcases le_or_gt (key a) mid with below | above
      · exact .inl ⟨mem, low, below⟩
      · exact .inr ⟨mem, above, high⟩

@[simp] theorem window_self (lo : κ) (l : List α) : window key lo lo l = [] := by
  refine List.filter_eq_nil_iff.mpr fun a _ => ?_
  simp only [decide_eq_true_eq, not_and, not_le]
  exact id

/-- **A page is a window**: when the rows beyond a cursor start with `page` and `last` is the
page's last row, the page is the window up to it and the rest lies beyond it. -/
theorem page_eq_window {l page rest : List α} (h : Ascending key l) {lo : κ} {last : α}
    (split : after key lo l = page ++ rest) (ends : page.getLast? = some last) :
    page = window key lo (key last) l ∧ rest = after key (key last) l ∧ lo < key last := by
  have whole : Ascending key (page ++ rest) := split ▸ h.after lo
  obtain ⟨pageAsc, restAsc, across⟩ := ascending_append.mp whole
  have lastMem : last ∈ page := List.mem_of_getLast? ends
  have beyond : lo < key last :=
    (mem_after.mp (split ▸ List.mem_append_left rest lastMem)).2
  obtain ⟨front, rfl⟩ := List.getLast?_eq_some_iff.mp ends
  have upTo : ∀ a ∈ front ++ [last], key a ≤ key last := pageAsc.le_last ends
  have mem : ∀ a, (a ∈ front ++ [last] ∨ a ∈ rest) ↔ a ∈ l ∧ lo < key a := fun a => by
    rw [← List.mem_append, ← split, mem_after]
  refine ⟨?_, ?_, beyond⟩
  · refine Ascending.ext pageAsc (h.window lo _) fun a => ?_
    rw [mem_window]
    constructor
    · intro ha
      exact ⟨((mem a).mp (.inl ha)).1, ((mem a).mp (.inl ha)).2, upTo a ha⟩
    · rintro ⟨inLog, low, high⟩
      rcases (mem a).mpr ⟨inLog, low⟩ with ha | ha
      · exact ha
      · exact absurd (across last lastMem a ha) (not_lt.mpr high)
  · refine Ascending.ext restAsc (h.after _) fun a => ?_
    rw [mem_after]
    constructor
    · intro ha
      exact ⟨((mem a).mp (.inr ha)).1, across last lastMem a ha⟩
    · rintro ⟨inLog, high⟩
      rcases (mem a).mpr ⟨inLog, lt_trans beyond high⟩ with ha | ha
      · exact absurd high (not_lt.mpr (upTo a ha))
      · exact ha

/-- A log that grows beyond `hi` keeps its windows up to `hi`. -/
theorem window_append_above {l grown : List α} {lo hi : κ} (above : ∀ a ∈ grown, hi < key a) :
    window key lo hi (l ++ grown) = window key lo hi l := by
  have none_ : window key lo hi grown = [] := by
    refine List.filter_eq_nil_iff.mpr fun a ha => ?_
    simp only [decide_eq_true_eq, not_and, not_le]
    exact fun _ => above a ha
  rw [window, List.filter_append, ← window, ← window, none_, List.append_nil]

/-- A log that grows at its end keeps the windows that end at one of its rows. -/
theorem window_of_prefix {l l' : List α} (isPrefix : l <+: l') (ascending : Ascending key l')
    {lo hi : κ} (reached : hi = lo ∨ ∃ a ∈ l, key a = hi) :
    window key lo hi l' = window key lo hi l := by
  obtain ⟨grown, rfl⟩ := isPrefix
  rcases reached with rfl | ⟨a, mem, rfl⟩
  · rw [window_self, window_self]
  · exact window_append_above fun b isGrown => (ascending_append.mp ascending).2.2 a mem b isGrown

/-- Sorting rows with distinct keys by their key makes a log of them. -/
theorem ascending_insertionSort {l : List α} (distinct : (l.map key).Nodup) :
    Ascending key (l.insertionSort fun a b => key a ≤ key b) := by
  have : Std.Total fun a b : α => key a ≤ key b := ⟨fun a b => le_total (key a) (key b)⟩
  have : IsTrans α fun a b : α => key a ≤ key b := ⟨fun _ _ _ => le_trans⟩
  have sorted := List.pairwise_insertionSort (fun a b : α => key a ≤ key b) l
  have perm := List.perm_insertionSort (fun a b : α => key a ≤ key b) l
  have apart : (l.insertionSort fun a b => key a ≤ key b).Pairwise fun a b => key a ≠ key b :=
    List.pairwise_map.mp ((perm.map key).nodup_iff.mpr distinct)
  exact (sorted.and apart).imp fun ⟨le, ne⟩ => lt_of_le_of_ne le ne

/-- Sorting after a row beyond all others puts it last. -/
theorem insertionSort_append_above {l : List α} {a : α} (distinct : ((l ++ [a]).map key).Nodup)
    (above : ∀ b ∈ l, key b < key a) :
    (l ++ [a]).insertionSort (fun a b => key a ≤ key b) =
      l.insertionSort (fun a b => key a ≤ key b) ++ [a] := by
  have before : (l.map key).Nodup := distinct.sublist ((List.sublist_append_left l [a]).map key)
  have perm := List.perm_insertionSort (fun a b : α => key a ≤ key b) l
  refine Ascending.ext (ascending_insertionSort distinct) ?_ fun b => ?_
  · refine ascending_append.mpr ⟨ascending_insertionSort before, List.pairwise_singleton _ a, ?_⟩
    intro b hb c hc
    rw [List.mem_singleton.mp hc]
    exact above b (perm.mem_iff.mp hb)
  · rw [(List.perm_insertionSort _ _).mem_iff, List.mem_append, List.mem_append, perm.mem_iff]

end QuietStorage.Lib.Cursor
