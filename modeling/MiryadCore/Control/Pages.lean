import Mathlib.Data.List.Sort
import Mathlib.Order.Basic

/-!
# Pages behind a cursor

A page holds the first rows, in the order of a key, whose key is greater than
the cursor; the next cursor is the key of the last row.  Rows of one key come
in any order, and those of them that are not on the page are not on a later one
either: the pages hold all rows exactly when no page ends between two rows of
one key.
-/

namespace MiryadCore.Pages

variable {ρ κ : Type} [LinearOrder κ]

section Definitions

variable (key : ρ → κ) (limit : ℕ) (rows : List ρ)

/-- The row comes after the cursor. -/
def past : Option κ → ρ → Bool
  | none, _ => true
  | some cursor, row => decide (cursor < key row)

/-- The rows after the cursor. -/
def left (cursor : Option κ) : List ρ :=
  rows.filter (past key cursor)

/-- The first rows after the cursor, in some order of their keys. -/
def IsPage (cursor : Option κ) (page : List ρ) : Prop :=
  ∃ order : List ρ, order.Perm (left key rows cursor) ∧
    order.Pairwise (fun one other => key one ≤ key other) ∧
    page = order.take limit

/-- The pages up to the first empty one. -/
inductive Paging (pages : ℕ → Option κ → List ρ) :
    ℕ → Option κ → List (List ρ) → Prop where
  | last {count : ℕ} {cursor : Option κ} : pages count cursor = [] →
      Paging pages count cursor []
  | more {count : ℕ} {cursor : Option κ} {row : ρ} {rest : List (List ρ)} :
      (pages count cursor).getLast? = some row →
      Paging pages (count + 1) (some (key row)) rest →
      Paging pages count cursor (pages count cursor :: rest)

/-- The keys of the rows after the cursor, in order. -/
def sortedKeys (cursor : Option κ) : List κ :=
  ((left key rows cursor).map key).mergeSort fun one other => one ≤ other

/-- No multiple of the limit separates two equal keys. -/
def Aligned (limit : ℕ) (keys : List κ) : Prop :=
  ∀ count, 0 < count → limit ∣ count → count < keys.length →
    keys[count - 1]? ≠ keys[count]?

end Definitions

variable {key : ρ → κ} {limit : ℕ} {rows : List ρ} {cursor : Option κ}

omit [LinearOrder κ] in
theorem aligned_of_short {keys : List κ} (short : keys.length ≤ limit) :
    Aligned limit keys := by
  intro count positive multiple inside
  have least := Nat.le_of_dvd positive multiple
  omega

omit [LinearOrder κ] in
/-- The boundaries are the one after the first part, and those of the rest. -/
theorem aligned_append {first rest : List κ} (positive : 0 < limit)
    (full : first.length = limit) (some : rest ≠ []) :
    Aligned limit (first ++ rest) ↔
      (first ++ rest)[limit - 1]? ≠ (first ++ rest)[limit]? ∧
        Aligned limit rest := by
  have lengths : (first ++ rest).length = limit + rest.length := by
    rw [List.length_append, full]
  have more : 0 < rest.length := List.length_pos_iff.mpr some
  constructor
  · intro aligned
    refine ⟨aligned limit positive (Nat.dvd_refl limit) (by omega), ?_⟩
    intro count first' multiple inside
    have shifted := aligned (limit + count) (by omega)
      (Nat.dvd_add (Nat.dvd_refl limit) multiple) (by omega)
    rw [List.getElem?_append_right (by omega),
      List.getElem?_append_right (by omega), full] at shifted
    rw [show limit + count - 1 - limit = count - 1 by omega,
      show limit + count - limit = count by omega] at shifted
    exact shifted
  · rintro ⟨boundary, aligned⟩ count first' multiple inside
    have least := Nat.le_of_dvd first' multiple
    by_cases here : count = limit
    · subst here
      exact boundary
    · have shifted := aligned (count - limit) (by omega)
        (Nat.dvd_sub multiple (Nat.dvd_refl limit)) (by omega)
      rw [List.getElem?_append_right (by omega),
        List.getElem?_append_right (by omega), full,
        show count - 1 - limit = count - limit - 1 by omega]
      exact shifted

theorem sortedKeys_eq {order : List ρ}
    (perm : order.Perm (left key rows cursor))
    (sorted : order.Pairwise fun one other => key one ≤ key other) :
    sortedKeys key rows cursor = order.map key := by
  have same : (sortedKeys key rows cursor).Perm (order.map key) :=
    (List.mergeSort_perm _ _).trans (perm.map key).symm
  apply same.eq_of_pairwise' (List.pairwise_mergeSort' _ _)
  exact List.pairwise_map.mpr sorted

/-- Behind a row that is after the cursor, the cursor no longer counts. -/
theorem left_behind {row : ρ} (after : past key cursor row = true) :
    left key rows (some (key row)) =
      (left key rows cursor).filter (past key (some (key row))) := by
  unfold left
  rw [List.filter_filter]
  apply List.filter_congr
  intro other _
  cases cursor with
  | none => simp [past]
  | some cursor =>
      simp only [past, decide_eq_true_eq] at after
      by_cases behind : key row < key other
      · simp [past, behind, after.trans behind]
      · simp [past, behind]

/-- What a page that ends with a row leaves. -/
structure Turned (key : ρ → κ) (limit : ℕ) (rows : List ρ) (cursor : Option κ)
    (page : List ρ) (row : ρ) (later : List ρ) : Prop where
  all : (page ++ later).Perm (left key rows cursor)
  keys : sortedKeys key rows cursor = (page ++ later).map key
  full : later ≠ [] → page.length = limit
  fits : page.length ≤ limit
  after : past key cursor row = true
  sorted : later.Pairwise fun one other => key one ≤ key other
  least : ∀ other ∈ later, key row ≤ key other
  most : ∀ other ∈ page, key other ≤ key row
  ends : page.getLast? = some row

theorem IsPage.turned {page : List ρ} {row : ρ}
    (isPage : IsPage key limit rows cursor page)
    (ends : page.getLast? = some row) :
    ∃ later, Turned key limit rows cursor page row later := by
  obtain ⟨order, perm, sorted, rfl⟩ := isPage
  have whole : order.take limit ++ order.drop limit = order :=
    List.take_append_drop limit order
  have parts := sorted
  rw [← whole, List.pairwise_append] at parts
  obtain ⟨front, back, across⟩ := parts
  have member : row ∈ order.take limit := List.mem_of_getLast? ends
  refine ⟨order.drop limit, ?_, ?_, ?_, ?_, ?_, back, ?_, ?_, ends⟩
  · rw [whole]
    exact perm
  · rw [whole]
    exact sortedKeys_eq perm sorted
  · intro some
    have more := List.length_pos_iff.mpr some
    rw [List.length_drop] at more
    rw [List.length_take]
    omega
  · rw [List.length_take]
    omega
  · have there := perm.subset (List.mem_of_mem_take member)
    exact (List.mem_filter.mp there).2
  · intro other behind
    exact across row member other behind
  · intro other inside
    obtain ⟨before, shape⟩ := List.getLast?_eq_some_iff.mp ends
    rw [shape] at inside front
    rcases List.mem_append.mp inside with earlier | final
    · exact (List.pairwise_append.mp front).2.2 other earlier row
        List.mem_cons_self
    · rw [List.mem_singleton.mp final]

namespace Turned

variable {page later : List ρ} {row : ρ}

theorem behind (turned : Turned key limit rows cursor page row later) :
    (left key rows (some (key row))).Perm
      (later.filter (past key (some (key row)))) := by
  rw [left_behind turned.after]
  have filtered := turned.all.symm.filter (past key (some (key row)))
  rw [List.filter_append] at filtered
  have none : page.filter (past key (some (key row))) = [] := by
    rw [List.filter_eq_nil_iff]
    intro other inside
    simpa [past] using turned.most other inside
  rw [none, List.nil_append] at filtered
  exact filtered

/-- Fewer rows are left. -/
theorem fewer (turned : Turned key limit rows cursor page row later) :
    (left key rows (some (key row))).length <
      (left key rows cursor).length := by
  have nonempty : 0 < page.length := by
    apply List.length_pos_iff.mpr
    intro none
    have ends := turned.ends
    rw [none] at ends
    cases ends
  have total := turned.all.length_eq
  have rest := turned.behind.length_eq
  have filtered := List.length_filter_le (past key (some (key row))) later
  rw [List.length_append] at total
  omega

/-- The page does not end between two rows of one key. -/
theorem clean (turned : Turned key limit rows cursor page row later)
    (next : ∀ other ∈ later.head?, key row < key other) :
    later.filter (past key (some (key row))) = later := by
  rw [List.filter_eq_self]
  intro other inside
  cases later with
  | nil => cases inside
  | cons head tail =>
      have first := next head rfl
      rcases List.mem_cons.mp inside with rfl | further
      · simpa [past] using first
      · have ordered := (List.pairwise_cons.mp turned.sorted).1 other further
        simpa [past] using first.trans_le ordered

/-- The boundary of the page, among all keys. -/
theorem boundary (turned : Turned key limit rows cursor page row later)
    (positive : 0 < limit) {head : ρ} {tail : List ρ}
    (shape : later = head :: tail) :
    Aligned limit (sortedKeys key rows cursor) ↔
      key row ≠ key head ∧ Aligned limit (later.map key) := by
  have some : later ≠ [] := by simp [shape]
  have full := turned.full some
  have lengths : (page.map key).length = limit := by
    rw [List.length_map, full]
  rw [turned.keys, List.map_append,
    aligned_append positive lengths (by simp [shape])]
  have last : (page.map key ++ later.map key)[limit - 1]? =
      Option.some (key row) := by
    rw [List.getElem?_append_left (by omega), List.getElem?_map]
    have ends := turned.ends
    rw [List.getLast?_eq_getElem?, full] at ends
    rw [ends]
    rfl
  have first : (page.map key ++ later.map key)[limit]? =
      Option.some (key head) := by
    rw [List.getElem?_append_right (by omega), lengths, Nat.sub_self, shape]
    rfl
  rw [last, first]
  simp only [ne_eq, Option.some.injEq]

end Turned

section Paging

variable {pages : ℕ → Option κ → List ρ} {count : ℕ} {batches : List (List ρ)}

/-- There is a first empty page. -/
theorem exists_paging
    (isPage : ∀ count cursor, IsPage key limit rows cursor (pages count cursor))
    (count : ℕ) (cursor : Option κ) :
    ∃ batches, Paging key pages count cursor batches := by
  induction size : (left key rows cursor).length using Nat.strong_induction_on
    generalizing count cursor with
  | _ size induction =>
      subst size
      cases ends : (pages count cursor).getLast? with
      | none => exact ⟨[], .last (List.getLast?_eq_none_iff.mp ends)⟩
      | some row =>
          obtain ⟨later, turned⟩ := (isPage count cursor).turned ends
          obtain ⟨rest, paging⟩ := induction _ turned.fewer (count + 1)
            (some (key row)) rfl
          exact ⟨_, .more ends paging⟩

/-- The pages hold all rows where each ends at another key, and fewer
otherwise. -/
theorem Paging.rows_of
    (isPage : ∀ count cursor, IsPage key limit rows cursor (pages count cursor))
    (positive : 0 < limit) (paging : Paging key pages count cursor batches) :
    (Aligned limit (sortedKeys key rows cursor) →
      batches.flatten.Perm (left key rows cursor)) ∧
    (¬ Aligned limit (sortedKeys key rows cursor) →
      batches.flatten.length < (left key rows cursor).length) := by
  induction paging with
  | @last count cursor empty =>
      obtain ⟨order, perm, _, page⟩ := isPage count cursor
      rw [empty] at page
      have none : order = [] := by
        cases order with
        | nil => rfl
        | cons head tail =>
            obtain ⟨less, rfl⟩ := Nat.exists_eq_succ_of_ne_zero positive.ne'
            cases page
      subst none
      have nothing : left key rows cursor = [] := List.nil_perm.mp perm
      unfold sortedKeys
      rw [nothing]
      exact ⟨fun _ => List.Perm.refl _, fun misaligned =>
        absurd (aligned_of_short (by simp)) misaligned⟩
  | @more count cursor row rest ends paging induction =>
      obtain ⟨later, turned⟩ := (isPage count cursor).turned ends
      have total := turned.all.length_eq
      rw [List.length_append] at total
      have behind := turned.behind
      have bound : rest.flatten.length ≤
          (left key rows (some (key row))).length := by
        by_cases aligned :
            Aligned limit (sortedKeys key rows (some (key row)))
        · exact (induction.1 aligned).length_eq.le
        · exact (induction.2 aligned).le
      simp only [List.flatten_cons, List.length_append]
      cases shape : later with
      | nil =>
          subst shape
          have short : Aligned limit (sortedKeys key rows cursor) := by
            apply aligned_of_short
            rw [turned.keys, List.append_nil, List.length_map]
            exact turned.fits
          have nothing : rest.flatten = [] := by
            apply List.eq_nil_of_length_eq_zero
            have none := behind.length_eq
            simp only [List.filter_nil, List.length_nil] at none
            omega
          rw [nothing, List.append_nil]
          refine ⟨fun _ => ?_, fun misaligned => absurd short misaligned⟩
          have all := turned.all
          rw [List.append_nil] at all
          exact all
      | cons head tail =>
          rw [turned.boundary positive shape]
          by_cases equal : key row = key head
          · refine ⟨fun aligned => absurd equal aligned.1, fun _ => ?_⟩
            have dropped : (later.filter (past key (some (key row)))).length <
                later.length := by
              rw [shape, List.filter_cons_of_neg (by simp [past, equal])]
              exact Nat.lt_succ_of_le (List.length_filter_le _ _)
            have rest' := behind.length_eq
            omega
          · have next : ∀ other ∈ later.head?, key row < key other := by
              intro other first
              rw [shape] at first
              obtain rfl := Option.some.inj first
              have least := turned.least head (shape ▸ List.mem_cons_self)
              exact lt_of_le_of_ne least equal
            rw [turned.clean next] at behind
            have keys : sortedKeys key rows (some (key row)) =
                later.map key :=
              sortedKeys_eq behind.symm turned.sorted
            rw [keys] at induction
            constructor
            · intro aligned
              have complete := (induction.1 aligned.2).trans behind
              exact (complete.append_left _).trans turned.all
            · intro misaligned
              have short := induction.2 fun aligned =>
                misaligned ⟨equal, aligned⟩
              have rest' := behind.length_eq
              omega

end Paging

end MiryadCore.Pages
