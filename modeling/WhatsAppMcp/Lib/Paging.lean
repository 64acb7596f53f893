import WhatsAppMcp.Lib.Trace
import Mathlib.Data.List.Sort

/-!
# Paging by a rank

Rows are read page by page: a page holds the first rows in the order of a rank,
and the next one starts above the rank of its last row.  Rows of one rank may
come in any order.

* `reads_step`: what a page and the rows after it leave out.
* `run_lossless`: a run of pages leaves nothing out as long as no page ends
  between two rows of one rank.
* `readsAll_iff`: every sequence of pages is complete exactly when no page ends
  so.
-/

namespace Paging

open Trace

universe u v

variable {α : Type u} {τ : Type v} [LinearOrder τ]

/-! ## Pages -/

/-- The rows are in the order of their rank. -/
abbrev Sorted (rank : α → τ) (rows : List α) : Prop := rows.Pairwise fun a b => rank a ≤ rank b

/-- The rows in the order of their rank. -/
def sort (rank : α → τ) (rows : List α) : List α := rows.insertionSort fun a b => rank a ≤ rank b

/-- The first rows by rank. -/
def Page (rank : α → τ) (limit : Nat) (rows page : List α) : Prop :=
  ∃ sorted : List α, sorted.Perm rows ∧ Sorted rank sorted ∧ page = sorted.take limit

/-- The rows above the rank of the last row of a page. -/
def after (rank : α → τ) (rows page : List α) : List α :=
  match page.getLast? with
  | none => rows
  | some last => rows.filter fun a => rank last < rank a

/-- One page is read, and the rows after it are left. -/
def Reads (rank : α → τ) (limit : Nat) (rows page rest : List α) : Prop :=
  Page rank limit rows page ∧ rest = after rank rows page

/-- Every long enough sequence of pages holds every row once, and the pages after
it are empty. -/
def ReadsAll (rank : α → τ) (limit : Nat) (rows : List α) : Prop :=
  ∃ n, ∀ pages rest, Exec (Reads rank limit) rows pages rest →
    (n ≤ pages.length → pages.flatten.Perm rows) ∧ ∀ page ∈ pages.drop n, page = []

/-- The first page of sorted rows does not end between two rows of one rank. -/
def Clean (rank : α → τ) (limit : Nat) (sorted : List α) : Prop :=
  ∀ last ∈ (sorted.take limit).getLast?, ∀ next ∈ (sorted.drop limit).head?, rank last < rank next

/-- No page ends between two rows of one rank. -/
def Aligned (rank : α → τ) (limit : Nat) (rows : List α) : Prop :=
  ∀ k, Clean rank limit ((sort rank rows).drop (k * limit))

/-! ## One page -/

variable {rank : α → τ} {limit : Nat} {rows page rest sorted : List α}

theorem sort_perm (rank : α → τ) (rows : List α) : (sort rank rows).Perm rows :=
  List.perm_insertionSort ..

theorem sort_sorted (rank : α → τ) (rows : List α) : Sorted rank (sort rank rows) := by
  have htotal : Std.Total (α := α) fun a b => rank a ≤ rank b := ⟨fun a b => le_total _ _⟩
  have htrans : IsTrans α fun a b => rank a ≤ rank b := ⟨fun _ _ _ => le_trans⟩
  exact List.pairwise_insertionSort ..

theorem Page.subset (h : Page rank limit rows page) : page ⊆ rows := by
  obtain ⟨sorted, hperm, -, rfl⟩ := h
  exact fun a ha => hperm.subset (List.mem_of_mem_take ha)

theorem Page.length_eq (h : Page rank limit rows page) : page.length = min limit rows.length := by
  obtain ⟨sorted, hperm, -, rfl⟩ := h
  rw [List.length_take, hperm.length_eq]

/-- Different keys stay different. -/
theorem Page.keys_nodup {κ : Type*} {key : α → κ} (h : Page rank limit rows page)
    (hrows : (rows.map key).Nodup) : (page.map key).Nodup := by
  obtain ⟨sorted, hperm, -, rfl⟩ := h
  exact ((hperm.map key).nodup_iff.mpr hrows).sublist ((List.take_sublist ..).map key)

/-- Two sorted lists of the same rows have the same ranks in the same places. -/
theorem ranks_eq {other : List α} (h : Sorted rank sorted) (hother : Sorted rank other)
    (hperm : sorted.Perm other) : sorted.map rank = other.map rank :=
  List.Perm.eq_of_pairwise' (List.pairwise_map.mpr h) (List.pairwise_map.mpr hother)
    (hperm.map rank)

/-- The rank of the last row of the first page. -/
def edge (rank : α → τ) (limit : Nat) (sorted : List α) : Option τ :=
  ((sorted.take limit).map rank).getLast?

theorem edge_eq {other : List α} (h : Sorted rank sorted) (hother : Sorted rank other)
    (hperm : sorted.Perm other) : edge rank limit sorted = edge rank limit other := by
  unfold edge
  rw [List.map_take, List.map_take, ranks_eq h hother hperm]

section Edge

variable {r : τ} (hsorted : Sorted rank sorted) (hedge : edge rank limit sorted = some r)

include hsorted hedge

/-- No row of the first page is above its edge. -/
theorem le_edge {a : α} (ha : a ∈ sorted.take limit) : rank a ≤ r := by
  have htake : ((sorted.take limit).map rank).Pairwise (· ≤ ·) :=
    List.pairwise_map.mpr (hsorted.sublist (List.take_sublist ..))
  obtain ⟨init, hinit⟩ := List.getLast?_eq_some_iff.mp hedge
  have hmem : rank a ∈ init ++ [r] := hinit ▸ List.mem_map_of_mem ha
  rw [hinit] at htake
  rcases List.mem_append.mp hmem with hfirst | hlast
  · exact (List.pairwise_append.mp htake).2.2 _ hfirst r (List.mem_singleton_self r)
  · exact (List.mem_singleton.mp hlast).le

/-- The rows above the edge are past the first page. -/
theorem filter_edge : sorted.filter (fun a => r < rank a) =
    (sorted.drop limit).filter fun a => r < rank a := by
  have hnone : (sorted.take limit).filter (fun a => r < rank a) = [] := by
    refine List.filter_eq_nil_iff.mpr fun a ha => ?_
    simpa using le_edge hsorted hedge ha
  conv_lhs => rw [← List.take_append_drop limit sorted, List.filter_append, hnone, List.nil_append]

theorem clean_iff : Clean rank limit sorted ↔ ∀ a ∈ sorted.drop limit, r < rank a := by
  have hlast : ∃ last, (sorted.take limit).getLast? = some last ∧ rank last = r := by
    rw [edge, List.getLast?_map] at hedge
    exact Option.map_eq_some_iff.mp hedge
  obtain ⟨last, hlast, rfl⟩ := hlast
  constructor
  · intro hclean a ha
    cases hdrop : sorted.drop limit with
    | nil =>
      rw [hdrop] at ha
      cases ha
    | cons next others =>
      have hnext := hclean last hlast next (by rw [hdrop]; rfl)
      have hpast : Sorted rank (next :: others) := hdrop ▸ hsorted.sublist (List.drop_sublist ..)
      rw [hdrop] at ha
      rcases List.mem_cons.mp ha with rfl | hother
      · exact hnext
      · exact hnext.trans_le ((List.pairwise_cons.mp hpast).1 a hother)
  · intro h last' hlast' next hnext
    rw [hlast] at hlast'
    obtain rfl := Option.some.inj hlast'
    exact h next (List.mem_of_mem_head? hnext)

end Edge

/-- The rows after a page, by the edge. -/
theorem after_perm {r : τ} (hsorted : Sorted rank sorted) (hperm : rows.Perm sorted)
    (hpage : Page rank limit rows page) (hedge : edge rank limit sorted = some r) :
    (after rank rows page).Perm ((sorted.drop limit).filter fun a => r < rank a) := by
  obtain ⟨other, hother, hotherSorted, rfl⟩ := hpage
  have hsame : edge rank limit other = some r :=
    (edge_eq hotherSorted hsorted (hother.trans hperm)).trans hedge
  rw [edge, List.getLast?_map] at hsame
  obtain ⟨last, hlast, rfl⟩ := Option.map_eq_some_iff.mp hsame
  rw [← filter_edge hsorted hedge, after, hlast]
  exact hperm.filter _

/-- One page and the rows after it. -/
theorem reads_step (hlimit : 0 < limit) (hsorted : Sorted rank sorted) (hperm : rows.Perm sorted)
    (h : Reads rank limit rows page rest) :
    page.length = (sorted.take limit).length ∧ rest.length ≤ (sorted.drop limit).length ∧
      (rest.length = (sorted.drop limit).length ↔ Clean rank limit sorted) ∧
      (Clean rank limit sorted → rest.Perm (sorted.drop limit) ∧ (page ++ rest).Perm rows) := by
  obtain ⟨hpage, rfl⟩ := h
  obtain ⟨other, hother, hotherSorted, rfl⟩ := hpage
  have hpage : Page rank limit rows (other.take limit) := ⟨other, hother, hotherSorted, rfl⟩
  have hlength : (other.take limit).length = (sorted.take limit).length := by
    rw [List.length_take, List.length_take, (hother.trans hperm).length_eq]
  refine ⟨hlength, ?_⟩
  cases hedge : edge rank limit sorted with
  | none =>
    have hempty : sorted = [] := by
      rw [edge, List.getLast?_eq_none_iff, List.map_eq_nil_iff, List.take_eq_nil_iff] at hedge
      rcases hedge with hzero | hnil
      · omega
      · exact hnil
    subst hempty
    obtain rfl := hperm.eq_nil
    obtain rfl := hother.eq_nil
    simp [after, Clean]
  | some r =>
    have hafter := after_perm hsorted hperm hpage hedge
    rw [hafter.length_eq, List.length_filter_eq_length_iff, clean_iff hsorted hedge]
    refine ⟨List.length_filter_le .., by simp, fun habove => ?_⟩
    have hdrop : ∀ {list : List α}, (∀ a ∈ list, r < rank a) →
        list.filter (fun a => r < rank a) = list := fun hlist =>
      List.filter_eq_self.mpr fun a ha => decide_eq_true (hlist a ha)
    refine ⟨hdrop habove ▸ hafter, ?_⟩
    -- the page and the rows after it, in the order of the page
    have hsame : edge rank limit other = some r :=
      (edge_eq hotherSorted hsorted (hother.trans hperm)).trans hedge
    have hranks : (other.drop limit).map rank = (sorted.drop limit).map rank := by
      rw [List.map_drop, List.map_drop, ranks_eq hotherSorted hsorted (hother.trans hperm)]
    have hother' : ∀ a ∈ other.drop limit, r < rank a := by
      intro a ha
      have hmem : rank a ∈ (sorted.drop limit).map rank := hranks ▸ List.mem_map_of_mem ha
      obtain ⟨b, hb, hrank⟩ := List.mem_map.mp hmem
      exact hrank ▸ habove b hb
    have hrest := after_perm hotherSorted hother.symm hpage hsame
    rw [hdrop hother'] at hrest
    have hall := hrest.append_left (other.take limit)
    rw [List.take_append_drop] at hall
    exact hall.trans hother

/-! ## Runs -/

/-- A run of pages returns no more than there is, and all of it as long as none of
its pages ends between two rows of one rank. -/
theorem run_lossless (hlimit : 0 < limit) {pages : List (List α)}
    (run : Exec (Reads rank limit) rows pages rest) :
    pages.flatten.length + rest.length ≤ rows.length ∧
      (pages.flatten.length + rest.length = rows.length ↔
        ∀ k < pages.length, Clean rank limit ((sort rank rows).drop (k * limit))) ∧
      ((∀ k < pages.length, Clean rank limit ((sort rank rows).drop (k * limit))) →
        rest.Perm ((sort rank rows).drop (pages.length * limit)) ∧
          (pages.flatten ++ rest).Perm rows) := by
  induction run with
  | nil => simpa using (sort_perm rank rows).symm
  | @snoc pages rest rest' page run last ih =>
    obtain ⟨hle, hiff, hperm⟩ := ih
    have hcount : (pages ++ [page]).flatten.length = pages.flatten.length + page.length := by simp
    -- the next page of the sorted rows, where nothing was left out so far
    have hnext : (∀ k < pages.length, Clean rank limit ((sort rank rows).drop (k * limit))) →
        (page.length + rest'.length = rest.length ↔
          Clean rank limit ((sort rank rows).drop (pages.length * limit))) ∧
        (Clean rank limit ((sort rank rows).drop (pages.length * limit)) →
          rest'.Perm ((sort rank rows).drop ((pages.length + 1) * limit)) ∧
            (page ++ rest').Perm rest) := by
      intro hclean
      obtain ⟨hrest, -⟩ := hperm hclean
      have hsorted : Sorted rank ((sort rank rows).drop (pages.length * limit)) :=
        (sort_sorted rank rows).sublist (List.drop_sublist ..)
      obtain ⟨hpage, -, hwhole, hparts⟩ := reads_step hlimit hsorted hrest last
      rw [List.drop_drop] at hwhole hparts
      rw [Nat.succ_mul]
      refine ⟨?_, hparts⟩
      rw [← hwhole, hpage, hrest.length_eq]
      simp only [List.length_take, List.length_drop]
      omega
    have hless : page.length + rest'.length ≤ rest.length := by
      obtain ⟨hpage, hrest, -⟩ :=
        reads_step hlimit (sort_sorted rank rest) (sort_perm rank rest).symm last
      have hsame := (sort_perm rank rest).length_eq
      simp only [List.length_take, List.length_drop] at hpage hrest
      omega
    rw [List.length_append, List.length_singleton, Nat.forall_lt_succ_right, hcount]
    refine ⟨by omega, ⟨fun hall => ?_, fun hclean => ?_⟩, fun hclean => ?_⟩
    · have hfirst := hiff.mp (by omega)
      exact ⟨hfirst, (hnext hfirst).1.mp (by omega)⟩
    · have hbefore := hiff.mpr hclean.1
      have hpage := (hnext hclean.1).1.mpr hclean.2
      omega
    · obtain ⟨hrest, hpage⟩ := (hnext hclean.1).2 hclean.2
      refine ⟨hrest, ?_⟩
      rw [List.flatten_append, List.flatten_singleton, List.append_assoc]
      exact (hpage.append_left _).trans (hperm hclean.1).2

/-- There is always a next page. -/
theorem exists_run (rank : α → τ) (limit : Nat) (rows : List α) (n : Nat) :
    ∃ pages rest, Exec (Reads rank limit) rows pages rest ∧ pages.length = n := by
  induction n with
  | zero => exact ⟨[], rows, .nil, rfl⟩
  | succ n ih =>
    obtain ⟨pages, rest, run, hlength⟩ := ih
    have hpage : Page rank limit rest ((sort rank rest).take limit) :=
      ⟨_, sort_perm rank rest, sort_sorted rank rest, rfl⟩
    exact ⟨_, _, run.snoc ⟨hpage, rfl⟩, by simp [hlength]⟩

/-- After as many pages as there are rows nothing is left. -/
theorem drop_rows (hlimit : 0 < limit) {k : Nat} (hk : rows.length ≤ k) :
    (sort rank rows).drop (k * limit) = [] := by
  refine List.drop_eq_nil_of_le ?_
  rw [(sort_perm rank rows).length_eq]
  exact hk.trans (Nat.le_mul_of_pos_right k hlimit)

/-- The pages are complete exactly when none ends between two rows of one rank. -/
theorem readsAll_iff (hlimit : 0 < limit) : ReadsAll rank limit rows ↔ Aligned rank limit rows := by
  constructor
  · intro h k
    obtain ⟨n, hall⟩ := h
    obtain ⟨pages, rest, run, hlength⟩ := exists_run rank limit rows (max n rows.length)
    obtain ⟨hle, hiff, -⟩ := run_lossless hlimit run
    have hreturned := ((hall pages rest run).1 (by omega)).length_eq
    by_cases hk : k < pages.length
    · exact hiff.mp (by omega) k hk
    · rw [drop_rows hlimit (by omega)]
      simp [Clean]
  · intro haligned
    refine ⟨rows.length, fun pages rest run => ⟨fun hlong => ?_, fun page hpage => ?_⟩⟩
    · obtain ⟨-, -, hperm⟩ := run_lossless hlimit run
      obtain ⟨hrest, hall⟩ := hperm fun k _ => haligned k
      rw [drop_rows hlimit hlong] at hrest
      rw [hrest.eq_nil, List.append_nil] at hall
      exact hall
    · -- the page after so many others is one of no rows
      obtain ⟨first, others, hdrop⟩ := List.append_of_mem hpage
      have hpages : pages = (pages.take rows.length ++ first) ++ page :: others := by
        rw [List.append_assoc, ← hdrop, List.take_append_drop]
      have hlong : rows.length ≤ (pages.take rows.length ++ first).length := by
        have hsome : (pages.drop rows.length).length ≠ 0 := by simp [hdrop]
        simp only [List.length_drop] at hsome
        simp only [List.length_append, List.length_take]
        omega
      rw [hpages] at run
      obtain ⟨before, after, hfirst, hreads, -⟩ := run.split_cons
      obtain ⟨hrest, -⟩ := (run_lossless hlimit hfirst).2.2 fun k _ => haligned k
      rw [drop_rows hlimit hlong] at hrest
      obtain rfl := hrest.eq_nil
      obtain ⟨sorted, hsorted, -, rfl⟩ := hreads.1
      rw [hsorted.eq_nil, List.take_nil]

/-- Rows of different ranks are aligned. -/
theorem aligned_of_nodup (h : (rows.map rank).Nodup) : Aligned rank limit rows := by
  intro k last hlast next hnext
  have hsorted : Sorted rank ((sort rank rows).drop (k * limit)) :=
    (sort_sorted rank rows).sublist (List.drop_sublist ..)
  have hnodup : (((sort rank rows).drop (k * limit)).map rank).Nodup :=
    (((sort_perm rank rows).map rank).nodup_iff.mpr h).sublist ((List.drop_sublist ..).map rank)
  rw [← List.take_append_drop limit ((sort rank rows).drop (k * limit))] at hsorted hnodup
  have hlast' := List.mem_of_getLast? hlast
  have hnext' := List.mem_of_mem_head? hnext
  have hle := (List.pairwise_append.mp hsorted).2.2 last hlast' next hnext'
  rw [List.map_append] at hnodup
  exact hle.lt_of_ne ((List.nodup_append.mp hnodup).2.2 _ (List.mem_map_of_mem hlast') _
    (List.mem_map_of_mem hnext'))

end Paging
