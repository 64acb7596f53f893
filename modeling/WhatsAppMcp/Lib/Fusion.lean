import Mathlib.Data.List.Nodup
import Mathlib.Data.List.Sort
import Mathlib.Data.Rat.Defs
import Mathlib.Algebra.Order.Field.Rat
import Mathlib.Tactic.FieldSimp
import Mathlib.Tactic.Linarith
import Mathlib.Tactic.Positivity
import Mathlib.Tactic.Push
import Mathlib.Tactic.NormNum
import Mathlib.Algebra.Order.Group.Abs

/-!
# Reciprocal rank fusion

Two rankings of keys are fused by the sum of the reciprocals of the places.

* `fullOuterJoin` joins two lists on a key.  Where the keys of each list are
  different, every key comes once (`keys_nodup`), with the rows that have it.
* `exact_le_of_rounded`: sums of rounded reciprocals are in the order of the exact
  ones, as long as the places are small.
* `fused_of_join`: the joined rows in the order of the rounded sums are the keys in
  the order of the exact ones.
-/

namespace Fusion

open scoped List

universe u v w

variable {α : Type u} {β : Type v} {κ : Type w} [DecidableEq κ]

/-! ## Full outer join -/

/-- A row of a full outer join. -/
inductive Joined (α : Type u) (β : Type v) where
  | both (a : α) (b : β)
  | left (a : α)
  | right (b : β)

/-- The key of a row, from the side that has one. -/
def Joined.key (kl : α → κ) (kr : β → κ) : Joined α β → κ
  | both a _ | left a => kl a
  | right b => kr b

/-- The rows that `a` is joined to. -/
def partners (kl : α → κ) (kr : β → κ) (r : List β) (a : α) : List (Joined α β) :=
  match r.filter fun b => kr b = kl a with
  | [] => [.left a]
  | bs => bs.map (.both a)

/-- `FULL OUTER JOIN … ON` the keys. -/
def fullOuterJoin (kl : α → κ) (kr : β → κ) (l : List α) (r : List β) : List (Joined α β) :=
  l.flatMap (partners kl kr r) ++ (r.filter fun b => ∀ a ∈ l, kl a ≠ kr b).map .right

section Join

variable {kl : α → κ} {kr : β → κ} {l : List α} {r : List β} {a : α} {b : β} {j : Joined α β}

theorem mem_partners : j ∈ partners kl kr r a ↔
    (∃ b ∈ r, kr b = kl a ∧ j = .both a b) ∨ j = .left a ∧ ∀ b ∈ r, kr b ≠ kl a := by
  unfold partners
  cases hfilter : r.filter (fun b => kr b = kl a) with
  | nil =>
    simp only [List.filter_eq_nil_iff, decide_eq_true_eq] at hfilter
    simp only [List.mem_singleton]
    constructor
    · exact fun h => .inr ⟨h, hfilter⟩
    · intro h
      obtain ⟨b, hb, hkey, -⟩ | ⟨h, -⟩ := h
      · exact absurd hkey (hfilter b hb)
      · exact h
  | cons b₀ bs =>
    have hmem : ∀ b, b ∈ b₀ :: bs ↔ b ∈ r ∧ kr b = kl a := fun b => by
      rw [← hfilter, List.mem_filter, decide_eq_true_eq]
    have hfirst := (hmem b₀).mp List.mem_cons_self
    simp only [List.mem_map, hmem]
    constructor
    · intro h
      obtain ⟨b, ⟨hb, hkey⟩, rfl⟩ := h
      exact .inl ⟨b, hb, hkey, rfl⟩
    · intro h
      obtain ⟨b, hb, hkey, rfl⟩ | ⟨-, hnone⟩ := h
      · exact ⟨b, ⟨hb, hkey⟩, rfl⟩
      · exact absurd hfirst.2 (hnone b₀ hfirst.1)

/-- The rows of a join. -/
theorem mem_fullOuterJoin : j ∈ fullOuterJoin kl kr l r ↔
    (∃ a ∈ l, ∃ b ∈ r, kr b = kl a ∧ j = .both a b) ∨
      (∃ a ∈ l, (∀ b ∈ r, kr b ≠ kl a) ∧ j = .left a) ∨
        ∃ b ∈ r, (∀ a ∈ l, kl a ≠ kr b) ∧ j = .right b := by
  simp only [fullOuterJoin, List.mem_append, List.mem_flatMap, mem_partners, List.mem_map,
    List.mem_filter, decide_eq_true_eq]
  constructor
  · intro h
    obtain ⟨a, ha, ⟨b, hb, hkey, hj⟩ | ⟨hj, hnone⟩⟩ | ⟨b, ⟨hb, hnone⟩, hj⟩ := h
    · exact .inl ⟨a, ha, b, hb, hkey, hj⟩
    · exact .inr (.inl ⟨a, ha, hnone, hj⟩)
    · exact .inr (.inr ⟨b, hb, hnone, hj.symm⟩)
  · intro h
    obtain ⟨a, ha, b, hb, hkey, hj⟩ | ⟨a, ha, hnone, hj⟩ | ⟨b, hb, hnone, hj⟩ := h
    · exact .inl ⟨a, ha, .inl ⟨b, hb, hkey, hj⟩⟩
    · exact .inl ⟨a, ha, .inr ⟨hj, hnone⟩⟩
    · exact .inr ⟨b, ⟨hb, hnone⟩, hj.symm⟩

/-- The keys of a join are those of its sides. -/
theorem mem_join_keys {k : κ} : k ∈ (fullOuterJoin kl kr l r).map (Joined.key kl kr) ↔
    k ∈ l.map kl ∨ k ∈ r.map kr := by
  simp only [List.mem_map, mem_fullOuterJoin]
  constructor
  · intro h
    obtain ⟨j, ⟨a, ha, b, hb, hkey, rfl⟩ | ⟨a, ha, hnone, rfl⟩ | ⟨b, hb, hnone, rfl⟩, rfl⟩ := h
    · exact .inl ⟨a, ha, rfl⟩
    · exact .inl ⟨a, ha, rfl⟩
    · exact .inr ⟨b, hb, rfl⟩
  · intro h
    obtain ⟨a, ha, rfl⟩ | ⟨b, hb, rfl⟩ := h
    · by_cases hmatch : ∃ b ∈ r, kr b = kl a
      · obtain ⟨b, hb, hkey⟩ := hmatch
        exact ⟨.both a b, .inl ⟨a, ha, b, hb, hkey, rfl⟩, rfl⟩
      · push Not at hmatch
        exact ⟨.left a, .inr (.inl ⟨a, ha, hmatch, rfl⟩), rfl⟩
    · by_cases hmatch : ∃ a ∈ l, kl a = kr b
      · obtain ⟨a, ha, hkey⟩ := hmatch
        exact ⟨.both a b, .inl ⟨a, ha, b, hb, hkey.symm, rfl⟩, hkey⟩
      · push Not at hmatch
        exact ⟨.right b, .inr (.inr ⟨b, hb, hmatch, rfl⟩), rfl⟩

/-- Where the keys of the right side are different, a row has one partner at most. -/
theorem partners_keys (hr : (r.map kr).Nodup) (a : α) :
    (partners kl kr r a).map (Joined.key kl kr) = [kl a] := by
  unfold partners
  cases hfilter : r.filter (fun b => kr b = kl a) with
  | nil => rfl
  | cons b bs =>
    have hmem : ∀ b', b' ∈ b :: bs → b' ∈ r ∧ kr b' = kl a := fun b' hb' => by
      rwa [← hfilter, List.mem_filter, decide_eq_true_eq] at hb'
    have hnodup : (b :: bs).Nodup := hfilter ▸ (List.Nodup.of_map kr hr).filter _
    have honly : ∀ b' ∈ b :: bs, b' = b := fun b' hb' =>
      List.inj_on_of_nodup_map hr (hmem b' hb').1 (hmem b List.mem_cons_self).1
        ((hmem b' hb').2.trans (hmem b List.mem_cons_self).2.symm)
    have hnil : bs = [] := List.eq_nil_iff_forall_not_mem.mpr fun b' hb' =>
      (List.nodup_cons.mp hnodup).1 (honly b' (List.mem_cons_of_mem _ hb') ▸ hb')
    subst hnil
    rfl

/-- Every key comes once. -/
theorem keys_nodup (hl : (l.map kl).Nodup) (hr : (r.map kr).Nodup) :
    ((fullOuterJoin kl kr l r).map (Joined.key kl kr)).Nodup := by
  have hleft : (l.flatMap (partners kl kr r)).map (Joined.key kl kr) = l.map kl := by
    rw [List.map_flatMap, List.flatMap_congr fun a _ => partners_keys hr a]
    exact List.flatMap_pure_eq_map kl l
  have hright : ∀ rest : List β, (rest.map Joined.right).map (Joined.key kl kr) = rest.map kr :=
    fun rest => List.map_map.trans rfl
  rw [fullOuterJoin, List.map_append, hleft, hright, List.nodup_append]
  refine ⟨hl, hr.sublist (List.filter_sublist.map kr), fun k hk k' hk' heq => ?_⟩
  obtain ⟨a, ha, rfl⟩ := List.mem_map.mp hk
  obtain ⟨b, hb, rfl⟩ := List.mem_map.mp hk'
  have hnone := (List.mem_filter.mp hb).2
  rw [decide_eq_true_eq] at hnone
  exact hnone a ha heq

end Join

/-! ## Places -/

/-- `ROW_NUMBER`: the rows with their places, from one on. -/
def numbered (l : List α) : List (α × Nat) := l.zipIdx 1

/-- What a ranking adds to the score of a key, with the places counted on from `c`. -/
def share (c : Nat) (ranking : List κ) (k : κ) : ℚ :=
  if k ∈ ranking then 1 / ((c + (ranking.idxOf k + 1) : Nat) : ℚ) else 0

/-- The score of a key in two rankings. -/
def score (c : Nat) (f v : List κ) (k : κ) : ℚ := share c f k + share c v k

/-- The best keys of two rankings by score, equal scores in any order. -/
def Fused (c : Nat) (f v : List κ) (limit : Nat) (out : List κ) : Prop :=
  ∃ all : List κ, all.Nodup ∧ (∀ k, k ∈ all ↔ k ∈ f ∨ k ∈ v) ∧
    all.Pairwise (fun k k' => score c f v k' ≤ score c f v k) ∧ out = all.take limit

omit [DecidableEq κ] in
theorem numbered_keys (key : α → κ) (l : List α) :
    (numbered l).map (fun a => key a.1) = l.map key := by
  rw [numbered, show (fun a : α × Nat => key a.1) = key ∘ Prod.fst from rfl, ← List.map_map,
    List.zipIdx_map_fst]

/-- The first numbered rows are the first rows, numbered. -/
theorem take_numbered (n : Nat) (l : List α) : (numbered l).take n = numbered (l.take n) := by
  refine List.ext_getElem? fun i => ?_
  simp only [numbered, List.getElem?_take, List.getElem?_zipIdx]
  split <;> rfl

/-- A numbered row stands at its place. -/
theorem share_of_numbered {c : Nat} {key : α → κ} {l : List α} (h : (l.map key).Nodup) {a : α × Nat}
    (ha : a ∈ numbered l) : a.2 ≤ l.length ∧ share c (l.map key) (key a.1) = 1 / ((c + a.2 : Nat) : ℚ) := by
  obtain ⟨row, place⟩ := a
  obtain ⟨hlow, hhigh, hrow⟩ := List.mem_zipIdx ha
  have hindex : place - 1 < (l.map key).length := by
    rw [List.length_map]
    omega
  have hkey : (l.map key)[place - 1] = key row := by
    rw [List.getElem_map, ← hrow]
  have hidx : (l.map key).idxOf (key row) = place - 1 := by
    rw [← hkey]
    exact List.Nodup.idxOf_getElem h _ hindex
  refine ⟨by simp only; omega, ?_⟩
  rw [share, if_pos (hkey ▸ List.getElem_mem hindex), hidx]
  show 1 / ((c + (place - 1 + 1) : Nat) : ℚ) = 1 / ((c + place : Nat) : ℚ)
  rw [Nat.sub_add_cancel hlow]

theorem share_of_not_mem {c : Nat} {ranking : List κ} {k : κ} (h : k ∉ ranking) :
    share c ranking k = 0 := if_neg h

/-! ## Rounded reciprocals -/

/-- The reciprocals of small places, up to a small error. -/
def Rounds (c n : Nat) (reciprocal : Nat → ℚ) : Prop :=
  ∀ place ≤ n, |reciprocal place - 1 / ((c + place : Nat) : ℚ)| ≤ 1 / 10 ^ 16

/-- A share and its rounded value. -/
def Near (e x : ℚ) : Prop :=
  ∃ u d : Nat, 0 < d ∧ d ≤ 1000 ∧ e = u / d ∧ |x - e| ≤ 1 / 10 ^ 16

theorem near_zero : Near 0 0 := ⟨0, 1, by decide, by decide, by simp, by simp⟩

/-- Different sums of two small fractions are far apart. -/
theorem sum_gap {u₁ u₂ u₃ u₄ d₁ d₂ d₃ d₄ : Nat} (h₁ : 0 < d₁ ∧ d₁ ≤ 1000) (h₂ : 0 < d₂ ∧ d₂ ≤ 1000)
    (h₃ : 0 < d₃ ∧ d₃ ≤ 1000) (h₄ : 0 < d₄ ∧ d₄ ≤ 1000)
    (hlt : (u₃ / d₃ + u₄ / d₄ : ℚ) < u₁ / d₁ + u₂ / d₂) :
    1 / 1000 ^ 4 ≤ (u₁ / d₁ + u₂ / d₂ : ℚ) - (u₃ / d₃ + u₄ / d₄) := by
  have hd₁ : (0 : ℚ) < d₁ := by exact_mod_cast h₁.1
  have hd₂ : (0 : ℚ) < d₂ := by exact_mod_cast h₂.1
  have hd₃ : (0 : ℚ) < d₃ := by exact_mod_cast h₃.1
  have hd₄ : (0 : ℚ) < d₄ := by exact_mod_cast h₄.1
  -- over the common denominator the difference is a positive whole number
  let p : ℤ := u₁ * d₂ * d₃ * d₄ + u₂ * d₁ * d₃ * d₄ - (u₃ * d₁ * d₂ * d₄ + u₄ * d₁ * d₂ * d₃)
  have hp : ((u₁ / d₁ + u₂ / d₂ : ℚ) - (u₃ / d₃ + u₄ / d₄)) * (d₁ * d₂ * d₃ * d₄) = p := by
    simp only [p]
    push_cast
    field_simp
  have hpositive : 0 < p := by
    have : (0 : ℚ) < p := hp ▸ mul_pos (sub_pos.mpr hlt) (by positivity)
    exact_mod_cast this
  have hone : (1 : ℚ) ≤ p := by exact_mod_cast hpositive
  have hsize : (d₁ * d₂ * d₃ * d₄ : ℚ) ≤ 1000 ^ 4 := by
    have : d₁ * d₂ * d₃ * d₄ ≤ 1000 * 1000 * 1000 * 1000 :=
      Nat.mul_le_mul (Nat.mul_le_mul (Nat.mul_le_mul h₁.2 h₂.2) h₃.2) h₄.2
    calc (d₁ * d₂ * d₃ * d₄ : ℚ) ≤ 1000 * 1000 * 1000 * 1000 := by exact_mod_cast this
      _ = 1000 ^ 4 := by norm_num
  rw [div_le_iff₀ (by positivity)]
  calc (1 : ℚ) ≤ p := hone
    _ = ((u₁ / d₁ + u₂ / d₂ : ℚ) - (u₃ / d₃ + u₄ / d₄)) * (d₁ * d₂ * d₃ * d₄) := hp.symm
    _ ≤ ((u₁ / d₁ + u₂ / d₂ : ℚ) - (u₃ / d₃ + u₄ / d₄)) * 1000 ^ 4 :=
      mul_le_mul_of_nonneg_left hsize (sub_pos.mpr hlt).le

/-- Rounded sums are in the order of the exact ones. -/
theorem exact_le_of_rounded {e₁ e₂ e₃ e₄ x₁ x₂ x₃ x₄ : ℚ} (h₁ : Near e₁ x₁) (h₂ : Near e₂ x₂)
    (h₃ : Near e₃ x₃) (h₄ : Near e₄ x₄) (h : x₁ + x₂ ≤ x₃ + x₄) : e₁ + e₂ ≤ e₃ + e₄ := by
  obtain ⟨u₁, d₁, hd₁, hl₁, rfl, hx₁⟩ := h₁
  obtain ⟨u₂, d₂, hd₂, hl₂, rfl, hx₂⟩ := h₂
  obtain ⟨u₃, d₃, hd₃, hl₃, rfl, hx₃⟩ := h₃
  obtain ⟨u₄, d₄, hd₄, hl₄, rfl, hx₄⟩ := h₄
  by_contra hlt
  have hgap := sum_gap ⟨hd₁, hl₁⟩ ⟨hd₂, hl₂⟩ ⟨hd₃, hl₃⟩ ⟨hd₄, hl₄⟩ (not_le.mp hlt)
  rw [abs_le] at hx₁ hx₂ hx₃ hx₄
  have hsmall : (4 : ℚ) * (1 / 10 ^ 16) < 1 / 1000 ^ 4 := by norm_num
  linarith [hx₁.1, hx₁.2, hx₂.1, hx₂.2, hx₃.1, hx₃.2, hx₄.1, hx₄.2]

/-! ## Fusion by a join -/

/-- The weight of a joined row: the reciprocals of the places that it has. -/
def Joined.weigh (reciprocal : Nat → ℚ) : Joined (α × Nat) (β × Nat) → ℚ
  | both a b => reciprocal a.2 + reciprocal b.2
  | left a => reciprocal a.2
  | right b => reciprocal b.2

section Fuse

variable {γ : Type*} {c n limit : Nat} {reciprocal : Nat → ℚ} {kf : α → κ} {kv : β → κ}
  {f : List α} {v : List β} {l : List (α × Nat)} {r : List (β × Nat)}

theorem near_share {key : α → κ} {l : List α} (hl : (l.map key).Nodup) (hlength : l.length ≤ n)
    (hpositive : 0 < c) (hsmall : c + n ≤ 1000) (hrounds : Rounds c n reciprocal) {a : α × Nat}
    (ha : a ∈ numbered l) : Near (share c (l.map key) (key a.1)) (reciprocal a.2) := by
  obtain ⟨hplace, hshare⟩ := share_of_numbered (c := c) hl ha
  refine ⟨1, c + a.2, by omega, by omega, ?_, ?_⟩
  · rw [hshare, Nat.cast_one]
  · rw [hshare]
    exact hrounds _ (hplace.trans hlength)

/-- The weight of a joined row is its score, up to the rounding. -/
theorem near_weigh (hf : (f.map kf).Nodup) (hv : (v.map kv).Nodup) (hlf : f.length ≤ n)
    (hlv : v.length ≤ n) (hpositive : 0 < c) (hsmall : c + n ≤ 1000)
    (hrounds : Rounds c n reciprocal) (hl : l.Perm (numbered f)) (hr : r.Perm (numbered v))
    {j : Joined (α × Nat) (β × Nat)}
    (hj : j ∈ fullOuterJoin (fun a => kf a.1) (fun b => kv b.1) l r) :
    ∃ x y, j.weigh reciprocal = x + y ∧
      Near (share c (f.map kf) (j.key (fun a => kf a.1) fun b => kv b.1)) x ∧
      Near (share c (v.map kv) (j.key (fun a => kf a.1) fun b => kv b.1)) y := by
  have hleft : ∀ a ∈ l, Near (share c (f.map kf) (kf a.1)) (reciprocal a.2) := fun a ha =>
    near_share hf hlf hpositive hsmall hrounds (hl.subset ha)
  have hright : ∀ b ∈ r, Near (share c (v.map kv) (kv b.1)) (reciprocal b.2) := fun b hb =>
    near_share hv hlv hpositive hsmall hrounds (hr.subset hb)
  have hlkeys : l.map (fun a => kf a.1) ~ f.map kf :=
    (hl.map _).trans (.of_eq (numbered_keys kf f))
  have hrkeys : r.map (fun b => kv b.1) ~ v.map kv :=
    (hr.map _).trans (.of_eq (numbered_keys kv v))
  obtain ⟨a, ha, b, hb, hkey, rfl⟩ | ⟨a, ha, hnone, rfl⟩ | ⟨b, hb, hnone, rfl⟩ :=
    mem_fullOuterJoin.mp hj
  · refine ⟨_, _, rfl, hleft a ha, ?_⟩
    show Near (share c (v.map kv) (kf a.1)) (reciprocal b.2)
    rw [← hkey]
    exact hright b hb
  · refine ⟨_, 0, (add_zero _).symm, hleft a ha, ?_⟩
    rw [share_of_not_mem]
    · exact near_zero
    · intro hmem
      obtain ⟨b, hb, hkey⟩ := List.mem_map.mp (hrkeys.symm.subset hmem)
      exact hnone b hb hkey
  · refine ⟨0, _, (zero_add _).symm, ?_, hright b hb⟩
    rw [share_of_not_mem]
    · exact near_zero
    · intro hmem
      obtain ⟨a, ha, hkey⟩ := List.mem_map.mp (hlkeys.symm.subset hmem)
      exact hnone a ha hkey

/-- Rows that carry the keys and the weights of the join, the greatest weight first,
are the fusion of the two rankings. -/
theorem fused_of_join {key : γ → κ} {weight : γ → ℚ} {rows : List γ} (hf : (f.map kf).Nodup)
    (hv : (v.map kv).Nodup) (hlf : f.length ≤ n) (hlv : v.length ≤ n) (hpositive : 0 < c)
    (hsmall : c + n ≤ 1000) (hrounds : Rounds c n reciprocal) (hl : l.Perm (numbered f))
    (hr : r.Perm (numbered v))
    (hrows : (rows.map fun g => (key g, weight g)).Perm
      ((fullOuterJoin (fun a => kf a.1) (fun b => kv b.1) l r).map fun j =>
        (j.key (fun a => kf a.1) (fun b => kv b.1), j.weigh reciprocal)))
    (hsorted : rows.Pairwise fun g g' => weight g' ≤ weight g) :
    Fused c (f.map kf) (v.map kv) limit ((rows.take limit).map key) := by
  have hlkeys : l.map (fun a => kf a.1) ~ f.map kf :=
    (hl.map _).trans (.of_eq (numbered_keys kf f))
  have hrkeys : r.map (fun b => kv b.1) ~ v.map kv :=
    (hr.map _).trans (.of_eq (numbered_keys kv v))
  have hkeys : rows.map key ~ (fullOuterJoin (fun a => kf a.1) (fun b => kv b.1) l r).map
      (Joined.key (fun a => kf a.1) fun b => kv b.1) := by
    have := hrows.map Prod.fst
    rwa [List.map_map, List.map_map] at this
  refine ⟨rows.map key, ?_, fun k => ?_, ?_, List.map_take⟩
  · exact hkeys.nodup_iff.mpr (keys_nodup (hlkeys.nodup_iff.mpr hf) (hrkeys.nodup_iff.mpr hv))
  · rw [hkeys.mem_iff, mem_join_keys, hlkeys.mem_iff, hrkeys.mem_iff]
  · rw [List.pairwise_map]
    have hnear : ∀ g ∈ rows, ∃ x y, weight g = x + y ∧ Near (share c (f.map kf) (key g)) x ∧
        Near (share c (v.map kv) (key g)) y := by
      intro g hg
      obtain ⟨j, hj, hpair⟩ := List.mem_map.mp (hrows.subset (List.mem_map_of_mem hg))
      rw [Prod.mk.injEq] at hpair
      rw [← hpair.1, ← hpair.2]
      exact near_weigh hf hv hlf hlv hpositive hsmall hrounds hl hr hj
    refine hsorted.imp_of_mem fun {g g'} hg hg' hle => ?_
    obtain ⟨x, y, hw, hx, hy⟩ := hnear g hg
    obtain ⟨x', y', hw', hx', hy'⟩ := hnear g' hg'
    exact exact_le_of_rounded hx' hy' hx hy (by rw [← hw, ← hw']; exact hle)

end Fuse

end Fusion
