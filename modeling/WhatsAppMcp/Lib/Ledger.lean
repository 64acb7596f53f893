import WhatsAppMcp.Lib.Trace
import Mathlib.Logic.Function.Basic

/-!
# A ledger of ordered lanes

The abstract machine behind an inbox with exactly-once processing.  Items come
in with a key, a tag and a rank, each on one lane.  A lane delivers its items
in the order of their ranks, one after another from rank 1 on; before an item
is delivered its work may be started once.  A key that was ever submitted is
used up, on every lane.

`Lawful` says what an observer of the log of such a machine may rely on, and
`exec_lawful` that every run keeps it.  `History` ties the state to the log; it
is kept by `submit_history`, `start_history` and `deliver_history`.
-/

namespace Ledger

open Trace (Exec)

universe u v w

/-- An item of a lane. -/
structure Item (K : Type v) (T : Type w) where
  key : K
  tag : T
  rank : Nat

/-- What an observer sees. -/
inductive Entry (κ : Type u) (K : Type v) (T : Type w) where
  | submit (lane : κ) (item : Item K T)
  | start (lane : κ) (key : K)
  | deliver (lane : κ) (key : K) (tag : T)

/-- The machine: how far each lane is, whether its next item is started, the
items that wait, and the keys used up. -/
structure State (κ : Type u) (K : Type v) (T : Type w) where
  delivered : κ → Nat
  started : κ → Prop
  active : κ → Item K T → Prop
  used : K → Prop

variable {κ : Type u} {K : Type v} {T : Type w}

/-- The machine before its first item. -/
def State.empty : State κ K T := ⟨fun _ => 0, fun _ => False, fun _ _ => False, fun _ => False⟩

variable [DecidableEq κ]

/-- What the machine allows. -/
inductive Step : State κ K T → Entry κ K T → State κ K T → Prop
  | submit {s : State κ K T} {lane : κ} {item : Item K T} (hfresh : ¬ s.used item.key)
      (hpast : s.delivered lane < item.rank)
      (hfree : ∀ other, s.active lane other → other.rank ≠ item.rank) :
      Step s (.submit lane item)
        { s with
          active := fun l i => s.active l i ∨ l = lane ∧ i = item
          used := fun k => s.used k ∨ k = item.key }
  | start {s : State κ K T} {lane : κ} {item : Item K T} (hactive : s.active lane item)
      (hhead : item.rank = s.delivered lane + 1) (hidle : ¬ s.started lane) :
      Step s (.start lane item.key) { s with started := fun l => s.started l ∨ l = lane }
  | deliver {s : State κ K T} {lane : κ} {item : Item K T} (hactive : s.active lane item)
      (hhead : item.rank = s.delivered lane + 1) :
      Step s (.deliver lane item.key item.tag)
        { s with
          delivered := Function.update s.delivered lane (s.delivered lane + 1)
          started := fun l => s.started l ∧ l ≠ lane
          active := fun l i => s.active l i ∧ ¬ (l = lane ∧ i = item) }

/-! ## Laws of a log -/

/-- The entry is a delivery on the lane. -/
def Entry.deliversOn (lane : κ) : Entry κ K T → Bool
  | .deliver l _ _ => l = lane
  | _ => false

/-- How many items a lane has delivered. -/
def deliveries (lane : κ) (log : List (Entry κ K T)) : Nat := log.countP (Entry.deliversOn lane)

/-- A delivery is of an item submitted before on that lane, with the next rank
of the lane, and of no key delivered before; a submission repeats no key, and
no rank of its lane; and no key is started twice. -/
structure Lawful (log : List (Entry κ K T)) : Prop where
  order : ∀ pre lane key tag post, log = pre ++ .deliver lane key tag :: post →
    .submit lane ⟨key, tag, deliveries lane pre + 1⟩ ∈ pre
  once : ∀ pre lane key tag post, log = pre ++ .deliver lane key tag :: post →
    ∀ l tag', .deliver l key tag' ∉ pre
  fresh : ∀ pre lane item post, log = pre ++ .submit lane item :: post →
    ∀ l other, .submit l other ∈ pre →
      other.key ≠ item.key ∧ (l = lane → other.rank ≠ item.rank)
  startOnce : ∀ pre lane key post, log = pre ++ .start lane key :: post →
    ∀ l, .start l key ∉ pre

/-! ## The log behind a state -/

/-- The state is what the log says. -/
structure History (s : State κ K T) (log : List (Entry κ K T)) : Prop where
  counted : ∀ lane, s.delivered lane = deliveries lane log
  used : ∀ key, s.used key ↔ ∃ lane item, .submit lane item ∈ log ∧ item.key = key
  submitted : ∀ lane item, s.active lane item → .submit lane item ∈ log
  pending : ∀ lane item, s.active lane item →
    s.delivered lane < item.rank ∧ ∀ l tag, .deliver l item.key tag ∉ log
  key_inj : ∀ l₁ l₂ i₁ i₂, s.active l₁ i₁ → s.active l₂ i₂ → i₁.key = i₂.key → l₁ = l₂ ∧ i₁ = i₂
  rank_inj : ∀ lane i₁ i₂, s.active lane i₁ → s.active lane i₂ → i₁.rank = i₂.rank → i₁ = i₂
  settled : ∀ lane item, .submit lane item ∈ log →
    s.active lane item ∨ item.rank ≤ s.delivered lane
  spent : ∀ lane key tag, .deliver lane key tag ∈ log → s.used key
  started : ∀ lane key, .start lane key ∈ log →
    (s.started lane ∧ ∃ item, s.active lane item ∧ item.key = key ∧
        item.rank = s.delivered lane + 1) ∨
      (s.used key ∧ ∀ l item, s.active l item → item.key ≠ key)

variable {s : State κ K T} {log : List (Entry κ K T)} {lane : κ} {item : Item K T}

theorem empty_history : History (State.empty : State κ K T) [] := by
  constructor <;> simp [State.empty, deliveries]

theorem deliveries_append (log : List (Entry κ K T)) (e : Entry κ K T) (l : κ) :
    deliveries l (log ++ [e]) = deliveries l log + if e.deliversOn l then 1 else 0 := by
  simp [deliveries, List.countP_append, List.countP_cons]

theorem submit_history (h : History s log) (hfresh : ¬ s.used item.key)
    (hpast : s.delivered lane < item.rank)
    (hfree : ∀ other, s.active lane other → other.rank ≠ item.rank) :
    History { s with
        active := fun l i => s.active l i ∨ l = lane ∧ i = item
        used := fun k => s.used k ∨ k = item.key } (log ++ [.submit lane item]) := by
  have hnew : ∀ l other, .submit l other ∈ log → other.key ≠ item.key :=
    fun l other hmem heq => hfresh ((h.used _).mpr ⟨l, other, hmem, heq⟩)
  constructor
  · intro l
    rw [deliveries_append]
    exact h.counted l
  · intro key
    simp only [List.mem_append, List.mem_singleton, h.used key]
    constructor
    · rintro (⟨l, i, hmem, hkey⟩ | rfl)
      · exact ⟨l, i, Or.inl hmem, hkey⟩
      · exact ⟨lane, item, Or.inr rfl, rfl⟩
    · rintro ⟨l, i, hmem | heq, hkey⟩
      · exact Or.inl ⟨l, i, hmem, hkey⟩
      · cases heq
        exact Or.inr hkey.symm
  · rintro l i (hold | ⟨rfl, rfl⟩)
    · exact List.mem_append_left _ (h.submitted l i hold)
    · simp
  · rintro l i (hold | ⟨rfl, rfl⟩)
    · refine ⟨(h.pending l i hold).1, fun l' tag hmem => ?_⟩
      rcases List.mem_append.mp hmem with hmem | hmem
      · exact (h.pending l i hold).2 l' tag hmem
      · cases List.mem_singleton.mp hmem
    · refine ⟨hpast, fun l' tag hmem => ?_⟩
      rcases List.mem_append.mp hmem with hmem | hmem
      · exact hfresh (h.spent l' _ tag hmem)
      · cases List.mem_singleton.mp hmem
  · rintro l₁ l₂ i₁ i₂ (h₁ | ⟨rfl, rfl⟩) (h₂ | ⟨rfl, rfl⟩) hkey
    · exact h.key_inj l₁ l₂ i₁ i₂ h₁ h₂ hkey
    · exact absurd hkey (hnew _ _ (h.submitted _ _ h₁))
    · exact absurd hkey.symm (hnew _ _ (h.submitted _ _ h₂))
    · exact ⟨rfl, rfl⟩
  · rintro l i₁ i₂ (h₁ | ⟨rfl, rfl⟩) (h₂ | ⟨heq, rfl⟩) hrank
    · exact h.rank_inj l i₁ i₂ h₁ h₂ hrank
    · subst heq
      exact absurd hrank (hfree _ h₁)
    · exact absurd hrank.symm (hfree _ h₂)
    · rfl
  · intro l i hmem
    rcases List.mem_append.mp hmem with hmem | hmem
    · exact (h.settled l i hmem).imp_left Or.inl
    · cases List.mem_singleton.mp hmem
      exact Or.inl (Or.inr ⟨rfl, rfl⟩)
  · intro l key tag hmem
    rcases List.mem_append.mp hmem with hmem | hmem
    · exact Or.inl (h.spent l key tag hmem)
    · cases List.mem_singleton.mp hmem
  · intro l key hmem
    rcases List.mem_append.mp hmem with hmem | hmem
    · rcases h.started l key hmem with ⟨hstarted, i, hactive, hkey, hrank⟩ | ⟨hused, hgone⟩
      · exact Or.inl ⟨hstarted, i, Or.inl hactive, hkey, hrank⟩
      · refine Or.inr ⟨Or.inl hused, ?_⟩
        rintro l' i (hactive | ⟨-, rfl⟩)
        · exact hgone l' i hactive
        · rintro rfl
          exact hfresh hused
    · cases List.mem_singleton.mp hmem

theorem start_history (h : History s log) (hactive : s.active lane item)
    (hhead : item.rank = s.delivered lane + 1) :
    History { s with started := fun l => s.started l ∨ l = lane }
      (log ++ [.start lane item.key]) := by
  constructor
  · intro l
    rw [deliveries_append]
    exact h.counted l
  · intro key
    simp [h.used key]
  · exact fun l i hi => List.mem_append_left _ (h.submitted l i hi)
  · intro l i hi
    refine ⟨(h.pending l i hi).1, fun l' tag hmem => ?_⟩
    rcases List.mem_append.mp hmem with hmem | hmem
    · exact (h.pending l i hi).2 l' tag hmem
    · cases List.mem_singleton.mp hmem
  · exact h.key_inj
  · exact h.rank_inj
  · intro l i hmem
    rcases List.mem_append.mp hmem with hmem | hmem
    · exact h.settled l i hmem
    · cases List.mem_singleton.mp hmem
  · intro l key tag hmem
    rcases List.mem_append.mp hmem with hmem | hmem
    · exact h.spent l key tag hmem
    · cases List.mem_singleton.mp hmem
  · intro l key hmem
    rcases List.mem_append.mp hmem with hmem | hmem
    · exact (h.started l key hmem).imp_left fun ⟨hstarted, hrest⟩ => ⟨Or.inl hstarted, hrest⟩
    · cases List.mem_singleton.mp hmem
      exact Or.inl ⟨Or.inr rfl, item, hactive, rfl, hhead⟩

theorem deliver_history (h : History s log) (hactive : s.active lane item)
    (hhead : item.rank = s.delivered lane + 1) :
    History { s with
        delivered := Function.update s.delivered lane (s.delivered lane + 1)
        started := fun l => s.started l ∧ l ≠ lane
        active := fun l i => s.active l i ∧ ¬ (l = lane ∧ i = item) }
      (log ++ [.deliver lane item.key item.tag]) := by
  have hused : s.used item.key :=
    (h.used _).mpr ⟨lane, item, h.submitted lane item hactive, rfl⟩
  have hother : ∀ l i, s.active l i → i.key = item.key → l = lane ∧ i = item :=
    fun l i hi hkey => h.key_inj l lane i item hi hactive hkey
  have hle : ∀ l, s.delivered l ≤ Function.update s.delivered lane (s.delivered lane + 1) l := by
    intro l
    by_cases heq : l = lane
    · subst heq
      simp
    · simp [heq]
  constructor
  · intro l
    rw [deliveries_append]
    by_cases heq : l = lane
    · subst heq
      simp [Entry.deliversOn, h.counted l]
    · simp [Entry.deliversOn, heq, Ne.symm heq, h.counted l]
  · intro key
    simp [h.used key]
  · exact fun l i hi => List.mem_append_left _ (h.submitted l i hi.1)
  · rintro l i ⟨hi, hne⟩
    constructor
    · have hpast := (h.pending l i hi).1
      by_cases heq : l = lane
      · subst heq
        have hrank : i.rank ≠ item.rank := fun hrank =>
          hne ⟨rfl, h.rank_inj l i item hi hactive hrank⟩
        simp only [Function.update_self]
        omega
      · simpa [heq] using hpast
    · intro l' tag hmem
      rcases List.mem_append.mp hmem with hmem | hmem
      · exact (h.pending l i hi).2 l' tag hmem
      · have hkey := List.mem_singleton.mp hmem
        rw [Entry.deliver.injEq] at hkey
        exact hne (hother l i hi hkey.2.1)
  · exact fun l₁ l₂ i₁ i₂ h₁ h₂ => h.key_inj l₁ l₂ i₁ i₂ h₁.1 h₂.1
  · exact fun l i₁ i₂ h₁ h₂ => h.rank_inj l i₁ i₂ h₁.1 h₂.1
  · intro l i hmem
    rcases List.mem_append.mp hmem with hmem | hmem
    · rcases h.settled l i hmem with hi | hrank
      · by_cases heq : l = lane ∧ i = item
        · obtain ⟨rfl, rfl⟩ := heq
          exact Or.inr (by simp [hhead])
        · exact Or.inl ⟨hi, heq⟩
      · exact Or.inr (Nat.le_trans hrank (hle l))
    · cases List.mem_singleton.mp hmem
  · intro l key tag hmem
    rcases List.mem_append.mp hmem with hmem | hmem
    · exact h.spent l key tag hmem
    · cases List.mem_singleton.mp hmem
      exact hused
  · intro l key hmem
    rcases List.mem_append.mp hmem with hmem | hmem
    · rcases h.started l key hmem with ⟨hstarted, i, hi, hkey, hrank⟩ | ⟨hspent, hgone⟩
      · by_cases heq : l = lane
        · subst heq
          -- the started item is the head, which is the one delivered
          obtain rfl := h.rank_inj l i item hi hactive (hrank.trans hhead.symm)
          refine Or.inr ⟨hkey ▸ hused, ?_⟩
          rintro l' i' ⟨hi', hne⟩ hkey'
          exact hne (hother l' i' hi' (hkey'.trans hkey.symm))
        · refine Or.inl ⟨⟨hstarted, heq⟩, i, ⟨hi, fun hboth => heq hboth.1⟩, hkey, ?_⟩
          simpa [heq] using hrank
      · exact Or.inr ⟨hspent, fun l' i' hi' => hgone l' i' hi'.1⟩
    · cases List.mem_singleton.mp hmem

theorem exec_history (h : Exec Step (State.empty : State κ K T) log s) : History s log := by
  induction h with
  | nil => exact empty_history
  | snoc _ last ih =>
    cases last with
    | submit hfresh hpast hfree => exact submit_history ih hfresh hpast hfree
    | start hactive hhead => exact start_history ih hactive hhead
    | deliver hactive hhead => exact deliver_history ih hactive hhead

/-! ## Every run is lawful -/

theorem exec_lawful (h : Exec Step (State.empty : State κ K T) log s) : Lawful log := by
  constructor
  · rintro pre lane key tag post rfl
    obtain ⟨t, t', hrun, hstep, -⟩ := h.split_cons
    have hhistory := exec_history hrun
    cases hstep with
    | deliver hactive hhead =>
      rw [← hhistory.counted, ← hhead]
      exact hhistory.submitted _ _ hactive
  · rintro pre lane key tag post rfl
    obtain ⟨t, t', hrun, hstep, -⟩ := h.split_cons
    cases hstep with
    | deliver hactive => exact ((exec_history hrun).pending _ _ hactive).2
  · rintro pre lane item post rfl l other hmem
    obtain ⟨t, t', hrun, hstep, -⟩ := h.split_cons
    have hhistory := exec_history hrun
    cases hstep with
    | submit hfresh hpast hfree =>
      refine ⟨fun hkey => hfresh ((hhistory.used _).mpr ⟨l, other, hmem, hkey⟩), ?_⟩
      rintro rfl hrank
      rcases hhistory.settled l other hmem with hactive | hle
      · exact hfree other hactive hrank
      · omega
  · rintro pre lane key post rfl l hmem
    obtain ⟨t, t', hrun, hstep, -⟩ := h.split_cons
    have hhistory := exec_history hrun
    cases hstep with
    | start hactive hhead hidle =>
      rcases hhistory.started l _ hmem with ⟨hstarted, i, hi, hkey, -⟩ | ⟨-, hgone⟩
      · obtain ⟨rfl, -⟩ := hhistory.key_inj l lane i _ hi hactive hkey
        exact hidle hstarted
      · exact hgone lane _ hactive rfl

end Ledger
