import Mathlib.Data.List.Basic
import Mathlib.Data.List.Induction
import Mathlib.Tactic.Common

/-!
# Runs of a labelled transition relation

`Exec step s es t` says that the labels `es`, in this order, lead from `s` to
`t`.  The rules below are the ways in which a law of one step becomes a law of
a run:

* `Exec.invariant`: a state property that every step keeps.
* `Exec.cause`: what holds at the end and not at the start came about in between.
* `Exec.length_le`: a run is bounded by what its steps use up.
* `Exec.marks_pairwise`: a relation between the marked labels of a run, when
  the state bounds the marks so far.
* `Exec.refine`: a simulation of a machine whose labels are observations.

`Exec.append` and `Exec.split` cut runs, `Preceded` is a law of a log, `tally`
counts steps of a run of a step function, and `Along` says what holds at each of
them.
-/

namespace Trace

universe u v w x

variable {σ : Type u} {ε : Type v}

/-- The labels `es` lead from `s` to `t`, the last label at the end. -/
inductive Exec (step : σ → ε → σ → Prop) (s : σ) : List ε → σ → Prop
  | nil : Exec step s [] s
  | snoc {es : List ε} {t u : σ} {e : ε} (run : Exec step s es t) (last : step t e u) :
      Exec step s (es ++ [e]) u

variable {step : σ → ε → σ → Prop} {s t u : σ} {es fs : List ε} {e : ε}

/-! ## Cutting runs -/

theorem Exec.single (h : step s e t) : Exec step s [e] t :=
  Exec.nil.snoc h

theorem Exec.append (hrun : Exec step s es t) (hrest : Exec step t fs u) :
    Exec step s (es ++ fs) u := by
  induction hrest with
  | nil => simpa using hrun
  | snoc _ last ih => exact List.append_assoc _ _ _ ▸ ih.snoc last

theorem Exec.eq_of_nil (h : Exec step s [] t) : t = s := by
  generalize hempty : ([] : List ε) = es at h
  cases h with
  | nil => rfl
  | snoc => simp at hempty

theorem Exec.unsnoc (h : Exec step s (es ++ [e]) u) : ∃ t, Exec step s es t ∧ step t e u := by
  generalize hall : es ++ [e] = all at h
  cases h with
  | nil => simp at hall
  | snoc run last =>
    obtain ⟨rfl, hlast⟩ := List.append_inj' hall rfl
    obtain rfl := (List.cons.inj hlast).1
    exact ⟨_, run, last⟩

theorem Exec.split (h : Exec step s (es ++ fs) u) :
    ∃ t, Exec step s es t ∧ Exec step t fs u := by
  induction fs using List.reverseRecOn generalizing u with
  | nil => exact ⟨u, by simpa using h, .nil⟩
  | append_singleton fs e ih =>
    rw [← List.append_assoc] at h
    obtain ⟨t', hrun, hlast⟩ := h.unsnoc
    obtain ⟨t, hfirst, hrest⟩ := ih hrun
    exact ⟨t, hfirst, hrest.snoc hlast⟩

/-- The step that a label in the middle of a run stands for. -/
theorem Exec.split_cons (h : Exec step s (es ++ e :: fs) u) :
    ∃ t t', Exec step s es t ∧ step t e t' ∧ Exec step t' fs u := by
  rw [← List.singleton_append, ← List.append_assoc] at h
  obtain ⟨t', hrun, hrest⟩ := h.split
  obtain ⟨t, hfirst, hstep⟩ := hrun.unsnoc
  exact ⟨t, t', hfirst, hstep, hrest⟩

/-- Where a step is a function, so is a run. -/
theorem Exec.deterministic (hdet : ∀ s e t u, step s e t → step s e u → t = u)
    (ht : Exec step s es t) (hu : Exec step s es u) : t = u := by
  induction ht generalizing u with
  | nil => exact hu.eq_of_nil.symm
  | snoc _ last ih =>
    obtain ⟨v, run, hlast⟩ := hu.unsnoc
    obtain rfl := ih run
    exact hdet _ _ _ _ last hlast

/-! ## From steps to runs -/

theorem Exec.invariant {P : σ → Prop} (h : Exec step s es t) (hs : P s)
    (hstep : ∀ s e t, P s → step s e t → P t) : P t := by
  induction h with
  | nil => exact hs
  | snoc _ last ih => exact hstep _ _ _ ih last

/-- A run of one relation is a run of another that allows its steps, where an
invariant of the first may be used. -/
theorem Exec.mono {step' : σ → ε → σ → Prop} {P : σ → Prop} (h : Exec step s es t) (hs : P s)
    (hstep : ∀ s e t, P s → step s e t → P t ∧ step' s e t) : Exec step' s es t := by
  suffices P t ∧ Exec step' s es t from this.2
  induction h with
  | nil => exact ⟨hs, .nil⟩
  | snoc _ last ih =>
    obtain ⟨hp, hrun⟩ := ih
    obtain ⟨hp', hlast⟩ := hstep _ _ _ hp last
    exact ⟨hp', hrun.snoc hlast⟩

/-- What holds at the end of a run and not at its start has a cause in the run, when
every step that brings it about has one before or after it. -/
theorem Exec.cause {P C : σ → Prop} (h : Exec step s es t) (hs : ¬ P s)
    (hstep : ∀ es a e b, Exec step s es a → step a e b → P b → P a ∨ C a ∨ C b) (ht : P t) :
    ∃ es₁ es₂ u, es = es₁ ++ es₂ ∧ Exec step s es₁ u ∧ Exec step u es₂ t ∧ C u := by
  induction h with
  | nil => exact absurd ht hs
  | @snoc es a b e run last ih =>
    rcases hstep _ _ _ _ run last ht with hbefore | hcause | hcause
    · obtain ⟨es₁, es₂, u, rfl, hfirst, hrest, hu⟩ := ih hbefore
      exact ⟨es₁, es₂ ++ [e], u, by rw [List.append_assoc], hfirst, hrest.snoc last, hu⟩
    · exact ⟨es, [e], a, rfl, run, .single last, hcause⟩
    · exact ⟨es ++ [e], [], b, by rw [List.append_nil], run.snoc last, .nil, hcause⟩

/-- The marked labels of a run are pairwise related, when the state bounds
every mark so far and a new mark is above every bounded one. -/
theorem Exec.marks_pairwise {α : Type w} {mark : ε → Option α} {rel : α → α → Prop}
    {P : σ → Prop} {B : σ → α → Prop} (h : Exec step s es t) (hs : P s)
    (hinv : ∀ s e t, P s → step s e t → P t)
    (hkeep : ∀ s e t a, P s → step s e t → B s a → B t a)
    (hnew : ∀ s e t a, P s → step s e t → mark e = some a →
      B t a ∧ ∀ b, B s b → rel b a) :
    (es.filterMap mark).Pairwise rel ∧ ∀ a ∈ es.filterMap mark, B t a := by
  induction h with
  | nil => simp
  | @snoc es t u e run last ih =>
    have hp := run.invariant hs hinv
    obtain ⟨hpair, hbound⟩ := ih
    rw [List.filterMap_append]
    cases hmark : mark e with
    | none =>
      have hone : [e].filterMap mark = [] := by simp [hmark]
      rw [hone, List.append_nil]
      exact ⟨hpair, fun a ha => hkeep _ _ _ a hp last (hbound a ha)⟩
    | some a =>
      have hone : [e].filterMap mark = [a] := by simp [hmark]
      obtain ⟨hself, habove⟩ := hnew _ _ _ a hp last hmark
      rw [hone]
      refine ⟨List.pairwise_append.mpr ⟨hpair, List.pairwise_singleton _ _, ?_⟩, ?_⟩
      · intro b hb c hc
        rw [List.mem_singleton.mp hc]
        exact habove b (hbound b hb)
      · intro b hb
        rcases List.mem_append.mp hb with hb | hb
        · exact hkeep _ _ _ b hp last (hbound b hb)
        · rw [List.mem_singleton.mp hb]
          exact hself

/-- A run whose steps all use up something of a store is no longer than the store. -/
theorem Exec.length_le (store : σ → Nat) (h : Exec step s es t)
    (hstep : ∀ s e t, step s e t → store t < store s) : es.length + store t ≤ store s := by
  induction h with
  | nil => exact Nat.le_of_eq (Nat.zero_add _)
  | @snoc es t u e run last ih =>
    have hless := hstep _ _ _ last
    rw [List.length_append, List.length_singleton]
    omega

/-! ## Logs -/

/-- Every entry of a log is allowed after the ones before it. -/
def Preceded {α : Type w} (allowed : List α → α → Prop) (log : List α) : Prop :=
  ∀ before a after, log = before ++ a :: after → allowed before a

theorem preceded_nil {α : Type w} {allowed : List α → α → Prop} : Preceded allowed [] := by
  intro before a after h
  simp at h

theorem Preceded.concat {α : Type w} {allowed : List α → α → Prop} {log : List α} {a : α}
    (h : Preceded allowed log) (ha : allowed log a) : Preceded allowed (log ++ [a]) := by
  intro before b after heq
  induction after using List.reverseRecOn with
  | nil =>
    obtain ⟨rfl, hlast⟩ := List.append_inj' heq rfl
    obtain rfl := (List.cons.inj hlast).1
    exact ha
  | append_singleton after c =>
    rw [← List.cons_append, ← List.append_assoc] at heq
    obtain ⟨rfl, -⟩ := List.append_inj' heq rfl
    exact h _ _ _ rfl

/-! ## Partial step functions -/

/-- How many labels are marked in the state where a step function takes them. -/
def tally (next : σ → ε → Option σ) (mark : σ → ε → Bool) (s : σ) : List ε → Nat
  | [] => 0
  | e :: es => (mark s e).toNat + (next s e).elim 0 fun t => tally next mark t es

theorem tally_append {next : σ → ε → Option σ} {mark : σ → ε → Bool}
    (h : Exec (fun s e t => next s e = some t) s es t) :
    tally next mark s (es ++ fs) = tally next mark s es + tally next mark t fs := by
  induction h generalizing fs with
  | nil => simp [tally]
  | @snoc es t u e run last ih =>
    have hlast : tally next mark t (e :: fs) = (mark t e).toNat + tally next mark u fs := by
      simp [tally, last]
    have hone : tally next mark t [e] = (mark t e).toNat := by
      simp [tally, last]
    rw [List.append_assoc, List.singleton_append, ih, hlast, ih, hone]
    omega

/-- The state that a step function leads to, where every label can be taken. -/
def follow (next : σ → ε → Option σ) (s : σ) : List ε → Option σ
  | [] => some s
  | e :: es => (next s e).bind fun t => follow next t es

theorem exec_of_follow {next : σ → ε → Option σ} (h : follow next s es = some t) :
    Exec (fun s e t => next s e = some t) s es t := by
  induction es generalizing s with
  | nil =>
    obtain rfl := Option.some.inj h
    exact .nil
  | cons e es ih =>
    obtain ⟨u, hstep, hrest⟩ := Option.bind_eq_some_iff.mp h
    exact (Exec.single hstep).append (ih hrest)

/-- The marks of a run with one more step. -/
theorem tally_snoc {next : σ → ε → Option σ} {mark : σ → ε → Bool}
    (h : Exec (fun s e t => next s e = some t) s es t) (hlast : next t e = some u) :
    tally next mark s (es ++ [e]) = tally next mark s es + (mark t e).toNat := by
  rw [tally_append h]
  simp [tally, hlast]

/-! ## Runs of a step function -/

/-- Every label meets `P` in the state where a total step function takes it. -/
def Along (next : σ → ε → σ) (P : ε → σ → Prop) (s : σ) : List ε → Prop
  | [] => True
  | e :: es => P e s ∧ Along next P (next s e) es

section Along

variable {next : σ → ε → σ} {P Q : ε → σ → Prop}

theorem Along.of_invariant {I : σ → Prop} (h : Along next P s es) (hs : I s)
    (hstep : ∀ s e, I s → P e s → I (next s e) ∧ Q e s) : Along next Q s es := by
  induction es generalizing s with
  | nil => trivial
  | cons e es ih =>
    obtain ⟨hnext, hq⟩ := hstep s e hs h.1
    exact ⟨hq, ih h.2 hnext⟩

theorem Along.mono (h : Along next P s es) (hstep : ∀ s e, P e s → Q e s) : Along next Q s es :=
  h.of_invariant (I := fun _ => True) trivial fun s e _ he => ⟨trivial, hstep s e he⟩

theorem Along.and (hp : Along next P s es) (hq : Along next Q s es) :
    Along next (fun e s => P e s ∧ Q e s) s es := by
  induction es generalizing s with
  | nil => trivial
  | cons e es ih => exact ⟨⟨hp.1, hq.1⟩, ih hp.2 hq.2⟩

/-- A reflexive and transitive relation that contains every step contains the run. -/
theorem Along.relates {R : σ → σ → Prop} (h : Along next P s es) (hrefl : ∀ s, R s s)
    (htrans : ∀ a b c, R a b → R b c → R a c) (hstep : ∀ s e, P e s → R s (next s e)) :
    R s (es.foldl next s) := by
  induction es generalizing s with
  | nil => exact hrefl s
  | cons e es ih => exact htrans _ _ _ (hstep s e h.1) (ih h.2)

end Along

/-! ## Simulations -/

/-- What a step with observation `o` may do to the state `a` of an observed
machine, where `R` relates it to the state the step leads to: nothing for no
observation, and one step for an observation. -/
def Simulates {τ : Type w} {ω : Type x} (spec : τ → ω → τ → Prop) (R : τ → Prop) (a : τ) :
    Option ω → Prop
  | none => R a
  | some o => ∃ b, spec a o b ∧ R b

/-- A simulation: a step with no observation stutters, and a step with one is
a step of the observed machine. -/
theorem Exec.refine {τ : Type w} {ω : Type x} {spec : τ → ω → τ → Prop} {obs : ε → Option ω}
    {R : σ → τ → Prop} {a : τ} (h : Exec step s es t) (hs : R s a)
    (hsim : ∀ s e t a, R s a → step s e t → Simulates spec (R t) a (obs e)) :
    ∃ b, Exec spec a (es.filterMap obs) b ∧ R t b := by
  induction h with
  | nil => exact ⟨a, .nil, hs⟩
  | @snoc es t u e run last ih =>
    obtain ⟨b, hrun, hR⟩ := ih
    have hnext := hsim _ _ _ _ hR last
    rw [List.filterMap_append]
    cases hobs : obs e with
    | none =>
      rw [hobs] at hnext
      exact ⟨b, by simpa [hobs] using hrun, hnext⟩
    | some o =>
      rw [hobs] at hnext
      obtain ⟨c, hspec, hR'⟩ := hnext
      exact ⟨c, by simpa [hobs] using hrun.snoc hspec, hR'⟩

/-- A simulation of every step by one with the same label. -/
theorem Exec.simulate {τ : Type w} {spec : τ → ε → τ → Prop} {R : σ → τ → Prop} {a : τ}
    (h : Exec step s es t) (hs : R s a)
    (hsim : ∀ s e t a, R s a → step s e t → ∃ b, spec a e b ∧ R t b) :
    ∃ b, Exec spec a es b ∧ R t b := by
  induction h with
  | nil => exact ⟨a, .nil, hs⟩
  | snoc _ last ih =>
    obtain ⟨b, hrun, hR⟩ := ih
    obtain ⟨c, hspec, hR'⟩ := hsim _ _ _ _ hR last
    exact ⟨c, hrun.snoc hspec, hR'⟩

end Trace
