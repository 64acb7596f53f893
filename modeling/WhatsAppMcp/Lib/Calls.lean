import Mathlib.Logic.Basic
import Mathlib.Tactic.Common

/-!
# Programs that call into a moving world

A program of type `Prog Q A ε α` computes between its queries, and a query `q`
comes back with an answer of type `A q`.  It ends with a value of type `α` or
throws an `ε`.

What a query does is a relation: `answers s q a t` says that a query asked in
the state `s` of the world may be answered with `a` in the state `t`.  Other
parties move while the program waits, so `t` need not be determined by `s`.

`Prog.Runs` is the meaning of a program, and the lemmas `runs_*` take it apart
along the program.  `Prog.Runs.invariant` is the rule for what every answer
keeps.
-/

namespace Calls

variable {σ Q ε α β : Type} {A : Q → Type}

/-- A program: it ends, it throws, or it asks a query and goes on with the answer. -/
inductive Prog (Q : Type) (A : Q → Type) (ε α : Type)
  | done (a : α)
  | fail (e : ε)
  | ask (q : Q) (next : A q → Prog Q A ε α)

namespace Prog

/-- The program that goes on with the value of `p`. -/
def andThen (p : Prog Q A ε α) (f : α → Prog Q A ε β) : Prog Q A ε β :=
  match p with
  | done a => f a
  | fail e => fail e
  | ask q next => ask q fun a => (next a).andThen f

/-- The program that goes on with what `p` throws. -/
def handle (p : Prog Q A ε α) (h : ε → Prog Q A ε α) : Prog Q A ε α :=
  match p with
  | done a => done a
  | fail e => h e
  | ask q next => ask q fun a => (next a).handle h

instance : Monad (Prog Q A ε) where
  pure := done
  bind := andThen

instance : MonadExceptOf ε (Prog Q A ε) where
  throw := fail
  tryCatch := handle

/-- One query. -/
def query (q : Q) : Prog Q A ε (A q) := ask q done

/-- The program ends with the result `r`, and has taken the world from `s` to `t`. -/
def Runs (answers : σ → (q : Q) → A q → σ → Prop) :
    Prog Q A ε α → σ → Except ε α → σ → Prop
  | done a, s, r, t => r = .ok a ∧ t = s
  | fail e, s, r, t => r = .error e ∧ t = s
  | ask q next, s, r, t => ∃ a u, answers s q a u ∧ Runs answers (next a) u r t

variable {answers : σ → (q : Q) → A q → σ → Prop} {s t : σ} {r : Except ε α}

/-! ## Taking a run apart -/

@[simp] theorem runs_pure {a : α} :
    Runs answers (pure a : Prog Q A ε α) s r t ↔ r = .ok a ∧ t = s := Iff.rfl

@[simp] theorem runs_throw {e : ε} :
    Runs answers (throw e : Prog Q A ε α) s r t ↔ r = .error e ∧ t = s := Iff.rfl

theorem runs_query {q : Q} {r : Except ε (A q)} :
    Runs answers (query q : Prog Q A ε (A q)) s r t ↔ ∃ a, answers s q a t ∧ r = .ok a := by
  constructor
  · intro h
    obtain ⟨a, u, ha, rfl, rfl⟩ := h
    exact ⟨a, ha, rfl⟩
  · intro h
    obtain ⟨a, ha, rfl⟩ := h
    exact ⟨a, t, ha, rfl, rfl⟩

theorem runs_bind {p : Prog Q A ε β} {f : β → Prog Q A ε α} :
    Runs answers (p >>= f) s r t ↔
      (∃ b u, Runs answers p s (.ok b) u ∧ Runs answers (f b) u r t) ∨
        ∃ e, Runs answers p s (.error e) t ∧ r = .error e := by
  show Runs answers (p.andThen f) s r t ↔ _
  induction p generalizing s with
  | done b =>
    constructor
    · intro h
      exact .inl ⟨b, s, ⟨rfl, rfl⟩, h⟩
    · intro h
      obtain ⟨_, _, ⟨hb, rfl⟩, h⟩ | ⟨_, ⟨he, -⟩, -⟩ := h
      · cases hb
        exact h
      · cases he
  | fail e =>
    constructor
    · intro h
      obtain ⟨rfl, rfl⟩ := h
      exact .inr ⟨e, ⟨rfl, rfl⟩, rfl⟩
    · intro h
      obtain ⟨_, _, ⟨hb, -⟩, -⟩ | ⟨_, ⟨he, rfl⟩, rfl⟩ := h
      · cases hb
      · cases he
        exact ⟨rfl, rfl⟩
  | ask q next ih =>
    constructor
    · intro h
      obtain ⟨a, u, ha, hrest⟩ := h
      obtain ⟨b, v, hp, hf⟩ | ⟨e, hp, hr⟩ := (ih a).mp hrest
      · exact .inl ⟨b, v, ⟨a, u, ha, hp⟩, hf⟩
      · exact .inr ⟨e, ⟨a, u, ha, hp⟩, hr⟩
    · intro h
      obtain ⟨b, v, ⟨a, u, ha, hp⟩, hf⟩ | ⟨e, ⟨a, u, ha, hp⟩, hr⟩ := h
      · exact ⟨a, u, ha, (ih a).mpr (.inl ⟨b, v, hp, hf⟩)⟩
      · exact ⟨a, u, ha, (ih a).mpr (.inr ⟨e, hp, hr⟩)⟩

theorem runs_tryCatch {p : Prog Q A ε α} {h : ε → Prog Q A ε α} :
    Runs answers (tryCatch p h) s r t ↔
      (∃ a, Runs answers p s (.ok a) t ∧ r = .ok a) ∨
        ∃ e u, Runs answers p s (.error e) u ∧ Runs answers (h e) u r t := by
  show Runs answers (p.handle h) s r t ↔ _
  induction p generalizing s with
  | done a =>
    constructor
    · intro hrun
      obtain ⟨rfl, rfl⟩ := hrun
      exact .inl ⟨a, ⟨rfl, rfl⟩, rfl⟩
    · intro hrun
      obtain ⟨_, ⟨ha, rfl⟩, rfl⟩ | ⟨_, _, ⟨he, -⟩, -⟩ := hrun
      · cases ha
        exact ⟨rfl, rfl⟩
      · cases he
  | fail e =>
    constructor
    · intro hrun
      exact .inr ⟨e, s, ⟨rfl, rfl⟩, hrun⟩
    · intro hrun
      obtain ⟨_, ⟨ha, -⟩, -⟩ | ⟨_, _, ⟨he, rfl⟩, hrun⟩ := hrun
      · cases ha
      · cases he
        exact hrun
  | ask q next ih =>
    constructor
    · intro hrun
      obtain ⟨a, u, ha, hrest⟩ := hrun
      obtain ⟨b, hp, hr⟩ | ⟨e, v, hp, hh⟩ := (ih a).mp hrest
      · exact .inl ⟨b, ⟨a, u, ha, hp⟩, hr⟩
      · exact .inr ⟨e, v, ⟨a, u, ha, hp⟩, hh⟩
    · intro hrun
      obtain ⟨b, ⟨a, u, ha, hp⟩, hr⟩ | ⟨e, v, ⟨a, u, ha, hp⟩, hh⟩ := hrun
      · exact ⟨a, u, ha, (ih a).mpr (.inl ⟨b, hp, hr⟩)⟩
      · exact ⟨a, u, ha, (ih a).mpr (.inr ⟨e, v, hp, hh⟩)⟩

/-- The value of a program that goes on with another is that of the other. -/
theorem runs_bind_ok {p : Prog Q A ε β} {f : β → Prog Q A ε α} {a : α} :
    Runs answers (p >>= f) s (.ok a) t ↔
      ∃ b u, Runs answers p s (.ok b) u ∧ Runs answers (f b) u (.ok a) t := by
  rw [runs_bind]
  constructor
  · intro h
    obtain hrun | ⟨e, -, he⟩ := h
    · exact hrun
    · cases he
  · exact .inl

/-- Where the handler only throws, a value is that of the program itself. -/
theorem runs_rethrow_ok {p : Prog Q A ε α} {e' : ε} {a : α} :
    Runs answers (tryCatch p fun _ => throw e') s (.ok a) t ↔ Runs answers p s (.ok a) t := by
  rw [runs_tryCatch]
  constructor
  · intro h
    obtain ⟨b, hrun, hb⟩ | ⟨_, _, -, ha, -⟩ := h
    · cases hb
      exact hrun
    · cases ha
  · exact fun h => .inl ⟨a, h, rfl⟩

/-! ## What every answer keeps -/

theorem Runs.invariant {P : σ → Prop} {p : Prog Q A ε α} (h : Runs answers p s r t) (hs : P s)
    (hanswers : ∀ s q a t, answers s q a t → P s → P t) : P t := by
  induction p generalizing s with
  | done a => exact h.2 ▸ hs
  | fail e => exact h.2 ▸ hs
  | ask q next ih =>
    obtain ⟨a, u, ha, hrest⟩ := h
    exact ih a hrest (hanswers s q a u ha hs)

/-! ## Running a program -/

/-- The program with a world that answers by a function. -/
def eval (respond : σ → (q : Q) → A q × σ) : Prog Q A ε α → σ → Except ε α × σ
  | done a, s => (.ok a, s)
  | fail e, s => (.error e, s)
  | ask q next, s => (next (respond s q).1).eval respond (respond s q).2

/-- In a world that answers by a function, within an invariant. -/
theorem eval_runs {respond : σ → (q : Q) → A q × σ} {P : σ → Prop}
    (hrespond : ∀ s q, P s → answers s q (respond s q).1 (respond s q).2 ∧ P (respond s q).2)
    (p : Prog Q A ε α) {s : σ} (hs : P s) :
    Runs answers p s (p.eval respond s).1 (p.eval respond s).2 := by
  induction p generalizing s with
  | done a => exact ⟨rfl, rfl⟩
  | fail e => exact ⟨rfl, rfl⟩
  | ask q next ih =>
    obtain ⟨hanswer, hnext⟩ := hrespond s q hs
    exact ⟨_, _, hanswer, ih _ hnext⟩

end Prog

end Calls
