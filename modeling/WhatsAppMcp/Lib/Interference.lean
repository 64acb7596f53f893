import Mathlib.Logic.Function.Basic
import WhatsAppMcp.Lib.Calls
import WhatsAppMcp.Lib.Trace

/-!
# Tasks under interference

Several tasks run beside each other in one world.  Between two queries of a task
the others move it, and a `Contract` says how far: the task relies on `rely`, and
each of its own queries does no more than `guar` allows.

`Prog.Keeps c p post s` says that the program `p`, from the world `s` on, keeps
the contract `c` and ends in `post`, whatever the others do within it.

* `Keeps.bind`, `Keeps.tryCatch`: the rules along a program.
* `Keeps.carry`: what the others and the task itself keep.
* `Team.Sound.kept`: where what each task guarantees is what the others rely on,
  every task of every run keeps its contract.
* `Team.exec_call`: a task that is alone in a world that answers it.
-/

namespace Calls

variable {σ Q ε α β κ : Type} {A : Q → Type}

/-- What a task relies on, what its queries do, and what it guarantees. -/
structure Contract (σ Q : Type) (A : Q → Type) where
  rely : σ → σ → Prop
  guar : σ → σ → Prop
  does : σ → (q : Q) → A q → σ → Prop
  refl : ∀ s, rely s s
  trans : ∀ {s t u}, rely s t → rely t u → rely s u

namespace Prog

/-- From `s` on the program keeps the contract and ends in `post`. -/
def Keeps (c : Contract σ Q A) :
    Prog Q A ε α → (Except ε α → σ → Prop) → σ → Prop
  | done a, post, s => ∀ t, c.rely s t → post (.ok a) t
  | fail e, post, s => ∀ t, c.rely s t → post (.error e) t
  | ask q next, post, s => ∀ t, c.rely s t → ∀ a u, c.does t q a u →
      c.guar t u ∧ Keeps c (next a) post u

variable {c : Contract σ Q A} {post : Except ε α → σ → Prop} {s t : σ}

/-- The others may move first. -/
theorem Keeps.rely {p : Prog Q A ε α} (h : p.Keeps c post s) (hst : c.rely s t) :
    p.Keeps c post t := by
  cases p with
  | done a => exact fun u hu => h u (c.trans hst hu)
  | fail e => exact fun u hu => h u (c.trans hst hu)
  | ask q next => exact fun u hu => h u (c.trans hst hu)

/-! ## Rules along the program -/

theorem keeps_pure {a : α} (h : ∀ t, c.rely s t → post (.ok a) t) :
    (pure a : Prog Q A ε α).Keeps c post s := h

theorem keeps_throw {e : ε} (h : ∀ t, c.rely s t → post (.error e) t) :
    (throw e : Prog Q A ε α).Keeps c post s := h

theorem Keeps.imp {p : Prog Q A ε α} {post' : Except ε α → σ → Prop} (h : p.Keeps c post s)
    (himp : ∀ r t, post r t → post' r t) : p.Keeps c post' s := by
  induction p generalizing s with
  | done a => exact fun t ht => himp _ t (h t ht)
  | fail e => exact fun t ht => himp _ t (h t ht)
  | ask q next ih =>
    intro t ht a u hdoes
    obtain ⟨hguar, hnext⟩ := h t ht a u hdoes
    exact ⟨hguar, ih a hnext⟩

theorem Keeps.bind {p : Prog Q A ε β} {f : β → Prog Q A ε α} {mid : Except ε β → σ → Prop}
    (h : p.Keeps c mid s) (hok : ∀ b t, mid (.ok b) t → (f b).Keeps c post t)
    (herror : ∀ e t, mid (.error e) t → post (.error e) t) : (p >>= f).Keeps c post s := by
  show (p.andThen f).Keeps c post s
  induction p generalizing s with
  | done b => exact hok b s (h s (c.refl s))
  | fail e => exact fun t ht => herror e t (h t ht)
  | ask q next ih =>
    intro t ht a u hdoes
    obtain ⟨hguar, hnext⟩ := h t ht a u hdoes
    exact ⟨hguar, ih a hnext⟩

theorem Keeps.tryCatch {p : Prog Q A ε α} {handler : ε → Prog Q A ε α}
    {mid : Except ε α → σ → Prop} (h : p.Keeps c mid s)
    (hok : ∀ a t, mid (.ok a) t → post (.ok a) t)
    (herror : ∀ e t, mid (.error e) t → (handler e).Keeps c post t) :
    (tryCatch p handler).Keeps c post s := by
  show (p.handle handler).Keeps c post s
  induction p generalizing s with
  | done a => exact fun t ht => hok a t (h t ht)
  | fail e => exact herror e s (h s (c.refl s))
  | ask q next ih =>
    intro t ht a u hdoes
    obtain ⟨hguar, hnext⟩ := h t ht a u hdoes
    exact ⟨hguar, ih a hnext⟩

/-- What the others keep and every query keeps rides along. -/
theorem Keeps.carry (J : σ → Prop) {p : Prog Q A ε α} (h : p.Keeps c post s) (hs : J s)
    (hrely : ∀ {t u}, J t → c.rely t u → J u) (hguar : ∀ {t u}, J t → c.guar t u → J u) :
    p.Keeps c (fun r t => J t ∧ post r t) s := by
  induction p generalizing s with
  | done a => exact fun t ht => ⟨hrely hs ht, h t ht⟩
  | fail e => exact fun t ht => ⟨hrely hs ht, h t ht⟩
  | ask q next ih =>
    intro t ht a u hdoes
    obtain ⟨hown, hnext⟩ := h t ht a u hdoes
    exact ⟨hown, ih a hnext (hguar (hrely hs ht) hown)⟩

/-- A contract may promise less and rely on more. -/
theorem Keeps.weaken {c' : Contract σ Q A} {p : Prog Q A ε α} (h : p.Keeps c post s)
    (hrely : ∀ s t, c'.rely s t → c.rely s t)
    (hdoes : ∀ s q a t, c'.does s q a t → c.does s q a t)
    (hguar : ∀ s t, c.guar s t → c'.guar s t) : p.Keeps c' post s := by
  induction p generalizing s with
  | done a => exact fun t ht => h t (hrely s t ht)
  | fail e => exact fun t ht => h t (hrely s t ht)
  | ask q next ih =>
    intro t ht a u hdone
    obtain ⟨hown, hnext⟩ := h t (hrely s t ht) a u (hdoes t q a u hdone)
    exact ⟨hguar t u hown, ih a hnext⟩

/-! ## Where only a value matters -/

/-- From `s` on the program keeps the contract, and a value of it satisfies `post`. -/
def Gives (c : Contract σ Q A) (p : Prog Q A ε α) (s : σ) (post : α → σ → Prop) : Prop :=
  p.Keeps c (fun r t => ∀ a, r = .ok a → post a t) s

section Values

variable {post : α → σ → Prop}

theorem gives_pure {a : α} (h : ∀ t, c.rely s t → post a t) :
    (pure a : Prog Q A ε α).Gives c s post := by
  intro t ht b hb
  cases hb
  exact h t ht

theorem gives_throw {e : ε} : (throw e : Prog Q A ε α).Gives c s post := by
  intro t _ a ha
  cases ha

theorem Gives.bind {p : Prog Q A ε β} {f : β → Prog Q A ε α} {mid : β → σ → Prop}
    (h : p.Gives c s mid) (hf : ∀ b t, mid b t → (f b).Gives c t post) :
    (p >>= f).Gives c s post := by
  refine Keeps.bind h (fun b t hmid => hf b t (hmid b rfl)) fun e t _ a ha => ?_
  cases ha

theorem Gives.imp {p : Prog Q A ε α} {post' : α → σ → Prop} (h : p.Gives c s post)
    (himp : ∀ a t, post a t → post' a t) : p.Gives c s post' :=
  Keeps.imp h fun _ t hpost a ha => himp a t (hpost a ha)

theorem Gives.orElse {p : Prog Q A ε α} {handler : ε → Prog Q A ε α} (h : p.Gives c s post)
    (hhandler : ∀ e t, (handler e).Gives c t post) : (tryCatch p handler).Gives c s post :=
  Keeps.tryCatch h (fun _ _ hmid => hmid) fun e t _ => hhandler e t

end Values

/-! ## Alone -/

section Alone

variable {respond : σ → (q : Q) → Option (A q × σ)}

/-- The program with a world that answers by a function, as far as it answers. -/
def play (respond : σ → (q : Q) → Option (A q × σ)) :
    Prog Q A ε α → σ → Option (Except ε α × σ)
  | done a, s => some (.ok a, s)
  | fail e, s => some (.error e, s)
  | ask q next, s => (respond s q).bind fun r => (next r.1).play respond r.2

theorem play_bind {p : Prog Q A ε β} {f : β → Prog Q A ε α} {s t : σ} {b : β}
    (h : p.play respond s = some (.ok b, t)) : (p >>= f).play respond s = (f b).play respond t := by
  show (p.andThen f).play respond s = _
  induction p generalizing s with
  | done c =>
    cases h
    rfl
  | fail e => cases h
  | ask q next ih =>
    obtain ⟨r, hr, hnext⟩ := Option.bind_eq_some_iff.mp h
    show (respond s q).bind _ = _
    rw [hr]
    exact ih r.1 hnext

theorem play_tryCatch {p : Prog Q A ε α} {handler : ε → Prog Q A ε α} {s t : σ} {a : α}
    (h : p.play respond s = some (.ok a, t)) :
    (tryCatch p handler).play respond s = some (.ok a, t) := by
  show (p.handle handler).play respond s = _
  induction p generalizing s with
  | done c => exact h
  | fail e => cases h
  | ask q next ih =>
    obtain ⟨r, hr, hnext⟩ := Option.bind_eq_some_iff.mp h
    show (respond s q).bind _ = _
    rw [hr]
    exact ih r.1 hnext

end Alone

end Prog

/-! ## Teams -/

/-- A task on its way: its kind, the world in which it started, and what is left of it. -/
structure Task (σ κ Q : Type) (A : Q → Type) (ε α : Type) where
  kind : κ
  start : σ
  rest : Prog Q A ε α

/-- A world with its tasks. -/
structure Team (σ κ Q : Type) (A : Q → Type) (ε α : Type) where
  world : σ
  tasks : Nat → Option (Task σ κ Q A ε α)

/-- The team with the world in state `t` and task `i` at `task`. -/
def Team.set (p : Team σ κ Q A ε α) (i : Nat) (t : σ) (task : Task σ κ Q A ε α) :
    Team σ κ Q A ε α :=
  ⟨t, Function.update p.tasks i (some task)⟩

/-- One step: the world moves by itself, or task `i` starts, or it is answered. -/
inductive Team.Step (moves : σ → σ → Prop) (does : Nat → σ → (q : Q) → A q → σ → Prop)
    (program : Nat → κ → Prog Q A ε α) :
    Team σ κ Q A ε α → Option Nat → Team σ κ Q A ε α → Prop
  | move {p : Team σ κ Q A ε α} {t : σ} (hmove : moves p.world t) :
      Step moves does program p none ⟨t, p.tasks⟩
  | start {p : Team σ κ Q A ε α} {i : Nat} (kind : κ) (hidle : p.tasks i = none) :
      Step moves does program p (some i) (p.set i p.world ⟨kind, p.world, program i kind⟩)
  | ask {p : Team σ κ Q A ε α} {i : Nat} {kind : κ} {s t : σ} {q : Q}
      {next : A q → Prog Q A ε α} {a : A q} (htask : p.tasks i = some ⟨kind, s, .ask q next⟩)
      (hdoes : does i p.world q a t) :
      Step moves does program p (some i) (p.set i t ⟨kind, s, next a⟩)

/-- The tasks of a team after task `i` was set. -/
theorem Team.set_cases {p : Team σ κ Q A ε α} {i j : Nat} {t : σ}
    {task other : Task σ κ Q A ε α} (h : (p.set i t task).tasks j = some other) :
    j = i ∧ other = task ∨ j ≠ i ∧ p.tasks j = some other := by
  change Function.update p.tasks i (some task) j = some other at h
  by_cases hj : j = i
  · subst hj
    rw [Function.update_self] at h
    exact .inl ⟨rfl, (Option.some.inj h).symm⟩
  · rw [Function.update_of_ne hj] at h
    exact .inr ⟨hj, h⟩

/-- The tasks fit together: what one does, the others rely on, all of them keep an
invariant of the world, and a task finds the world fresh for it when it starts. -/
structure Team.Sound (moves : σ → σ → Prop) (program : Nat → κ → Prog Q A ε α)
    (c : Nat → Contract σ Q A) (inv : σ → Prop) (fresh : Nat → σ → Prop)
    (post : Nat → κ → σ → Except ε α → σ → Prop) : Prop where
  moves_rely : ∀ i s t, moves s t → (c i).rely s t
  guar_rely : ∀ i j s t, j ≠ i → (c i).guar s t → (c j).rely s t
  moves_inv : ∀ s t, inv s → moves s t → inv t
  guar_inv : ∀ i s t, inv s → (c i).guar s t → inv t
  rely_fresh : ∀ i s t, (c i).rely s t → fresh i s → fresh i t
  keeps : ∀ i kind s, inv s → fresh i s → (program i kind).Keeps (c i) (post i kind s) s

/-- The invariant holds, the world is fresh for every task that has not started, and what is
left of each other keeps its contract. -/
structure Team.Kept (c : Nat → Contract σ Q A) (inv : σ → Prop) (fresh : Nat → σ → Prop)
    (post : Nat → κ → σ → Except ε α → σ → Prop) (p : Team σ κ Q A ε α) : Prop where
  inv : inv p.world
  idle : ∀ i, p.tasks i = none → fresh i p.world
  tasks : ∀ i task, p.tasks i = some task → task.rest.Keeps (c i) (post i task.kind task.start) p.world

namespace Team

variable {moves : σ → σ → Prop} {program : Nat → κ → Prog Q A ε α} {c : Nat → Contract σ Q A}
  {inv : σ → Prop} {fresh : Nat → σ → Prop} {post : Nat → κ → σ → Except ε α → σ → Prop}
  {p p' : Team σ κ Q A ε α} {does : Nat → σ → (q : Q) → A q → σ → Prop}
  {respond : σ → (q : Q) → Option (A q × σ)}

/-- A task that has not started after task `i` was set had not started before. -/
theorem set_idle {i j : Nat} {t : σ} {task : Task σ κ Q A ε α}
    (h : (p.set i t task).tasks j = none) : j ≠ i ∧ p.tasks j = none := by
  change Function.update p.tasks i (some task) j = none at h
  by_cases hj : j = i
  · subst hj
    rw [Function.update_self] at h
    cases h
  · rw [Function.update_of_ne hj] at h
    exact ⟨hj, h⟩

theorem Sound.step (h : Sound moves program c inv fresh post) (hp : p.Kept c inv fresh post)
    {who : Option Nat} (hstep : Step moves (fun i => (c i).does) program p who p') :
    p'.Kept c inv fresh post := by
  cases hstep with
  | move hmove =>
    refine ⟨h.moves_inv _ _ hp.inv hmove, fun i hidle => ?_, fun i task htask => ?_⟩
    · exact h.rely_fresh i _ _ (h.moves_rely i _ _ hmove) (hp.idle i hidle)
    · exact (hp.tasks i task htask).rely (h.moves_rely i _ _ hmove)
  | start kind hidle =>
    refine ⟨hp.inv, fun j hother => hp.idle j (set_idle hother).2, fun j task htask => ?_⟩
    rcases set_cases htask with ⟨rfl, rfl⟩ | ⟨-, htask⟩
    · exact h.keeps j kind _ hp.inv (hp.idle j hidle)
    · exact hp.tasks j task htask
  | @ask i kind s t q next a htask hdoes =>
    have hkeeps := hp.tasks i _ htask
    obtain ⟨hguar, hnext⟩ := hkeeps _ ((c i).refl _) a _ hdoes
    refine ⟨h.guar_inv i _ _ hp.inv hguar, fun j hother => ?_, fun j task hother => ?_⟩
    · obtain ⟨hne, hidle⟩ := set_idle hother
      exact h.rely_fresh j _ _ (h.guar_rely i j _ _ hne hguar) (hp.idle j hidle)
    · rcases set_cases hother with ⟨rfl, rfl⟩ | ⟨hne, hother⟩
      · exact hnext
      · exact (hp.tasks j task hother).rely (h.guar_rely i j _ _ hne hguar)

/-- Every task of every run keeps its contract. -/
theorem Sound.kept (h : Sound moves program c inv fresh post) {s : σ} (hs : inv s)
    (hfresh : ∀ i, fresh i s) {es : List (Option Nat)}
    (hrun : Trace.Exec (Step moves (fun i => (c i).does) program) ⟨s, fun _ => none⟩ es p) :
    p.Kept c inv fresh post := by
  refine hrun.invariant ⟨hs, fun i _ => hfresh i, fun _ _ htask => ?_⟩ fun _ _ _ hp hstep =>
    h.step hp hstep
  cases htask

/-- What never goes back in the world has not gone back when a task starts. -/
theorem Sound.started (h : Sound moves program c inv fresh post) (R : σ → σ → Prop)
    (hrefl : ∀ s, R s s) (htrans : ∀ {s t u}, R s t → R t u → R s u)
    (hmoves : ∀ s t, moves s t → R s t) (hguar : ∀ i s t, (c i).guar s t → R s t)
    (hp : p.Kept c inv fresh post) {es : List (Option Nat)}
    (hrun : Trace.Exec (Step moves (fun i => (c i).does) program) p es p') :
    R p.world p'.world ∧ ∀ i task, p.tasks i = none → p'.tasks i = some task → R p.world task.start := by
  suffices hall : p'.Kept c inv fresh post ∧ R p.world p'.world ∧
      ∀ i task, p.tasks i = none → p'.tasks i = some task → R p.world task.start from hall.2
  induction hrun with
  | nil =>
    refine ⟨hp, hrefl _, fun i task hnone hsome => ?_⟩
    rw [hnone] at hsome
    cases hsome
  | snoc run last ih =>
    obtain ⟨hkept, hworld, htasks⟩ := ih
    refine ⟨h.step hkept last, ?_⟩
    cases last with
    | move hmove => exact ⟨htrans hworld (hmoves _ _ hmove), htasks⟩
    | @start j kind hidle =>
      refine ⟨hworld, fun i task hnone hsome => ?_⟩
      rcases set_cases hsome with ⟨rfl, rfl⟩ | ⟨-, hsome⟩
      · exact hworld
      · exact htasks i task hnone hsome
    | @ask j kind s t q next a htask hdoes =>
      obtain ⟨hown, -⟩ := hkept.tasks j _ htask _ ((c j).refl _) a t hdoes
      refine ⟨htrans hworld (hguar j _ _ hown), fun i task hnone hsome => ?_⟩
      rcases set_cases hsome with ⟨rfl, rfl⟩ | ⟨-, hsome⟩
      · have hstart := htasks _ _ hnone htask
        exact hstart
      · exact htasks i task hnone hsome

/-- A task that has ended with a value is in its postcondition. -/
theorem Kept.ended (h : p.Kept c inv fresh post) {i : Nat} {kind : κ} {s : σ} {a : α}
    (htask : p.tasks i = some ⟨kind, s, .done a⟩) : post i kind s (.ok a) p.world :=
  h.tasks i _ htask p.world ((c i).refl _)

/-- A task that has thrown is in its postcondition. -/
theorem Kept.thrown (h : p.Kept c inv fresh post) {i : Nat} {kind : κ} {s : σ} {e : ε}
    (htask : p.tasks i = some ⟨kind, s, .fail e⟩) : post i kind s (.error e) p.world :=
  h.tasks i _ htask p.world ((c i).refl _)

/-- Task `i` goes on alone to its end. -/
theorem exec_play {i : Nat} {kind : κ} {s t : σ} {a : α}
    (hrespond : ∀ s q a t, respond s q = some (a, t) → does i s q a t) {rest : Prog Q A ε α}
    (htask : p.tasks i = some ⟨kind, s, rest⟩)
    (hplay : rest.play respond p.world = some (.ok a, t)) :
    ∃ es p', Trace.Exec (Step moves does program) p es p' ∧
      p'.tasks i = some ⟨kind, s, .done a⟩ ∧ p'.world = t := by
  induction rest generalizing p with
  | done b =>
    cases hplay
    exact ⟨[], p, .nil, htask, rfl⟩
  | fail e => cases hplay
  | ask q next ih =>
    obtain ⟨r, hr, hnext⟩ := Option.bind_eq_some_iff.mp hplay
    have hstep : Step moves does program p (some i) (p.set i r.2 ⟨kind, s, next r.1⟩) :=
      Step.ask htask (hrespond _ _ _ _ hr)
    have hset : (p.set i r.2 ⟨kind, s, next r.1⟩).tasks i = some ⟨kind, s, next r.1⟩ :=
      Function.update_self ..
    obtain ⟨es, p', hrun, hdone, hworld⟩ := ih r.1 hset hnext
    exact ⟨[some i] ++ es, p', (Trace.Exec.single hstep).append hrun, hdone, hworld⟩

/-- Task `i` starts and goes on alone to its end. -/
theorem exec_call {i : Nat} {kind : κ} {t : σ} {a : α}
    (hrespond : ∀ s q a t, respond s q = some (a, t) → does i s q a t) (hidle : p.tasks i = none)
    (hplay : (program i kind).play respond p.world = some (.ok a, t)) :
    ∃ es p', Trace.Exec (Step moves does program) p es p' ∧
      p'.tasks i = some ⟨kind, p.world, .done a⟩ ∧ p'.world = t := by
  have hstart : Step moves does program p (some i) _ := Step.start kind hidle
  have hset : (p.set i p.world ⟨kind, p.world, program i kind⟩).tasks i =
      some ⟨kind, p.world, program i kind⟩ := Function.update_self ..
  obtain ⟨es, p', hrun, hdone, hworld⟩ := exec_play hrespond hset hplay
  exact ⟨[some i] ++ es, p', (Trace.Exec.single hstart).append hrun, hdone, hworld⟩

end Team

end Calls
