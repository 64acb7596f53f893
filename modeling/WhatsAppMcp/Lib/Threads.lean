import WhatsAppMcp.Lib.Conversations
import WhatsAppMcp.Lib.Trace
import Mathlib.Logic.Function.Basic

/-!
# Threads of programs

Several programs run beside each other in one world.  Each stands at a query,
and any of them may be answered next.

What a program does depends on nothing but the answers it got.  A `Thread`
remembers them, and `Thread.Obeys` is the rule `Prog.Safe` for a world that may
answer anything: no other thread can break it.

* `Prog.Yields.obeys`: a thread that starts with a safe program obeys.
* `Pool.Step.obedient`: in a pool every thread goes on obeying.
* `Pool.Obedient.asked`: a query of a pool is allowed after what its thread was answered.
* `Pool.Obedient.ended`: a thread that has ended satisfies its postcondition.
* `Pool.Step.said_cases`: what a thread has said was answered in some step.
-/

namespace Calls

variable {σ Q ε α κ : Type} {A : Q → Type}

/-- A query and its answer, whatever the world did. -/
abbrev Said (A : Q → Type) := Turn Unit A

/-- The query came back with the answer. -/
abbrev said (q : Q) (a : A q) : Said A := ⟨(), q, a, ()⟩

/-- A world that may answer anything. -/
def anything (_ : Unit) (q : Q) (_ : A q) (_ : Unit) : Prop := True

/-- A program on its way. -/
structure Thread (Q : Type) (A : Q → Type) (ε α : Type) where
  past : List (Said A)
  rest : Prog Q A ε α

/-- After `past`, every query of the program is allowed, and a value of it
satisfies `post`, whatever the answers are. -/
def Prog.Obeys (allowed : List (Said A) → Q → Prop) (p : Prog Q A ε α) (past : List (Said A))
    (post : List (Said A) → α → Prop) : Prop :=
  Prog.Yields anything (fun past _ q => allowed past q) p past () fun past _ a => post past a

/-- The thread goes on as it must. -/
def Thread.Obeys (allowed : List (Said A) → Q → Prop) (post : List (Said A) → α → Prop)
    (th : Thread Q A ε α) : Prop :=
  th.rest.Obeys allowed th.past post

/-! ## Rules along a program -/

namespace Prog

variable {β : Type} {allowed : List (Said A) → Q → Prop} {past : List (Said A)}
  {post : List (Said A) → α → Prop}

theorem obeys_pure {a : α} (h : post past a) : (pure a : Prog Q A ε α).Obeys allowed past post :=
  yields_pure h

theorem obeys_throw {e : ε} : (throw e : Prog Q A ε α).Obeys allowed past post := yields_throw

theorem obeys_query {q : Q} {P : List (Said A) → A q → Prop} (hq : allowed past q)
    (h : ∀ a, P (past ++ [said q a]) a) :
    (query q : Prog Q A ε (A q)).Obeys allowed past P :=
  yields_query hq fun a _ _ => h a

theorem Obeys.imp {p : Prog Q A ε α} {post' : List (Said A) → α → Prop}
    (h : p.Obeys allowed past post) (himp : ∀ past a, post past a → post' past a) :
    p.Obeys allowed past post' :=
  Yields.imp h fun past _ a hpost => himp past a hpost

/-- What was said before the program is still said after it. -/
theorem Obeys.onward {p : Prog Q A ε α} (h : p.Obeys allowed past post) :
    p.Obeys allowed past fun past' a => past ⊆ past' ∧ post past' a := by
  induction p generalizing past with
  | done b => exact fun a ha => ⟨fun _ hturn => hturn, h a ha⟩
  | fail e => exact fun a ha => nomatch ha
  | ask q next ih =>
    refine ⟨h.1, fun a _ _ => ?_⟩
    refine (ih a (h.2 a () trivial)).imp fun past' b hb => ⟨fun turn hturn => ?_, hb.2⟩
    exact hb.1 (List.mem_append_left _ hturn)

theorem Obeys.bind {p : Prog Q A ε β} {f : β → Prog Q A ε α} {M : List (Said A) → β → Prop}
    (h : p.Obeys allowed past M)
    (hf : ∀ past' b, past ⊆ past' → M past' b → (f b).Obeys allowed past' post) :
    (p >>= f).Obeys allowed past post :=
  Yields.bind h.onward fun past' _ b hmid => hf past' b hmid.1 hmid.2

theorem Obeys.tryCatch {p : Prog Q A ε α} {handler : ε → Prog Q A ε α}
    (h : p.Obeys allowed past post)
    (hhandler : ∀ past' e, (handler e).Obeys allowed past' post) :
    (tryCatch p handler).Obeys allowed past post := by
  unfold Obeys Yields
  rw [safe_tryCatch]
  refine Safe.imp h fun past' _ r hr => ?_
  cases r with
  | ok a => exact hr
  | error e => exact hhandler past' e

end Prog

/-! ## One step of a thread -/

/-- The thread asks its query, and the world takes a step to answer it. -/
inductive Thread.Step (answers : σ → (q : Q) → A q → σ → Prop) (s : σ) :
    Thread Q A ε α → Said A → σ → Thread Q A ε α → Prop
  | ask {past : List (Said A)} {q : Q} {next : A q → Prog Q A ε α} {a : A q} {t : σ}
      (answer : answers s q a t) :
      Step answers s ⟨past, .ask q next⟩ (said q a) t ⟨past ++ [said q a], next a⟩

theorem Thread.Step.answer {answers : σ → (q : Q) → A q → σ → Prop} {s t : σ}
    {th th' : Thread Q A ε α} {turn : Said A} (h : th.Step answers s turn t th') :
    answers s turn.query turn.answer t := by
  cases h with
  | ask answer => exact answer

/-! ## Pools -/

/-- A world with its threads, each of some kind. -/
structure Pool (σ κ Q : Type) (A : Q → Type) (ε α : Type) where
  world : σ
  threads : Nat → Option (κ × Thread Q A ε α)

/-- The pool with the world in state `t` and thread `i` at `th`. -/
def Pool.set (p : Pool σ κ Q A ε α) (i : Nat) (t : σ) (kind : κ) (th : Thread Q A ε α) :
    Pool σ κ Q A ε α :=
  ⟨t, Function.update p.threads i (some (kind, th))⟩

theorem Pool.set_self {p : Pool σ κ Q A ε α} {i : Nat} {t : σ} {kind : κ} {th : Thread Q A ε α} :
    (p.set i t kind th).threads i = some (kind, th) := Function.update_self ..

theorem Pool.set_of_ne {p : Pool σ κ Q A ε α} {i j : Nat} {t : σ} {kind : κ}
    {th : Thread Q A ε α} (h : j ≠ i) : (p.set i t kind th).threads j = p.threads j :=
  Function.update_of_ne h ..

/-- One step of a pool: the world moves by itself, a thread starts with the
program of its kind, or a thread is answered. -/
inductive Pool.Step (moves : σ → σ → Prop) (answers : σ → (q : Q) → A q → σ → Prop)
    (starts : κ → Prop) (program : κ → Prog Q A ε α) :
    Pool σ κ Q A ε α → Option (Nat × Said A) → Pool σ κ Q A ε α → Prop
  | move {p : Pool σ κ Q A ε α} {t : σ} (hmove : moves p.world t) :
      Step moves answers starts program p none ⟨t, p.threads⟩
  | start {p : Pool σ κ Q A ε α} {i : Nat} {kind : κ} (hidle : p.threads i = none)
      (hkind : starts kind) :
      Step moves answers starts program p none (p.set i p.world kind ⟨[], program kind⟩)
  | ask {p : Pool σ κ Q A ε α} {i : Nat} {kind : κ} {th th' : Thread Q A ε α} {turn : Said A}
      {t : σ} (hthread : p.threads i = some (kind, th))
      (hstep : th.Step answers p.world turn t th') :
      Step moves answers starts program p (some (i, turn)) (p.set i t kind th')

/-- Every thread goes on as its kind must. -/
def Pool.Obedient (allowed : κ → List (Said A) → Q → Prop) (post : κ → List (Said A) → α → Prop)
    (p : Pool σ κ Q A ε α) : Prop :=
  ∀ i kind th, p.threads i = some (kind, th) → th.Obeys (allowed kind) (post kind)

section Pools

variable {moves : σ → σ → Prop} {answers : σ → (q : Q) → A q → σ → Prop} {starts : κ → Prop}
  {program : κ → Prog Q A ε α} {allowed : κ → List (Said A) → Q → Prop}
  {post : κ → List (Said A) → α → Prop} {p p' : Pool σ κ Q A ε α} {d : Option (Nat × Said A)}

/-- The threads of a pool after thread `i` was set. -/
theorem Pool.set_cases {i j : Nat} {t : σ} {kind other : κ} {th v : Thread Q A ε α}
    (h : (p.set i t kind th).threads j = some (other, v)) :
    j = i ∧ other = kind ∧ v = th ∨ j ≠ i ∧ p.threads j = some (other, v) := by
  by_cases hj : j = i
  · subst hj
    rw [Pool.set_self] at h
    cases h
    exact Or.inl ⟨rfl, rfl, rfl⟩
  · rw [Pool.set_of_ne hj] at h
    exact Or.inr ⟨hj, h⟩

theorem Pool.Step.obedient (h : Pool.Step moves answers starts program p d p')
    (hprogram : ∀ kind, (program kind).Obeys (allowed kind) [] (post kind))
    (hp : p.Obedient allowed post) : p'.Obedient allowed post := by
  cases h with
  | move hmove => exact hp
  | start hidle hkind =>
    intro j other v hv
    rcases Pool.set_cases hv with ⟨-, rfl, rfl⟩ | ⟨-, hv⟩
    · exact hprogram _
    · exact hp j other v hv
  | ask hthread hstep =>
    intro j other v hv
    rcases Pool.set_cases hv with ⟨-, rfl, rfl⟩ | ⟨-, hv⟩
    · cases hstep with
      | ask answer =>
        have hobeys := hp _ _ _ hthread
        exact hobeys.2 _ () trivial
    · exact hp j other v hv

/-- A query that is answered was allowed. -/
theorem Pool.Obedient.asked (hp : p.Obedient allowed post) {i : Nat} {kind : κ}
    {th th' : Thread Q A ε α} {turn : Said A} {t : σ} (hthread : p.threads i = some (kind, th))
    (hstep : th.Step answers p.world turn t th') : allowed kind th.past turn.query := by
  cases hstep with
  | ask answer =>
    have hobeys := hp i kind _ hthread
    exact hobeys.1

/-- A thread that has ended with a value satisfies its postcondition. -/
theorem Pool.Obedient.ended (hp : p.Obedient allowed post) {i : Nat} {kind : κ}
    {past : List (Said A)} {a : α} (hthread : p.threads i = some (kind, ⟨past, .done a⟩)) :
    post kind past a :=
  hp i kind _ hthread a rfl

/-- What a thread has said goes on being said. -/
theorem Pool.Step.grows (h : Pool.Step moves answers starts program p d p') {i : Nat} {kind : κ}
    {th : Thread Q A ε α} (hthread : p.threads i = some (kind, th)) :
    ∃ th', p'.threads i = some (kind, th') ∧ ∀ turn ∈ th.past, turn ∈ th'.past := by
  cases h with
  | move hmove => exact ⟨th, hthread, fun _ h => h⟩
  | @start j kind' hidle hkind =>
    have hne : i ≠ j := by
      rintro rfl
      rw [hidle] at hthread
      cases hthread
    exact ⟨th, by rw [Pool.set_of_ne hne, hthread], fun _ h => h⟩
  | @ask j kind' v v' turn t hv hstep =>
    by_cases hi : i = j
    · subst hi
      rw [hv] at hthread
      cases hthread
      cases hstep with
      | ask answer => exact ⟨_, Pool.set_self, fun _ h => List.mem_append_left _ h⟩
    · exact ⟨th, by rw [Pool.set_of_ne hi, hthread], fun _ h => h⟩

/-- What a thread has said after a step, it had said before, or it said in the step. -/
theorem Pool.Step.said_cases (h : Pool.Step moves answers starts program p d p') {i : Nat}
    {kind : κ} {th : Thread Q A ε α} {turn : Said A} (hthread : p'.threads i = some (kind, th))
    (hturn : turn ∈ th.past) :
    ∃ th₀, p.threads i = some (kind, th₀) ∧
      (turn ∈ th₀.past ∨ d = some (i, turn) ∧ th₀.Step answers p.world turn p'.world th) := by
  cases h with
  | move hmove => exact ⟨th, hthread, .inl hturn⟩
  | start hidle hkind =>
    rcases Pool.set_cases hthread with ⟨-, -, rfl⟩ | ⟨-, hold⟩
    · cases hturn
    · exact ⟨th, hold, .inl hturn⟩
  | ask hold hstep =>
    rcases Pool.set_cases hthread with ⟨rfl, rfl, rfl⟩ | ⟨-, hold⟩
    · refine ⟨_, hold, ?_⟩
      cases hstep with
      | ask answer =>
        rcases List.mem_append.mp hturn with hearlier | hnew
        · exact .inl hearlier
        · obtain rfl := List.mem_singleton.mp hnew
          exact .inr ⟨rfl, .ask answer⟩
    · exact ⟨th, hold, .inl hturn⟩

/-! ### A thread that runs on alone -/

/-- Thread `i` asks its next `n` queries, as long as `respond` has an answer. -/
def Pool.drive (respond : σ → (q : Q) → Option (A q × σ)) (i : Nat) :
    Nat → Pool σ κ Q A ε α → Pool σ κ Q A ε α
  | 0, p => p
  | n + 1, p =>
    match p.threads i with
    | some (kind, ⟨past, .ask q next⟩) =>
      match respond p.world q with
      | some (a, t) => (p.set i t kind ⟨past ++ [said q a], next a⟩).drive respond i n
      | none => p
    | _ => p

theorem Pool.drive_of_ne {respond : σ → (q : Q) → Option (A q × σ)} {i j : Nat} (hj : j ≠ i)
    (n : Nat) (p : Pool σ κ Q A ε α) : (p.drive respond i n).threads j = p.threads j := by
  induction n generalizing p with
  | zero => rfl
  | succ n ih =>
    unfold Pool.drive
    split
    · split
      · rw [ih, Pool.set_of_ne hj]
      · rfl
    · rfl

theorem Pool.drive_self {respond : σ → (q : Q) → Option (A q × σ)} {i : Nat} (n : Nat)
    {p : Pool σ κ Q A ε α} {kind : κ} {th : Thread Q A ε α} (h : p.threads i = some (kind, th)) :
    ∃ th', (p.drive respond i n).threads i = some (kind, th') := by
  induction n generalizing p th with
  | zero => exact ⟨th, h⟩
  | succ n ih =>
    unfold Pool.drive
    split
    · next other past q next hthread =>
      cases h.symm.trans hthread
      split
      · exact ih Pool.set_self
      · exact ⟨_, h⟩
    · exact ⟨_, h⟩

/-- A thread that runs on alone is a run of the pool. -/
theorem Pool.drive_exec {respond : σ → (q : Q) → Option (A q × σ)}
    (hrespond : ∀ s q a t, respond s q = some (a, t) → answers s q a t) (i n : Nat)
    (p : Pool σ κ Q A ε α) :
    ∃ ds, Trace.Exec (Pool.Step moves answers starts program) p ds (p.drive respond i n) := by
  induction n generalizing p with
  | zero => exact ⟨[], .nil⟩
  | succ n ih =>
    unfold Pool.drive
    split
    · next kind past q next hthread =>
      split
      · next a t ha =>
        obtain ⟨ds, hrest⟩ := ih (p.set i t kind ⟨past ++ [said q a], next a⟩)
        have hstep : Pool.Step moves answers starts program p (some (i, said q a))
            (p.set i t kind ⟨past ++ [said q a], next a⟩) :=
          .ask hthread (.ask (hrespond _ _ _ _ ha))
        exact ⟨_, (Trace.Exec.single hstep).append hrest⟩
      · exact ⟨[], .nil⟩
    · exact ⟨[], .nil⟩

/-- Thread `i` starts, and runs on alone. -/
def Pool.launch (program : κ → Prog Q A ε α) (respond : σ → (q : Q) → Option (A q × σ)) (i : Nat)
    (kind : κ) (n : Nat) (p : Pool σ κ Q A ε α) : Pool σ κ Q A ε α :=
  (p.set i p.world kind ⟨[], program kind⟩).drive respond i n

theorem Pool.launch_exec {respond : σ → (q : Q) → Option (A q × σ)}
    (hrespond : ∀ s q a t, respond s q = some (a, t) → answers s q a t) {i : Nat} {kind : κ} (n : Nat)
    (hidle : p.threads i = none) (hkind : starts kind) :
    ∃ ds, Trace.Exec (Pool.Step moves answers starts program) p ds
      (p.launch program respond i kind n) := by
  have hstep : Pool.Step moves answers starts program p none
      (p.set i p.world kind ⟨[], program kind⟩) := .start hidle hkind
  obtain ⟨ds, hrest⟩ := Pool.drive_exec hrespond i n _
  exact ⟨_, (Trace.Exec.single hstep).append hrest⟩

theorem Pool.launch_self {respond : σ → (q : Q) → Option (A q × σ)} {i : Nat} {kind : κ} {n : Nat} :
    ∃ th, (p.launch program respond i kind n).threads i = some (kind, th) :=
  Pool.drive_self n Pool.set_self

theorem Pool.launch_of_ne {respond : σ → (q : Q) → Option (A q × σ)} {i j : Nat} (hj : j ≠ i)
    {kind : κ} {n : Nat} : (p.launch program respond i kind n).threads j = p.threads j := by
  rw [Pool.launch, Pool.drive_of_ne hj, Pool.set_of_ne hj]

end Pools

end Calls
