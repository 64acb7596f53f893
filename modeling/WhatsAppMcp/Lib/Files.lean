import Mathlib.Logic.Function.Basic
import Mathlib.Data.List.Basic
import Mathlib.Tactic.Common

/-!
# A file system

The nodes of a file system, for programs that name them by path.

* A path names a place, and two paths may name one: a link, or a relative path and
  an absolute one.  No operation changes `Files.place`.
* `put` writes a node, `remove` unlinks one, `mkdirs` makes the directories that are
  missing.
* Each operation has a lemma for what `get` finds after it.
* `SameBut` is the frame of an operation that works at one path.
-/

universe u v w

/-- A node, over a type of bytes. -/
inductive Node (β : Type u) where
  | file (data : List β)
  | directory
  deriving DecidableEq, Repr

/-- `IsDir`. -/
def Node.isDir {β : Type u} : Node β → Bool
  | .file _ => false
  | .directory => true

/-- What the paths name, and the nodes at the places. -/
structure Files (π : Type u) (ι : Type v) (β : Type w) where
  place : π → ι
  node : ι → Option (Node β)

namespace Files

variable {π : Type u} {ι : Type v} {β : Type w}

/-- The node that a path names. -/
def get (fs : Files π ι β) (p : π) : Option (Node β) := fs.node (fs.place p)

variable [DecidableEq ι]

/-- A node is written at a path. -/
def put (fs : Files π ι β) (p : π) (n : Node β) : Files π ι β :=
  ⟨fs.place, fun i => if i = fs.place p then some n else fs.node i⟩

/-- The node of a path is unlinked. -/
def remove (fs : Files π ι β) (p : π) : Files π ι β :=
  ⟨fs.place, fun i => if i = fs.place p then none else fs.node i⟩

/-- The paths that name nothing become directories. -/
def mkdirs (fs : Files π ι β) (ps : List π) : Files π ι β :=
  ⟨fs.place, fun i =>
    (fs.node i).or (if i ∈ ps.map fs.place then some .directory else none)⟩

variable {fs : Files π ι β} {p q : π} {ps : List π} {n : Node β} {data : List β}

@[simp] theorem place_put : (fs.put p n).place = fs.place := rfl

@[simp] theorem place_remove : (fs.remove p).place = fs.place := rfl

@[simp] theorem place_mkdirs : (fs.mkdirs ps).place = fs.place := rfl

theorem get_put : (fs.put p n).get q = if fs.place q = fs.place p then some n else fs.get q := rfl

theorem get_remove : (fs.remove p).get q = if fs.place q = fs.place p then none else fs.get q := rfl

@[simp] theorem get_put_self : (fs.put p n).get p = some n := by
  simp [get_put]

theorem get_put_of_ne (h : fs.place q ≠ fs.place p) : (fs.put p n).get q = fs.get q := by
  simp [get_put, h]

theorem get_mkdirs : (fs.mkdirs ps).get p =
    (fs.get p).or (if fs.place p ∈ ps.map fs.place then some .directory else none) := rfl

/-- What is there is not replaced by a directory. -/
theorem get_mkdirs_of_some (h : fs.get p = some n) : (fs.mkdirs ps).get p = some n := by
  rw [get_mkdirs, h, Option.some_or]

/-- The files are those that there were. -/
@[simp] theorem get_mkdirs_file : (fs.mkdirs ps).get p = some (.file data) ↔ fs.get p = some (.file data) := by
  constructor
  · intro h
    cases hold : fs.get p with
    | some n => exact (get_mkdirs_of_some hold).symm.trans h
    | none =>
      rw [get_mkdirs, hold, Option.none_or] at h
      split at h <;> cases h
  · exact get_mkdirs_of_some

theorem get_mkdirs_of_ne (h : ∀ q ∈ ps, fs.place q ≠ fs.place p) : (fs.mkdirs ps).get p = fs.get p := by
  have hnot : fs.place p ∉ ps.map fs.place := by
    intro hmem
    obtain ⟨q, hq, hplace⟩ := List.mem_map.mp hmem
    exact h q hq hplace
  rw [get_mkdirs, if_neg hnot, Option.or_none]

/-! ## Frames -/

/-- `fs'` has the files of `fs`, but for the place of a path. -/
structure SameBut (fs fs' : Files π ι β) (p : π) : Prop where
  place : fs'.place = fs.place
  files : ∀ q data, fs.place q ≠ fs.place p →
    (fs'.get q = some (.file data) ↔ fs.get q = some (.file data))

omit [DecidableEq ι] in
theorem SameBut.refl (fs : Files π ι β) (p : π) : SameBut fs fs p := ⟨rfl, fun _ _ _ => Iff.rfl⟩

omit [DecidableEq ι] in
theorem SameBut.trans {fs₁ fs₂ : Files π ι β} (h : SameBut fs fs₁ p) (h' : SameBut fs₁ fs₂ p) :
    SameBut fs fs₂ p := by
  refine ⟨h'.place.trans h.place, fun q data hne => ?_⟩
  have hne' : fs₁.place q ≠ fs₁.place p := by rwa [h.place]
  exact (h'.files q data hne').trans (h.files q data hne)

theorem sameBut_put : SameBut fs (fs.put p n) p :=
  ⟨rfl, fun q data hne => by rw [get_put_of_ne hne]⟩

theorem sameBut_remove : SameBut fs (fs.remove p) p :=
  ⟨rfl, fun q data hne => by rw [get_remove, if_neg hne]⟩

theorem sameBut_mkdirs : SameBut fs (fs.mkdirs ps) p :=
  ⟨rfl, fun _ _ _ => get_mkdirs_file⟩

end Files
