import Mathlib.Data.List.TakeWhile
import WhatsAppMcp.Lib.Utf8

/-!
# Reading lines from chunks

A reader decodes each chunk as it comes, keeps the text of the line that has not ended, and
hands each line that ends to `consume`, which may reject it.

The lines of a text are what `splitOn` gives, without the last; that is the tail.

* `drain_append`: the text may come in parts.
* `drain_eq`: what is consumed is the lines, and what is kept is the tail.
* `Reader.read_eq`: however the bytes come in chunks, the reader does what decoding the whole
  and consuming its lines does.
-/

/-- A reader between two chunks: its decoder, what it made of the lines, and the text of the
line that has not ended. -/
structure LineReader (σ : Type) where
  decoder : Utf8.TextDecoder
  state : σ
  pending : List Char

namespace LineReader

open Utf8 (Decoder TextDecoder decodeText dropMark)

variable {σ : Type} {consume : σ → List Char → Option σ}

/-! ## Lines -/

/-- The loop over the lines that end in the text: the state after them, and the tail. -/
def drain (consume : σ → List Char → Option σ) (s : σ) (pending : List Char) :
    Option (σ × List Char) :=
  match h : pending.dropWhile (· ≠ '\n') with
  | [] => some (s, pending)
  | _ :: rest =>
    (consume s (pending.takeWhile (· ≠ '\n'))).bind fun s => drain consume s rest
termination_by pending.length
decreasing_by
  have hsuffix := (List.dropWhile_suffix (l := pending) (· ≠ '\n')).length_le
  rw [h, List.length_cons] at hsuffix
  omega

/-- The lines of a text. -/
def lines (text : List Char) : List (List Char) := (text.splitOn '\n').dropLast

/-- What is after the last line. -/
def tail (text : List Char) : List Char := ((text.splitOn '\n').getLast?).getD []

/-- The lines of a text one after another; there must be nothing after the last. -/
def consumeText (consume : σ → List Char → Option σ) (s : σ) (text : List Char) : Option σ :=
  ((lines text).foldlM consume s).bind fun s => if tail text = [] then some s else none

/-- A text has no line, or a first one. -/
theorem line_cases (text : List Char) :
    '\n' ∉ text ∨ ∃ line rest, text = line ++ '\n' :: rest ∧ '\n' ∉ line := by
  by_cases hmem : '\n' ∈ text
  · exact .inr (List.eq_append_cons_of_mem hmem)
  · exact .inl hmem

section Lines

variable {s : σ} {text line rest : List Char}

theorem takeWhile_line (h : '\n' ∉ line) :
    (line ++ '\n' :: rest).takeWhile (· ≠ '\n') = line := by
  rw [List.takeWhile_append_of_pos]
  · simp
  · intro c hc
    exact decide_eq_true fun heq => h (heq ▸ hc)

theorem dropWhile_line (h : '\n' ∉ line) :
    (line ++ '\n' :: rest).dropWhile (· ≠ '\n') = '\n' :: rest := by
  rw [List.dropWhile_append_of_pos]
  · simp
  · intro c hc
    exact decide_eq_true fun heq => h (heq ▸ hc)

theorem drain_open (h : '\n' ∉ text) : drain consume s text = some (s, text) := by
  have hnone : text.dropWhile (· ≠ '\n') = [] := by
    rw [List.dropWhile_eq_nil_iff]
    intro c hc
    exact decide_eq_true fun heq => h (heq ▸ hc)
  unfold drain
  split
  · rfl
  · next hcons =>
    rw [hnone] at hcons
    cases hcons

theorem drain_line (h : '\n' ∉ line) :
    drain consume s (line ++ '\n' :: rest) = (consume s line).bind fun s => drain consume s rest := by
  rw [drain]
  split
  · next hnil =>
    rw [dropWhile_line h] at hnil
    cases hnil
  · next hcons =>
    rw [dropWhile_line h] at hcons
    cases hcons
    rw [takeWhile_line h]

/-- The text may come in parts. -/
theorem drain_append (s : σ) (text more : List Char) :
    drain consume s (text ++ more) =
      (drain consume s text).bind fun r => drain consume r.1 (r.2 ++ more) := by
  rcases line_cases text with hopen | ⟨line, rest, rfl, hline⟩
  · rw [drain_open hopen]
    rfl
  · rw [List.append_assoc, List.cons_append, drain_line hline, drain_line hline, Option.bind_assoc]
    congr 1
    funext s
    exact drain_append s rest more
termination_by text.length
decreasing_by
  subst_vars
  simp
  omega

/-- No line is left. -/
theorem newline_notMem_of_drain {s : σ} {text : List Char} {r : σ × List Char}
    (h : drain consume s text = some r) : '\n' ∉ r.2 := by
  rcases line_cases text with hopen | ⟨line, rest, rfl, hline⟩
  · rw [drain_open hopen] at h
    cases h
    exact hopen
  · rw [drain_line hline] at h
    obtain ⟨s', -, hrest⟩ := Option.bind_eq_some_iff.mp h
    exact newline_notMem_of_drain hrest
termination_by text.length
decreasing_by
  subst_vars
  simp
  omega

/-- What is consumed is the lines, and what is kept is the tail. -/
theorem drain_eq (s : σ) (text : List Char) :
    drain consume s text = ((lines text).foldlM consume s).map fun s => (s, tail text) := by
  rcases line_cases text with hopen | ⟨line, rest, rfl, hline⟩
  · rw [drain_open hopen, lines, tail, List.splitOn_eq_singleton hopen]
    rfl
  · have hlines : lines (line ++ '\n' :: rest) = line :: lines rest := by
      rw [lines, List.splitOn_append_cons_self_of_not_mem hline]
      exact List.dropLast_cons_of_ne_nil (List.splitOn_ne_nil _ _)
    have htail : tail (line ++ '\n' :: rest) = tail rest := by
      rw [tail, List.splitOn_append_cons_self_of_not_mem hline, List.getLast?_cons]
      rw [tail, List.getLast?_eq_some_getLast (List.splitOn_ne_nil _ _)]
      rfl
    rw [drain_line hline, hlines, htail, List.foldlM_cons]
    cases hconsume : consume s line with
    | none => rfl
    | some s' => exact drain_eq s' rest
termination_by text.length
decreasing_by
  subst_vars
  simp
  omega

theorem consumeText_eq (s : σ) (text : List Char) :
    consumeText consume s text =
      (drain consume s text).bind fun r => if r.2 = [] then some r.1 else none := by
  unfold consumeText
  rw [drain_eq]
  cases (lines text).foldlM consume s <;> rfl

/-- The first line of a text. -/
theorem consumeText_line {s : σ} (h : '\n' ∉ line) :
    consumeText consume s (line ++ '\n' :: rest) =
      (consume s line).bind fun s => consumeText consume s rest := by
  rw [consumeText_eq, drain_line h, Option.bind_assoc]
  congr 1
  funext s
  exact (consumeText_eq s rest).symm

/-- A text that ends with a line may be followed by another. -/
theorem consumeText_append {s s' : σ} (h : consumeText consume s text = some s')
    (more : List Char) : consumeText consume s (text ++ more) = consumeText consume s' more := by
  rw [consumeText_eq] at h
  obtain ⟨⟨state, left⟩, hdrain, hleft⟩ := Option.bind_eq_some_iff.mp h
  split at hleft
  · next hnil =>
    cases hleft
    rw [consumeText_eq, consumeText_eq, drain_append, hdrain, Option.bind_some, hnil]
    rfl
  · cases hleft

/-- What every line keeps, a text keeps. -/
theorem consumeText_keeps {R : σ → σ → Prop} {s t : σ} (h : consumeText consume s text = some t)
    (hrefl : ∀ s, R s s) (htrans : ∀ {s t u}, R s t → R t u → R s u)
    (hstep : ∀ s line t, consume s line = some t → R s t) : R s t := by
  have hlines : ∀ (ls : List (List Char)) (s t : σ), ls.foldlM consume s = some t → R s t := by
    intro ls
    induction ls with
    | nil =>
      intro s t ht
      obtain rfl : s = t := Option.some.inj ht
      exact hrefl s
    | cons line ls ih =>
      intro s t ht
      rw [List.foldlM_cons] at ht
      obtain ⟨s', hline, hrest⟩ := Option.bind_eq_some_iff.mp ht
      exact htrans (hstep s line s' hline) (ih s' t hrest)
  obtain ⟨state, hfold, htail⟩ := Option.bind_eq_some_iff.mp h
  split at htail
  · cases htail
    exact hlines _ _ _ hfold
  · cases htail

end Lines

/-! ## The reader -/

/-- One chunk.  The text that is pending must be admitted before its lines are consumed. -/
def feed (admits : List Char → Bool) (consume : σ → List Char → Option σ) (r : LineReader σ)
    (chunk : List UInt8) : Option (LineReader σ) :=
  (r.decoder.stream chunk).bind fun d =>
    if admits (r.pending ++ d.2) then
      (drain consume r.state (r.pending ++ d.2)).map fun s => ⟨d.1, s.1, s.2⟩
    else none

/-- Read after read, until as many bytes have come as there should.  A read that gives
nothing ends it. -/
def loop (admits : List Char → Bool) (consume : σ → List Char → Option σ) (r : LineReader σ) :
    Nat → List (List UInt8) → Option (LineReader σ)
  | 0, _ => some r
  | _ + 1, [] => none
  | remaining + 1, chunk :: chunks =>
    if chunk = [] then none
    else (feed admits consume r chunk).bind fun r =>
      loop admits consume r (remaining + 1 - chunk.length) chunks

/-- The end: no part of a character and no part of a line is left. -/
def finish (r : LineReader σ) : Option σ :=
  r.decoder.flush.bind fun rest => if r.pending ++ rest = [] then some r.state else none

/-- From the first read to the end. -/
def read (admits : List Char → Bool) (consume : σ → List Char → Option σ) (s : σ) (size : Nat)
    (chunks : List (List UInt8)) : Option σ :=
  (loop admits consume ⟨.start, s, []⟩ size chunks).bind finish

/-- The chunks are the content, and none is empty. -/
structure Splits (content : List UInt8) (chunks : List (List UInt8)) : Prop where
  whole : chunks.flatten = content
  nonempty : ∀ chunk ∈ chunks, chunk ≠ []

section Read

variable {admits : List Char → Bool} {s : σ} {content : List UInt8} {chunks : List (List UInt8)}

/-- The loop takes every chunk of the content. -/
theorem loop_eq (h : Splits content chunks) (r : LineReader σ) :
    loop admits consume r content.length chunks = chunks.foldlM (feed admits consume) r := by
  obtain ⟨rfl, hne⟩ := h
  induction chunks generalizing r with
  | nil => rfl
  | cons chunk chunks ih =>
    have hchunk : chunk ≠ [] := hne chunk List.mem_cons_self
    have hrest : ∀ c ∈ chunks, c ≠ [] := fun c hc => hne c (List.mem_cons_of_mem _ hc)
    obtain ⟨n, hn⟩ : ∃ n, (chunk :: chunks).flatten.length = n + 1 := by
      cases chunk with
      | nil => exact absurd rfl hchunk
      | cons b bytes => exact ⟨(bytes ++ chunks.flatten).length, rfl⟩
    have hremaining : n + 1 - chunk.length = chunks.flatten.length := by
      rw [← hn, List.flatten_cons, List.length_append]
      omega
    rw [hn, loop, if_neg hchunk, List.foldlM_cons, hremaining]
    show (feed admits consume r chunk).bind _ = (feed admits consume r chunk).bind _
    congr 1
    funext r'
    exact ih r' hrest

/-- One chunk after another is all of them at once. -/
theorem foldlM_feed (r : LineReader σ) (hpending : '\n' ∉ r.pending) :
    chunks.foldlM (feed (fun _ => true) consume) r =
      (r.decoder.stream chunks.flatten).bind fun d =>
        (drain consume r.state (r.pending ++ d.2)).map fun s => ⟨d.1, s.1, s.2⟩ := by
  induction chunks generalizing r with
  | nil =>
    have hstream : r.decoder.stream [] = some (r.decoder, []) := by
      cases hseen : r.decoder.markSeen <;> simp [TextDecoder.stream, Decoder.run, hseen, dropMark] <;>
        exact congrArg (TextDecoder.mk _) hseen.symm
    show some r = (r.decoder.stream []).bind _
    rw [hstream, Option.bind_some, List.append_nil, drain_open hpending]
    rfl
  | cons chunk chunks ih =>
    have hfeed : feed (fun _ => true) consume r chunk =
        (r.decoder.stream chunk).bind fun d =>
          (drain consume r.state (r.pending ++ d.2)).map fun s => ⟨d.1, s.1, s.2⟩ := rfl
    rw [List.foldlM_cons, List.flatten_cons, TextDecoder.stream_append, hfeed]
    cases r.decoder.stream chunk with
    | none => rfl
    | some d =>
      rw [Option.bind_some, Option.bind_some]
      cases hdrain : drain consume r.state (r.pending ++ d.2) with
      | none =>
        show none = Option.bind _ _
        cases d.1.stream chunks.flatten with
        | none => rfl
        | some e =>
          show none = Option.map _ (drain consume r.state (r.pending ++ (d.2 ++ e.2)))
          rw [← List.append_assoc, drain_append, hdrain]
          rfl
      | some t =>
        have hrest := ih ⟨d.1, t.1, t.2⟩ (newline_notMem_of_drain hdrain)
        have hmore : ∀ more, drain consume r.state (r.pending ++ (d.2 ++ more)) =
            drain consume t.1 (t.2 ++ more) := fun more => by
          rw [← List.append_assoc, drain_append, hdrain]
          rfl
        refine hrest.trans ?_
        cases d.1.stream chunks.flatten with
        | none => rfl
        | some e =>
          show Option.map _ (drain consume t.1 (t.2 ++ e.2)) =
            Option.map _ (drain consume r.state (r.pending ++ (d.2 ++ e.2)))
          rw [hmore]

/-- However the content comes in chunks, the reader does what decoding the whole and
consuming its lines does. -/
theorem read_eq (h : Splits content chunks) (s : σ) :
    read (fun _ => true) consume s content.length chunks =
      (decodeText content).bind fun text => consumeText consume s text := by
  unfold read
  rw [loop_eq h, foldlM_feed _ List.not_mem_nil, h.whole, ← TextDecoder.stream_flush]
  show Option.bind (Option.bind (TextDecoder.start.stream content) _) finish = _
  cases TextDecoder.start.stream content with
  | none => rfl
  | some d =>
    show Option.bind (Option.map _ (drain consume s ([] ++ d.2))) finish =
      (Option.map _ d.1.flush).bind _
    rw [List.nil_append, drain_eq]
    unfold consumeText
    cases hflush : d.1.flush with
    | none =>
      cases (lines d.2).foldlM consume s with
      | none => rfl
      | some t =>
        show Option.bind d.1.flush _ = none
        rw [hflush]
        rfl
    | some rest =>
      have hrest : rest = [] := by
        unfold TextDecoder.flush at hflush
        split at hflush <;> cases hflush
        rfl
      subst hrest
      show _ = ((lines (d.2 ++ [])).foldlM consume s).bind _
      rw [List.append_nil]
      cases (lines d.2).foldlM consume s with
      | none => rfl
      | some t =>
        show (Option.bind d.1.flush fun rest => if tail d.2 ++ rest = [] then some t else none) = _
        rw [hflush, Option.bind_some, List.append_nil]
        show _ = if tail (d.2 ++ []) = [] then some t else none
        rw [List.append_nil]

/-- What a reader with a limit reads, a reader without one reads. -/
theorem loop_of_admitted {r r' : LineReader σ} {size : Nat}
    (h : loop admits consume r size chunks = some r') :
    loop (fun _ => true) consume r size chunks = some r' := by
  induction chunks generalizing r size with
  | nil => cases size <;> exact h
  | cons chunk chunks ih =>
    cases size with
    | zero => exact h
    | succ remaining =>
      unfold loop at h ⊢
      split at h
      · cases h
      · next hne =>
        rw [if_neg hne]
        obtain ⟨r₁, hfeed, hloop⟩ := Option.bind_eq_some_iff.mp h
        have hfeed' : feed (fun _ => true) consume r chunk = some r₁ := by
          unfold feed at hfeed ⊢
          obtain ⟨d, hstream, hdrain⟩ := Option.bind_eq_some_iff.mp hfeed
          split at hdrain
          · exact Option.bind_eq_some_iff.mpr ⟨d, hstream, hdrain⟩
          · cases hdrain
        rw [hfeed']
        exact ih hloop

theorem read_of_admitted {s' : σ} {size : Nat} (h : read admits consume s size chunks = some s') :
    read (fun _ => true) consume s size chunks = some s' := by
  obtain ⟨r, hloop, hfinish⟩ := Option.bind_eq_some_iff.mp h
  exact Option.bind_eq_some_iff.mpr ⟨r, loop_of_admitted hloop, hfinish⟩

/-- One read of the whole, where the limit admits its text. -/
theorem read_whole (hne : content ≠ [])
    (hadmits : ∀ d, TextDecoder.start.stream content = some d → admits d.2 = true) (s : σ) :
    read admits consume s content.length [content] =
      (decodeText content).bind fun text => consumeText consume s text := by
  have hsplits : Splits content [content] := ⟨by simp, by simpa using hne⟩
  have hfeed : feed admits consume ⟨.start, s, []⟩ content =
      feed (fun _ => true) consume ⟨.start, s, []⟩ content := by
    unfold feed
    cases hstream : TextDecoder.start.stream content with
    | none => rfl
    | some d => rw [Option.bind_some, Option.bind_some, List.nil_append, if_pos (hadmits d hstream), if_pos rfl]
  rw [← read_eq hsplits]
  unfold read
  obtain ⟨n, hn⟩ := Nat.exists_eq_succ_of_ne_zero fun h => hne (List.length_eq_zero_iff.mp h)
  rw [hn, loop, loop, hfeed, if_neg hne, if_neg hne, hn, Nat.sub_self]
  rfl

end Read

end LineReader
