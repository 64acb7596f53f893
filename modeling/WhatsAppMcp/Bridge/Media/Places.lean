import WhatsAppMcp.Bridge.Media.Paths

/-!
# The places that paths name

A path names a place: the names on the way to it, the last one first.  A path that is
not rooted starts at the working directory.  Links are not followed.

* `place_clean`: `Clean` does not change the place.
* `place_join`: `Join` goes on from the place of its first path.
-/

namespace WhatsAppMcp.Bridge.Media

/-! ## Elements -/

theorem not_mem_of_mem_splitOn {c : Char} {part text : List Char} (h : part ∈ text.splitOn c) :
    c ∉ part := by
  induction text generalizing part with
  | nil =>
    rw [List.splitOn_nil, List.mem_singleton] at h
    simp [h]
  | cons d text ih =>
    rw [List.splitOn_cons_eq_if_modifyHead] at h
    split at h
    · rcases List.mem_cons.mp h with rfl | h
      · simp
      · exact ih h
    · next hne =>
      cases hsplit : text.splitOn c with
      | nil => exact absurd hsplit (List.splitOn_ne_nil c text)
      | cons first rest =>
        rw [hsplit] at h ih
        rcases List.mem_cons.mp h with rfl | h
        · have hfirst := ih List.mem_cons_self
          simp only [beq_iff_eq] at hne
          simp only [List.mem_cons, not_or]
          exact ⟨fun heq => hne heq.symm, hfirst⟩
        · exact ih (List.mem_cons_of_mem _ h)

theorem slash_notMem_of_mem_elements {element path : String} (h : element ∈ elements path) :
    '/' ∉ element.toList := by
  obtain ⟨part, hpart, rfl⟩ := List.mem_map.mp h
  rw [String.toList_ofList]
  exact not_mem_of_mem_splitOn hpart

theorem elements_of_slash_notMem {path : String} (h : '/' ∉ path.toList) : elements path = [path] := by
  simp [elements, List.splitOn_eq_singleton h]

theorem elements_slash (first rest : String) :
    elements (first ++ "/" ++ rest) = elements first ++ elements rest := by
  have hsplit := List.splitOn_append_cons_self (a := '/') first.toList rest.toList
  simp [elements, hsplit]

/-- The elements that a slash separates come back. -/
theorem elements_intercalate {names : List String} (hne : names ≠ [])
    (h : ∀ name ∈ names, '/' ∉ name.toList) : elements ("/".intercalate names) = names := by
  have hsplit : (['/'].intercalate (names.map String.toList)).splitOn '/' = names.map String.toList := by
    apply List.splitOn_intercalate
    · simpa using h
    · simpa using hne
  rw [elements, String.toList_intercalate]
  show ((['/'].intercalate (names.map String.toList)).splitOn '/').map String.ofList = names
  rw [hsplit]
  simp

theorem rooted_append {first rest : String} (h : first ≠ "") : rooted (first ++ rest) = rooted first := by
  have hne : first.toList ≠ [] := by simpa using h
  cases hlist : first.toList with
  | nil => exact absurd hlist hne
  | cons c cs => simp [rooted, hlist]

/-! ## Places -/

/-- One element further. -/
def enter (here : List String) (element : String) : List String :=
  if element = "" ∨ element = "." then here
  else if element = ".." then here.tail
  else element :: here

/-- Where a path starts. -/
def start (cwd : List String) (path : String) : List String := if rooted path then [] else cwd

/-- The place that a path names. -/
def place (cwd : List String) (path : String) : List String :=
  (elements path).foldl enter (start cwd path)

/-- An element that names an entry of a directory. -/
structure IsName (element : String) : Prop where
  nonempty : element ≠ ""
  notHere : element ≠ "."
  notAbove : element ≠ ".."
  oneElement : '/' ∉ element.toList

theorem enter_name {name : String} (h : IsName name) (here : List String) :
    enter here name = name :: here := by
  simp [enter, h.nonempty, h.notHere, h.notAbove]

/-! ## Clean -/

/-- What `Clean` keeps: elements of the path, none of them empty or a dot. -/
structure Tidy (kept : List String) : Prop where
  noSlash : ∀ element ∈ kept, '/' ∉ element.toList
  substance : ∀ element ∈ kept, element ≠ "" ∧ element ≠ "."

theorem Tidy.tail {last : String} {kept : List String} (h : Tidy (last :: kept)) : Tidy kept :=
  ⟨fun e he => h.noSlash e (List.mem_cons_of_mem _ he),
    fun e he => h.substance e (List.mem_cons_of_mem _ he)⟩

theorem Tidy.cons {last : String} {kept : List String} (h : Tidy kept) (hslash : '/' ∉ last.toList)
    (hempty : last ≠ "") (hdot : last ≠ ".") : Tidy (last :: kept) := by
  refine ⟨?_, ?_⟩
  · intro e he
    rcases List.mem_cons.mp he with rfl | he
    · exact hslash
    · exact h.noSlash e he
  · intro e he
    rcases List.mem_cons.mp he with rfl | he
    · exact ⟨hempty, hdot⟩
    · exact h.substance e he

/-- One element of `Clean` is one element on the way. -/
theorem cleanElement_place {root : Bool} {kept : List String} {element : String} (h : Tidy kept)
    (hslash : '/' ∉ element.toList) {origin : List String} (hroot : root = true → origin = []) :
    Tidy (cleanElement root kept element) ∧
      (cleanElement root kept element).reverse.foldl enter origin =
        enter (kept.reverse.foldl enter origin) element := by
  unfold cleanElement
  split
  · next hskip => exact ⟨h, by simp [enter, hskip]⟩
  · next hskip =>
    rw [not_or] at hskip
    split
    · next hup =>
      subst hup
      cases kept with
      | nil =>
        cases root with
        | true => exact ⟨h, by simp [hroot rfl, enter]⟩
        | false => exact ⟨h.cons (by decide) (by decide) (by decide), by simp⟩
      | cons last rest =>
        dsimp only
        split
        · exact ⟨h.cons (by decide) (by decide) (by decide), by simp⟩
        · next hlast =>
          have hsub := h.substance last List.mem_cons_self
          refine ⟨h.tail, ?_⟩
          simp [enter, hsub.1, hsub.2, hlast]
    · next hup =>
      exact ⟨h.cons hslash hskip.1 hskip.2, by simp⟩

theorem foldl_cleanElement_place {root : Bool} {origin : List String} (hroot : root = true → origin = [])
    {els kept : List String} (hels : ∀ e ∈ els, '/' ∉ e.toList) (h : Tidy kept) :
    Tidy (els.foldl (cleanElement root) kept) ∧
      (els.foldl (cleanElement root) kept).reverse.foldl enter origin =
        els.foldl enter (kept.reverse.foldl enter origin) := by
  induction els generalizing kept with
  | nil => exact ⟨h, rfl⟩
  | cons e els ih =>
    have hstep := cleanElement_place h (hels e List.mem_cons_self) hroot
    have hrest := ih (fun e' he' => hels e' (List.mem_cons_of_mem _ he')) hstep.1
    rw [hstep.2] at hrest
    exact hrest

theorem Tidy.foldl_joined {kept : List String} (h : Tidy kept) (origin : List String) :
    (elements ("/".intercalate kept.reverse)).foldl enter origin = kept.reverse.foldl enter origin := by
  by_cases hempty : kept = []
  · subst hempty
    simp [elements, enter]
  · rw [elements_intercalate (by simpa using hempty)]
    intro name hname
    exact h.noSlash name (List.mem_reverse.mp hname)

theorem rooted_intercalate {name : String} {rest : List String} (hne : name ≠ "") :
    rooted ("/".intercalate (name :: rest)) = rooted name := by
  have hlist : name.toList ≠ [] := by simpa using hne
  unfold rooted
  rw [String.toList_intercalate]
  cases htext : name.toList with
  | nil => exact absurd htext hlist
  | cons c cs => cases rest <;> simp [htext, List.intercalate]

theorem rooted_of_slash_notMem {name : String} (h : '/' ∉ name.toList) : rooted name = false := by
  unfold rooted
  cases htext : name.toList with
  | nil => rfl
  | cons c cs =>
    rw [htext] at h
    have hne : c ≠ '/' := fun heq => h (heq ▸ List.mem_cons_self)
    simpa using hne

/-- A clean path names the same place. -/
theorem place_clean (cwd : List String) (path : String) : place cwd (clean path) = place cwd path := by
  have hslashes : ∀ e ∈ elements path, '/' ∉ e.toList := fun e he => slash_notMem_of_mem_elements he
  have horigin : rooted path = true → start cwd path = [] := fun hroot => by simp [start, hroot]
  have htidyNil : Tidy [] := ⟨nofun, nofun⟩
  obtain ⟨htidy, hplace⟩ := foldl_cleanElement_place horigin hslashes htidyNil
  have hjoined := htidy.foldl_joined (start cwd path)
  rw [hplace] at hjoined
  unfold place clean
  dsimp only
  split
  · next hroot =>
    have hstart : start cwd path = [] := by simp [start, hroot]
    have hels := elements_slash "" ("/".intercalate
      ((elements path).foldl (cleanElement (rooted path)) []).reverse)
    rw [String.empty_append] at hels
    rw [hels, List.foldl_append]
    have hslash : ∀ text, start cwd ("/" ++ text) = [] := fun text => by
      rw [start, rooted_append (by decide)]
      rfl
    rw [hslash]
    rw [hstart] at hjoined ⊢
    exact hjoined
  · next hroot =>
    have hstart : start cwd path = cwd := by simp [start, hroot]
    rw [hstart] at hjoined ⊢
    split
    · next hempty =>
      rw [hempty] at hjoined
      exact hjoined
    · next hempty =>
      have hrooted : rooted ("/".intercalate
          ((elements path).foldl (cleanElement (rooted path)) []).reverse) = false := by
        cases hkept : ((elements path).foldl (cleanElement (rooted path)) []).reverse with
        | nil => exact absurd (List.reverse_eq_nil_iff.mp hkept) hempty
        | cons name rest =>
          have hmem : name ∈ (elements path).foldl (cleanElement (rooted path)) [] := by
            rw [← List.mem_reverse, hkept]
            exact List.mem_cons_self
          rw [rooted_intercalate (htidy.substance name hmem).1,
            rooted_of_slash_notMem (htidy.noSlash name hmem)]
      rw [start, hrooted]
      exact hjoined

/-! ## Join -/

theorem foldl_intercalate {first : String} {rest : List String} {origin : List String} :
    (elements ("/".intercalate (first :: rest))).foldl enter origin =
      rest.foldl (fun here path => (elements path).foldl enter here)
        ((elements first).foldl enter origin) := by
  induction rest generalizing first origin with
  | nil => simp
  | cons second rest ih =>
    rw [String.intercalate_cons_cons, elements_slash, List.foldl_append, ih]
    rfl

/-- A path that is joined to another goes on from its place. -/
theorem place_join (cwd : List String) {first : String} (hne : first ≠ "") (rest : List String) :
    place cwd (join (first :: rest)) =
      rest.foldl (fun here path => (elements path).foldl enter here) (place cwd first) := by
  have hjoin : join (first :: rest) = clean ("/".intercalate (first :: rest)) := by
    simp [join, hne]
  rw [hjoin, place_clean]
  unfold place
  rw [start, rooted_intercalate hne, ← start]
  exact foldl_intercalate

end WhatsAppMcp.Bridge.Media
