import WhatsAppMcp.Controller.Pi.CompletionIndex

/-!
# The evidence of a file that grows

A session file is only appended to.  What its first bytes prove, the whole of it
proves, as long as it is accepted at all.

* `consume_cases`: what one line does.
* `evidenceOf_append`: the proofs of a longer file start with those of the shorter.
* `evidenceOf_binding`: a file and its continuation are accepted for one binding.
-/

namespace WhatsAppMcp.Controller.Pi

variable {env : Runtime} {binding other : SessionBinding} {s t s' t' : EvidenceScan}
  {line : List Char} {content more : List UInt8} {ps qs : List StoredProof}

/-! ## One line -/

/-- A line that is taken for the record of a binding. -/
def RecordsBinding (e : Fields) : Prop :=
  textOf e "type" = some "custom" ∧ textOf e "customType" = some bindingType

/-- What a line that is accepted does to the scan. -/
inductive EvidenceScan.Takes (binding : SessionBinding) (e : Fields) :
    EvidenceScan → EvidenceScan → Prop
  | header {s : EvidenceScan} (hseen : s.headerSeen = false) :
      Takes binding e s { s with headerSeen := true }
  | entry {s : EvidenceScan} (id : String) (hseen : s.headerSeen = true)
      (hother : ¬ RecordsBinding e) : Takes binding e s { s with ids := id :: s.ids }
  | bind {s : EvidenceScan} (id : String) (hseen : s.headerSeen = true) (hunbound : s.bound = false)
      (hrecord : RecordsBinding e) (hdata : checkedBinding (e.lookup "data") = some binding) :
      Takes binding e s { s with ids := id :: s.ids, bound := true }
  | mark {s : EvidenceScan} (id : String) (marker : StoredMarker) (hseen : s.headerSeen = true)
      (hbound : s.bound = true) (hchat : marker.canonicalChatId = binding.canonicalChatId)
      (hother : ¬ RecordsBinding e) :
      Takes binding e s { s with
        ids := id :: s.ids
        events := marker.eventId :: s.events
        sequences := marker.chatSequence :: s.sequences
        proofs := s.proofs ++ [⟨marker, id, binding⟩] }

theorem identified_type {ids : List String} {e : Fields} {type id : String}
    (h : identified env ids e = some (type, id)) : textOf e "type" = some type := by
  unfold identified at h
  split at h
  · next htype _ =>
    split at h
    · cases h
      exact htype
    · cases h
  · cases h

theorem consumeCustom_takes {id : String} {e : Fields} (hseen : s.headerSeen = true)
    (htype : textOf e "type" = some "custom")
    (h : consumeCustom env binding { s with ids := id :: s.ids } id e = some t) :
    EvidenceScan.Takes binding e s t := by
  unfold consumeCustom at h
  split at h
  · cases h
  · next customType hcustom =>
    split at h
    · next hbinding =>
      split at h
      · cases h
      · next hguard =>
        simp only [Bool.or_eq_true, decide_eq_true_eq, not_or, not_not] at hguard
        cases h
        exact .bind id hseen (Bool.eq_false_iff.mpr hguard.1) ⟨htype, hbinding ▸ hcustom⟩ hguard.2
    · next hbinding =>
      have hother : ¬ RecordsBinding e := fun hrecord =>
        hbinding (Option.some.inj (hcustom.symm.trans hrecord.2))
      split at h
      · split at h
        · cases h
        · next marker _ =>
          split at h
          · cases h
          · next hguard =>
            simp only [Bool.or_eq_true, not_or] at hguard
            cases h
            exact .mark id marker hseen (by simpa using hguard.1.1.1.1.1)
              (by simpa using hguard.1.1.1.1.2) hother
      · split at h
        · cases h
        · cases h
          exact .entry id hseen hother

theorem consume_cases (h : consume env binding s line = some t) :
    ∃ e, (env.parse (String.ofList line)).bind Json.object? = some e ∧
      EvidenceScan.Takes binding e s t := by
  unfold consume at h
  split at h
  · cases h
  · next e hparse =>
    refine ⟨e, hparse, ?_⟩
    split at h
    · next hunseen =>
      split at h
      · cases h
        exact .header (by simpa using hunseen)
      · cases h
    · next hseen =>
      have hseen : s.headerSeen = true := by simpa using hseen
      unfold consumeEntry at h
      split at h
      · cases h
      · next type id hidentified =>
        have htype := identified_type hidentified
        simp only at h
        split at h
        · cases h
        · split at h
          · next hplain =>
            cases h
            exact .entry id hseen fun hrecord => hplain (Option.some.inj (htype.symm.trans hrecord.1))
          · next hcustom =>
            have hcustom : type = "custom" := by simpa using hcustom
            exact consumeCustom_takes hseen (hcustom ▸ htype) h

theorem consume_of_parse {e : Fields} (h : env.parse (String.ofList line) = some (.object e)) :
    consume env binding s line =
      if !s.headerSeen then
        if isHeader env binding e then some { s with headerSeen := true } else none
      else consumeEntry env binding s e := by
  unfold consume
  rw [h]
  rfl

/-- After a line the header has been seen. -/
theorem consume_header (h : consume env binding s line = some t) : t.headerSeen = true := by
  obtain ⟨e, -, htakes⟩ := consume_cases h
  cases htakes with
  | header => rfl
  | entry _ hseen | bind _ hseen | mark _ _ hseen => exact hseen

/-! ## Several lines -/

/-- What a scan keeps: its proofs, and that they are of the binding. -/
structure EvidenceScan.Extends (binding : SessionBinding) (s t : EvidenceScan) : Prop where
  proofs : s.proofs <+: t.proofs
  own : (∀ p ∈ s.proofs, p.session = binding ∧ p.marker.canonicalChatId = binding.canonicalChatId) →
    ∀ p ∈ t.proofs, p.session = binding ∧ p.marker.canonicalChatId = binding.canonicalChatId

theorem consume_extends (h : consume env binding s line = some t) : s.Extends binding t := by
  obtain ⟨e, -, htakes⟩ := consume_cases h
  cases htakes with
  | header | entry | bind => exact ⟨List.prefix_refl _, id⟩
  | mark id marker hseen hbound hchat hother =>
    refine ⟨List.prefix_append _ _, fun hown p hp => ?_⟩
    obtain hp | hp := List.mem_append.mp hp
    · exact hown p hp
    · obtain rfl := List.mem_singleton.mp hp
      exact ⟨rfl, hchat⟩

theorem consumeText_extends {text : List Char}
    (h : LineReader.consumeText (consume env binding) s text = some t) : s.Extends binding t := by
  refine LineReader.consumeText_keeps h (fun s => ⟨List.prefix_refl _, fun hown => hown⟩) ?_ ?_
  · exact fun hst htu => ⟨hst.proofs.trans htu.proofs, fun hown => htu.own (hst.own hown)⟩
  · exact fun s line t hline => consume_extends hline

/-- Two scans that take the same lines, and of which the first gets bound, are of one
binding. -/
theorem foldlM_binding {ls : List (List Char)} (hs : s.bound = false)
    (hseen : s.headerSeen = s'.headerSeen) (ht : t.bound = true)
    (h : ls.foldlM (consume env binding) s = some t)
    (h' : ls.foldlM (consume env other) s' = some t') : binding = other := by
  induction ls generalizing s s' with
  | nil =>
    obtain rfl : s = t := Option.some.inj h
    rw [hs] at ht
    cases ht
  | cons line ls ih =>
    rw [List.foldlM_cons] at h h'
    obtain ⟨u, hline, hrest⟩ := Option.bind_eq_some_iff.mp h
    obtain ⟨u', hline', hrest'⟩ := Option.bind_eq_some_iff.mp h'
    obtain ⟨e, hparse, htakes⟩ := consume_cases hline
    obtain ⟨e', hparse', htakes'⟩ := consume_cases hline'
    obtain rfl : e = e' := Option.some.inj (hparse.symm.trans hparse')
    cases htakes with
    | bind id hseen' hunbound hrecord hdata =>
      -- The record that binds the first scan is the record of the other binding too.
      rw [hseen] at hseen'
      cases htakes' with
      | header hunseen =>
        rw [hseen'] at hunseen
        cases hunseen
      | bind _ _ _ _ hdata' => exact Option.some.inj (hdata.symm.trans hdata')
      | entry _ _ hother | mark _ _ _ _ _ hother => exact absurd hrecord hother
    | mark _ _ _ hbound =>
      rw [hs] at hbound
      cases hbound
    | header | entry =>
      apply ih _ _ hrest hrest'
      · exact hs
      · exact (consume_header hline).trans (consume_header hline').symm

/-! ## Whole files -/

theorem evidenceOf_encode {text : List Char} (h : Utf8.dropMark text = text) :
    evidenceOf env binding (Utf8.encode text) =
      (LineReader.consumeText (consume env binding) .empty text).bind EvidenceScan.proven := by
  unfold evidenceOf Utf8.decodeText
  rw [Utf8.decode_encode, Option.map_some, h]
  rfl

/-- The text of a content that proves something, and the scan that its lines come to. -/
theorem evidenceOf_some (h : evidenceOf env binding content = some ps) :
    content ≠ [] ∧ ∃ text s, Utf8.decodeText content = some text ∧
      LineReader.consumeText (consume env binding) .empty text = some s ∧ s.bound = true ∧
        s.proofs = ps := by
  have hne : content ≠ [] := by
    rintro rfl
    rw [evidenceOf_nil] at h
    cases h
  obtain ⟨text, htext, hrest⟩ := Option.bind_eq_some_iff.mp h
  obtain ⟨s, hscan, hproven⟩ := Option.bind_eq_some_iff.mp hrest
  unfold EvidenceScan.proven at hproven
  split at hproven
  · next hguard =>
    cases hproven
    exact ⟨hne, text, s, htext, hscan, (Bool.and_eq_true_iff.mp hguard).2, rfl⟩
  · cases hproven

/-- The proofs of a file that is accepted are of its binding. -/
theorem evidenceOf_own (h : evidenceOf env binding content = some ps) :
    ∀ p ∈ ps, p.session = binding ∧ p.marker.canonicalChatId = binding.canonicalChatId := by
  obtain ⟨-, text, s, -, hscan, -, rfl⟩ := evidenceOf_some h
  exact (consumeText_extends hscan).own fun p hp => by cases hp

/-- The text of a continuation, after that of a file that is accepted. -/
theorem decodeText_of_evidence (h : evidenceOf env binding content = some ps)
    (h' : evidenceOf env other (content ++ more) = some qs) :
    ∃ text rest s, Utf8.decodeText (content ++ more) = some (text ++ rest) ∧
      LineReader.consumeText (consume env binding) .empty text = some s ∧ s.bound = true ∧
        s.proofs = ps := by
  obtain ⟨hne, text, s, htext, hscan, hbound, hps⟩ := evidenceOf_some h
  obtain ⟨-, text', s', htext', -, -, -⟩ := evidenceOf_some h'
  have hall := Utf8.decodeText_append htext hne more
  rw [htext'] at hall
  obtain ⟨rest, -, hrest⟩ := Option.map_eq_some_iff.mp hall.symm
  exact ⟨text, rest, s, hrest ▸ htext', hscan, hbound, hps⟩

/-- The proofs of a longer file start with those of the shorter. -/
theorem evidenceOf_append (h : evidenceOf env binding content = some ps)
    (h' : evidenceOf env binding (content ++ more) = some qs) : ps <+: qs := by
  obtain ⟨text, rest, s, htext, hscan, -, rfl⟩ := decodeText_of_evidence h h'
  obtain ⟨-, text', s', htext', hscan', -, rfl⟩ := evidenceOf_some h'
  obtain rfl : text ++ rest = text' := Option.some.inj (htext.symm.trans htext')
  rw [LineReader.consumeText_append hscan] at hscan'
  exact (consumeText_extends hscan').proofs

/-- A file and its continuation are accepted for one binding. -/
theorem evidenceOf_binding (h : evidenceOf env binding content = some ps)
    (h' : evidenceOf env other (content ++ more) = some qs) : binding = other := by
  obtain ⟨text, rest, s, htext, hscan, hbound, -⟩ := decodeText_of_evidence h h'
  obtain ⟨-, text', s', htext', hscan', -, -⟩ := evidenceOf_some h'
  obtain rfl : text ++ rest = text' := Option.some.inj (htext.symm.trans htext')
  -- Both scans take the lines of the shorter text.
  rw [LineReader.consumeText_eq, LineReader.drain_append] at hscan'
  obtain ⟨r, hr, -⟩ := Option.bind_eq_some_iff.mp hscan'
  obtain ⟨r, hprefix, -⟩ := Option.bind_eq_some_iff.mp hr
  rw [LineReader.drain_eq] at hprefix
  obtain ⟨u, hfold', -⟩ := Option.map_eq_some_iff.mp hprefix
  obtain ⟨u', hfold, hu⟩ := Option.bind_eq_some_iff.mp hscan
  split at hu
  · cases hu
    exact foldlM_binding rfl rfl hbound hfold hfold'
  · cases hu

end WhatsAppMcp.Controller.Pi
