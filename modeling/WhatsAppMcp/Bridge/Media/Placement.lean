import WhatsAppMcp.Bridge.Client.Extraction
import WhatsAppMcp.Bridge.Media.Places
import WhatsAppMcp.Bridge.Notify.Timestamps
import WhatsAppMcp.Bridge.Values

/-!
# Where the media of a chat are kept

`Download` writes the media of a message to the path of `ResolveLocalPath`, under a
file name that a sender may have chosen.

The directory of a chat is the root of the media with the sanitised identity of the chat.
What the code makes of a file name is in `place_resolveLocalPath`: a name whose base is a
dot or a slash is the directory itself, and `..` is the root.  The suffix test for `media`
does not see an output directory that is `media` alone, or that ends in a slash.

* `media_kept_iff`: a file is in the directory of its chat exactly where its name is a
  name and the suffix test finds the segment `media`.
-/

namespace WhatsAppMcp.Bridge.Media

open Calendar (padded padded_isDigit)
open Client (MediaMessage Message extractMediaInfo mimeToExt)

/-! ## Directories -/

/-- The output directory, with a segment `media` unless it ends in one. -/
def mediaRoot (outDir : String) : String :=
  if base outDir = "media" then outDir else join [outDir, "media"]

/-- The directory of a chat. -/
def chatDirectory (outDir chatJid : String) : String := join [mediaRoot outDir, sanitizeJid chatJid]

/-- The path is a direct child of the chat's directory: not that directory, not above it,
and not inside the directory of another chat. -/
structure Kept (cwd : List String) (outDir chatJid path : String) : Prop where
  child : ∃ name, IsName name ∧ place cwd path = name :: place cwd (chatDirectory outDir chatJid)
  notAbove : ¬ place cwd path <:+ place cwd (chatDirectory outDir chatJid)
  apart : ∀ other, isChatJid other = true → other ≠ chatJid →
    ¬ place cwd (chatDirectory outDir other) <:+ place cwd path

/-- The suffix test of `ResolveLocalPath` finds the segment where there is one. -/
def FindsMedia (outDir : String) : Prop :=
  base outDir = "media" → "/media".toList.isSuffixOf outDir.toList = true

instance (outDir : String) : Decidable (FindsMedia outDir) :=
  inferInstanceAs (Decidable (_ → _))

/-- The base of a file name is a name. -/
def NamesFile (filename : String) : Prop := base filename ∉ [".", "..", "/"]

instance (filename : String) : Decidable (NamesFile filename) :=
  inferInstanceAs (Decidable (_ ∉ _))

/-! ## Names -/

/-- No character of an identity that the API admits is one that `sanitizeJID` replaces. -/
theorem isChatJid_safe {jid : String} (h : isChatJid jid = true) {c : Char} (hc : c ∈ jid.toList) :
    c ∉ [':', '/', '\\', ' '] := by
  simp only [isChatJid, matchesJid, Bool.and_eq_true, List.any_eq_true, beq_iff_eq] at h
  obtain ⟨-, server, hserver, hrest⟩ := h
  rw [← List.takeWhile_append_dropWhile (p := Char.isDigit) (l := jid.toList), hrest] at hc
  intro hbad
  rcases List.mem_append.mp hc with hc | hc
  · have hdigit : c.isDigit = true := List.mem_takeWhile_imp hc
    have hnone : [':', '/', '\\', ' '].all (fun b => !b.isDigit) = true := by decide
    have hnot := List.all_eq_true.mp hnone c hbad
    rw [hdigit] at hnot
    exact Bool.noConfusion hnot
  · have hnone : (["s.whatsapp.net", "g.us", "lid"].all fun server =>
        [':', '/', '\\', ' '].all fun b => !('@' :: server.toList).contains b) = true := by decide
    have hnot := List.all_eq_true.mp (List.all_eq_true.mp hnone server hserver) c hbad
    rw [List.contains_iff_mem.mpr hc] at hnot
    exact Bool.noConfusion hnot

theorem isChatJid_head {jid : String} (h : isChatJid jid = true) :
    jid.toList.head?.any Char.isDigit = true := by
  simp only [isChatJid, matchesJid, Bool.and_eq_true] at h
  exact h.1

theorem isName_chatJid {jid : String} (h : isChatJid jid = true) : IsName jid := by
  have hhead := isChatJid_head h
  refine ⟨?_, ?_, ?_, ?_⟩
  · rintro rfl
    exact absurd hhead (by decide)
  · rintro rfl
    exact absurd hhead (by decide)
  · rintro rfl
    exact absurd hhead (by decide)
  · intro hslash
    exact isChatJid_safe h hslash (by decide)

/-- An identity that the API admits is its own directory name. -/
theorem sanitizeJid_chat {jid : String} (h : isChatJid jid = true) : sanitizeJid jid = jid := by
  have hmap : (jid.toList.map fun c => if c ∈ [':', '/', '\\', ' '] then '_' else c) = jid.toList.map id := by
    apply List.map_congr_left
    intro c hc
    exact if_neg (isChatJid_safe h hc)
  rw [sanitizeJid, hmap, List.map_id, String.ofList_toList]

/-- The base of a path is a dot, a slash, or an element that is not empty. -/
theorem base_cases (path : String) :
    base path = "." ∨ base path = "/" ∨ base path ≠ "" ∧ '/' ∉ (base path).toList := by
  unfold base
  split
  · exact .inl rfl
  · right
    cases hlast : ((elements path).filter (· ≠ "")).getLast? with
    | none => exact .inl rfl
    | some last =>
      have hmem := List.mem_of_getLast? hlast
      rw [List.mem_filter] at hmem
      exact .inr ⟨by simpa using hmem.2, slash_notMem_of_mem_elements hmem.1⟩

theorem NamesFile.isName {filename : String} (h : NamesFile filename) : IsName (base filename) := by
  simp only [NamesFile, List.mem_cons, List.not_mem_nil, or_false, not_or] at h
  rcases base_cases filename with hdot | hslash | ⟨hne, hone⟩
  · exact absurd hdot h.1
  · exact absurd hslash h.2.2
  · exact ⟨hne, h.1, h.2.1, hone⟩

/-- A name is its own base. -/
theorem base_of_isName {name : String} (h : IsName name) : base name = name := by
  rw [base, if_neg h.nonempty, elements_of_slash_notMem h.oneElement]
  simp [h.nonempty]

/-! ## Places -/

/-- The root that `ResolveLocalPath` takes. -/
def codeRoot (outDir : String) : String :=
  if "/media".toList.isSuffixOf outDir.toList then outDir else join [outDir, "media"]

theorem isName_media : IsName "media" := ⟨by decide, by decide, by decide, by decide⟩

theorem place_join_media (cwd : List String) (outDir : String) :
    place cwd (join [outDir, "media"]) = "media" :: place cwd outDir := by
  by_cases hempty : outDir = ""
  · subst hempty
    have hjoin : join ["", "media"] = "media" := by decide
    rw [hjoin]
    rfl
  · rw [place_join cwd hempty]
    simp only [List.foldl_cons, List.foldl_nil]
    rw [elements_of_slash_notMem isName_media.oneElement]
    exact enter_name isName_media _

/-- No path is joined to the empty one: its place would be the working directory. -/
theorem join_media_ne (outDir : String) : join [outDir, "media"] ≠ "" := by
  intro hempty
  have hplace := place_join_media [] outDir
  rw [hempty] at hplace
  exact List.cons_ne_nil _ _ (show [] = _ from hplace).symm

theorem codeRoot_ne (outDir : String) : codeRoot outDir ≠ "" := by
  unfold codeRoot
  split
  · rintro rfl
    contradiction
  · exact join_media_ne outDir

theorem mediaRoot_ne (outDir : String) : mediaRoot outDir ≠ "" := by
  unfold mediaRoot
  split
  · rintro rfl
    contradiction
  · exact join_media_ne outDir

theorem place_chatDirectory (cwd : List String) (outDir : String) {jid : String} (h : isChatJid jid = true) :
    place cwd (chatDirectory outDir jid) = jid :: place cwd (mediaRoot outDir) := by
  have hname := isName_chatJid h
  unfold chatDirectory
  rw [sanitizeJid_chat h, place_join cwd (mediaRoot_ne outDir)]
  simp only [List.foldl_cons, List.foldl_nil]
  rw [elements_of_slash_notMem hname.oneElement]
  exact enter_name hname _

/-- The path goes on from the chat's directory under the root with the base of the name. -/
theorem place_resolveLocalPath (cwd : List String) (outDir : String) {jid : String} (h : isChatJid jid = true)
    (filename : String) :
    place cwd (resolveLocalPath outDir jid filename) =
      (elements (base filename)).foldl enter (jid :: place cwd (codeRoot outDir)) := by
  have hname := isName_chatJid h
  show place cwd (join [codeRoot outDir, sanitizeJid jid, base filename]) = _
  rw [sanitizeJid_chat h, place_join cwd (codeRoot_ne outDir)]
  simp only [List.foldl_cons, List.foldl_nil]
  rw [elements_of_slash_notMem hname.oneElement]
  show (elements (base filename)).foldl enter (enter _ jid) = _
  rw [enter_name hname]

theorem NamesFile.place {filename : String} (h : NamesFile filename) (here : List String) :
    (elements (base filename)).foldl enter here = base filename :: here := by
  rw [elements_of_slash_notMem h.isName.oneElement]
  exact enter_name h.isName here

/-- A name whose base is no name stays at the directory, or leaves it. -/
theorem place_of_not_namesFile {filename : String} (h : ¬ NamesFile filename) (here : List String) :
    (elements (base filename)).foldl enter here = here ∨
      (elements (base filename)).foldl enter here = here.tail := by
  simp only [NamesFile, not_not, List.mem_cons, List.not_mem_nil, or_false] at h
  rcases h with hbase | hbase | hbase <;> rw [hbase]
  · left
    have hels : elements "." = ["."] := by decide
    rw [hels]
    rfl
  · right
    have hels : elements ".." = [".."] := by decide
    rw [hels]
    rfl
  · left
    have hels : elements "/" = ["", ""] := by decide
    rw [hels]
    rfl

/-! ## The root -/

theorem base_of_suffix {outDir : String} (h : "/media".toList.isSuffixOf outDir.toList = true) :
    base outDir = "media" := by
  obtain ⟨pre, hpre⟩ := List.isSuffixOf_iff_suffix.mp h
  have htext : outDir = String.ofList pre ++ "/" ++ "media" := by
    rw [← String.toList_inj, ← hpre]
    simp
  have hels : elements "media" = ["media"] := by decide
  have hne : outDir ≠ "" := by
    rw [htext]
    simp
  rw [base, if_neg hne, htext, elements_slash, hels]
  simp

theorem codeRoot_of_finds {outDir : String} (h : FindsMedia outDir) : codeRoot outDir = mediaRoot outDir := by
  unfold codeRoot mediaRoot
  by_cases hsuffix : "/media".toList.isSuffixOf outDir.toList = true
  · rw [if_pos hsuffix, if_pos (base_of_suffix hsuffix)]
  · rw [if_neg hsuffix, if_neg fun hbase => hsuffix (h hbase)]

/-- Where the test misses the segment, the code takes a directory below the root. -/
theorem place_codeRoot_of_misses {outDir : String} (h : ¬ FindsMedia outDir) (cwd : List String) :
    place cwd (codeRoot outDir) = "media" :: place cwd (mediaRoot outDir) := by
  unfold FindsMedia at h
  push Not at h
  unfold codeRoot mediaRoot
  rw [if_pos h.1, if_neg h.2]
  exact place_join_media cwd outDir

/-! ## The file -/

section Kept

variable {cwd : List String} {outDir jid : String}

/-- A child of the chat's directory is nowhere else. -/
theorem Kept.of_child {path name : String} (hjid : isChatJid jid = true) (hname : IsName name)
    (h : place cwd path = name :: place cwd (chatDirectory outDir jid)) : Kept cwd outDir jid path := by
  refine ⟨⟨name, hname, h⟩, ?_, ?_⟩
  · intro habove
    have hlength := habove.length_le
    rw [h, List.length_cons] at hlength
    omega
  · intro other hother hne hinside
    rw [h, place_chatDirectory cwd outDir hjid, place_chatDirectory cwd outDir hother] at hinside
    rcases List.suffix_cons_iff.mp hinside with heq | hinside
    · have hlength := congrArg List.length heq
      simp at hlength
    · have heq := hinside.eq_of_length rfl
      exact hne (List.cons.inj heq).1

/-- The file of a message is in the directory of its chat exactly where its name is a name
and the root is the one that the suffix test finds. -/
theorem resolveLocalPath_kept (hjid : isChatJid jid = true) (filename : String) :
    Kept cwd outDir jid (resolveLocalPath outDir jid filename) ↔ NamesFile filename ∧ FindsMedia outDir := by
  have hpath := place_resolveLocalPath cwd outDir hjid filename
  have hdir := place_chatDirectory cwd outDir hjid
  constructor
  · rintro ⟨⟨name, hname, hchild⟩, -, -⟩
    rw [hpath, hdir] at hchild
    by_cases hnames : NamesFile filename
    · refine ⟨hnames, ?_⟩
      by_contra hmisses
      rw [hnames.place, place_codeRoot_of_misses hmisses] at hchild
      have hlength := congrArg List.length hchild
      simp at hlength
    · exfalso
      by_cases hfinds : FindsMedia outDir
      · rw [codeRoot_of_finds hfinds] at hchild
        have hlength := congrArg List.length hchild
        rcases place_of_not_namesFile hnames (jid :: place cwd (mediaRoot outDir)) with h | h <;>
          rw [h] at hlength <;> simp at hlength
        omega
      · rw [place_codeRoot_of_misses hfinds] at hchild
        rcases place_of_not_namesFile hnames (jid :: "media" :: place cwd (mediaRoot outDir)) with h | h <;>
          rw [h] at hchild
        · -- The directory below has the depth of a child, but it is called `media`.
          have hmedia : "media" = jid := (List.cons.inj (List.cons.inj hchild).2).1
          rw [← hmedia] at hjid
          exact absurd hjid (by decide)
        · have hlength := congrArg List.length hchild
          simp at hlength
  · rintro ⟨hnames, hfinds⟩
    apply Kept.of_child hjid hnames.isName
    rw [hpath, hdir, hnames.place, codeRoot_of_finds hfinds]

end Kept

/-! ## The names of the media -/

/-- `nowStamp`. -/
def nowStamp (now : Int) : String :=
  let d := Notify.dateOf now
  let seconds := Notify.secondsOf now
  String.ofList (padded 4 d.year.toNat ++ padded 2 d.month ++ padded 2 d.day ++ '_' ::
    (padded 2 (seconds / 3600) ++ padded 2 (seconds / 60 % 60) ++ padded 2 (seconds % 60)))

/-- The file name that the sender chose: only a document has one, and an empty one is
replaced. -/
def chosenName : Message → Option String
  | ⟨_, _, none, none, none, some doc⟩ => if doc.fileName = "" then none else some doc.fileName
  | _ => none

theorem nowStamp_oneElement (now : Int) : '/' ∉ (nowStamp now).toList := by
  intro hslash
  unfold nowStamp at hslash
  rw [String.toList_ofList] at hslash
  have hdigits : ∀ {width n : Nat}, '/' ∉ padded width n := fun hmem =>
    absurd (padded_isDigit hmem) (by decide)
  simp only [List.mem_append, List.mem_cons] at hslash
  have hne : '/' ≠ '_' := by decide
  simp [hdigits, hne] at hslash

theorem mimeToExt_oneElement {mime default : String} (h : '/' ∉ default.toList) :
    '/' ∉ (mimeToExt mime default).toList := by
  unfold mimeToExt
  repeat' split
  all_goals first
    | exact h
    | decide

/-- A text of more than two characters without a slash names a file. -/
theorem namesFile_of_length {filename : String} (hlength : 2 < filename.toList.length)
    (hone : '/' ∉ filename.toList) : NamesFile filename := by
  have hname : IsName filename := by
    refine ⟨?_, ?_, ?_, hone⟩ <;> rintro rfl <;> simp at hlength
  have hslash : filename ≠ "/" := by
    rintro rfl
    simp at hlength
  unfold NamesFile
  rw [base_of_isName hname]
  simp [hname.notHere, hname.notAbove, hslash]

/-- A name that the bridge makes from the clock names a file. -/
theorem namesFile_generated {kind ext : String} (now : Int) (hkind : 2 < kind.toList.length)
    (hkindOne : '/' ∉ kind.toList) (hext : '/' ∉ ext.toList) :
    NamesFile (kind ++ nowStamp now ++ ext) := by
  apply namesFile_of_length
  · rw [String.toList_append, String.toList_append, List.length_append, List.length_append]
    omega
  · simp only [String.toList_append, List.mem_append, not_or]
    exact ⟨⟨hkindOne, nowStamp_oneElement now⟩, hext⟩

/-- The file name of a message with media names a file unless the sender chose one that
does not. -/
theorem namesFile_extract {msg : Message} {now : Int}
    (hmedia : (extractMediaInfo (nowStamp now) (some msg)).mediaType ≠ "") :
    NamesFile (extractMediaInfo (nowStamp now) (some msg)).filename ↔
      ∀ name, chosenName msg = some name → NamesFile name := by
  obtain ⟨conversation, extended, image, video, audio, document⟩ := msg
  cases image with
  | some img =>
    refine iff_of_true ?_ nofun
    exact namesFile_generated now (by decide) (by decide) (mimeToExt_oneElement (by decide))
  | none =>
  cases video with
  | some vid =>
    refine iff_of_true ?_ nofun
    exact namesFile_generated now (by decide) (by decide) (mimeToExt_oneElement (by decide))
  | none =>
  cases audio with
  | some aud =>
    refine iff_of_true ?_ nofun
    exact namesFile_generated now (by decide) (by decide) (by decide)
  | none =>
  cases document with
  | none => exact absurd rfl hmedia
  | some doc =>
    show NamesFile (if doc.fileName = "" then "document_" ++ nowStamp now else doc.fileName) ↔
      ∀ name, (if doc.fileName = "" then none else some doc.fileName) = some name → NamesFile name
    split
    · refine iff_of_true ?_ nofun
      have hnames : NamesFile ("document_" ++ nowStamp now ++ "") :=
        namesFile_generated now (by decide) (by decide) (by decide)
      rwa [String.append_empty] at hnames
    · constructor
      · rintro h name ⟨⟩
        exact h
      · intro h
        exact h _ rfl

/-- The media of a chat are kept in its directory exactly where no sender chose a name that
is no name, and the output directory does not end in `media` unseen. -/
theorem media_kept_iff (cwd : List String) (outDir : String) {jid : String} (hjid : isChatJid jid = true)
    (now : Int) {msg : Message} (hmedia : (extractMediaInfo (nowStamp now) (some msg)).mediaType ≠ "") :
    Kept cwd outDir jid
        (resolveLocalPath outDir jid (extractMediaInfo (nowStamp now) (some msg)).filename) ↔
      (∀ name, chosenName msg = some name → NamesFile name) ∧ FindsMedia outDir := by
  rw [resolveLocalPath_kept hjid, namesFile_extract hmedia]

/-- A message that carries a document under a name. -/
def documentNamed (fileName : String) : Message :=
  { conversation := "", extendedText := none, image := none, video := none, audio := none
    document := some ⟨"application/pdf", fileName, "https://mmg.whatsapp.net/v/f", "/v/f", [1], [2], [3], 4, none⟩ }

theorem media_kept_scan : Kept ["srv"] "/data" "49@g.us"
    (resolveLocalPath "/data" "49@g.us"
      (extractMediaInfo (nowStamp 0) (some (documentNamed "../scan.pdf"))).filename) :=
  (media_kept_iff ["srv"] "/data" (by decide +kernel) 0 (by decide +kernel)).mpr
    ⟨by
      intro name hname
      obtain rfl : "../scan.pdf" = name := Option.some.inj hname
      decide +kernel, by decide +kernel⟩

/-- A document called `..` is kept at the root of the media, above the chat's directory. -/
theorem media_not_kept : ¬ ∀ (cwd : List String) (outDir jid : String) (now : Int) (msg : Message),
    isChatJid jid = true → (extractMediaInfo (nowStamp now) (some msg)).mediaType ≠ "" →
      Kept cwd outDir jid
        (resolveLocalPath outDir jid (extractMediaInfo (nowStamp now) (some msg)).filename) := by
  intro h
  have hkept := h [] "/data" "49@g.us" 0 (documentNamed "..") (by decide +kernel) (by decide +kernel)
  have hpath : resolveLocalPath "/data" "49@g.us"
      (extractMediaInfo (nowStamp 0) (some (documentNamed ".."))).filename = "/data/media" := by
    decide +kernel
  rw [hpath] at hkept
  exact hkept.notAbove (by decide +kernel)

end WhatsAppMcp.Bridge.Media
