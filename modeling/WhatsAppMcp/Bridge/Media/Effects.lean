import WhatsAppMcp.Bridge.Media.Download

/-!
# What a download and a copy do to the files

`download` and `copyFile` work at one path, the one that `ResolveLocalPath` gives, and
leave every other file as it was: `download_sameBut` and `copyFile_sameBut`.

What is at the path afterwards is the media of the message only where the path was
`Free` for it, since `download` takes whatever it finds there.
-/

namespace WhatsAppMcp.Bridge.Media

open Store (MessageRow)

/-- The path holds nothing or the whole data, and it is not the place of a directory on
the way to it. -/
structure Free (disk : Disk) (path : String) (data : List UInt8) : Prop where
  holds : disk.get path = none ∨ disk.get path = some (.file data)
  apart : ∀ p ∈ directories (dir path), disk.place p ≠ disk.place path

/-- Whatever `client.Download` returns is this data. -/
def DownloadEnv.Delivers (env : DownloadEnv) (data : List UInt8) : Prop :=
  ∀ media received, env.fetch media = .ok received → received = data

/-- `os.WriteFile` leaves no part of a file. -/
def DownloadEnv.WritesWhole (env : DownloadEnv) : Prop :=
  ∀ e n, env.write ≠ some (e, some n)

section MkdirAll

variable {fault : Option (PathError × Nat)} {path : String} {disk disk' : Disk} {err : Option PathError}

theorem mkdirAll_sameBut {q : String} (h : mkdirAll fault path disk = (disk', err)) :
    disk.SameBut disk' q := by
  unfold mkdirAll at h
  split at h <;> rw [← (Prod.mk.inj h).1] <;> exact Files.sameBut_mkdirs

theorem mkdirAll_get {p : String} (h : mkdirAll fault path disk = (disk', err))
    (hapart : ∀ q ∈ directories path, disk.place q ≠ disk.place p) : disk'.get p = disk.get p := by
  unfold mkdirAll at h
  split at h
  · rw [← (Prod.mk.inj h).1]
    exact Files.get_mkdirs_of_ne fun q hq => hapart q (List.mem_of_mem_take hq)
  · rw [← (Prod.mk.inj h).1]
    exact Files.get_mkdirs_of_ne hapart

/-- A path stays free while its directories are made. -/
theorem Free.mkdirAll {data : List UInt8} {p : String} (hfree : Free disk p data)
    (h : mkdirAll fault (dir p) disk = (disk', err)) : Free disk' p data := by
  refine ⟨?_, ?_⟩
  · rw [mkdirAll_get h hfree.apart]
    exact hfree.holds
  · rw [(mkdirAll_sameBut (q := p) h).place]
    exact hfree.apart

end MkdirAll

section WriteFile

variable {fault : Option (PathError × Option Nat)} {path : String} {data : List UInt8} {disk disk' : Disk}

theorem writeFile_sameBut {err : Option PathError} (h : writeFile fault path data disk = (disk', err)) :
    disk.SameBut disk' path := by
  unfold writeFile at h
  split at h <;> rw [← (Prod.mk.inj h).1]
  · exact .refl _ _
  · exact .refl _ _
  · exact Files.sameBut_put
  · exact Files.sameBut_put

theorem writeFile_ok (h : writeFile fault path data disk = (disk', none)) :
    disk'.get path = some (.file data) := by
  unfold writeFile at h
  split at h <;> cases h
  exact Files.get_put_self

/-- Where no part of a file is left, a write that fails changes nothing. -/
theorem writeFile_error {e : PathError} (h : writeFile fault path data disk = (disk', some e))
    (hwhole : ∀ e n, fault ≠ some (e, some n)) : disk' = disk := by
  unfold writeFile at h
  split at h
  · cases h
    rfl
  · cases h
    rfl
  · exact absurd rfl (hwhole _ _)
  · cases h

end WriteFile

/-! ## Download -/

section Download

variable {env : DownloadEnv} {msg : MessageRow} {outDir : String} {disk disk' : Disk} {data : List UInt8}
variable {outcome : Except GoError DownloadResult} {result : DownloadResult}

theorem retrieve_sameBut {path : String} (h : retrieve env msg path disk = (disk', outcome)) :
    disk.SameBut disk' path := by
  unfold retrieve at h
  split at h
  · rw [← (Prod.mk.inj h).1]
    exact .refl _ _
  · split at h
    · rw [← (Prod.mk.inj h).1]
      exact .refl _ _
    · split at h
      · rw [← (Prod.mk.inj h).1]
        exact .refl _ _
      · split at h <;> next hwrite => rw [← (Prod.mk.inj h).1]; exact writeFile_sameBut hwrite

theorem retrieve_ok {path : String} (h : retrieve env msg path disk = (disk', .ok result))
    (hdelivers : env.Delivers data) : result.path = path ∧ disk'.get path = some (.file data) := by
  unfold retrieve at h
  split at h
  · cases h
  · split at h
    · cases h
    · split at h
      · cases h
      · next received hfetch =>
        split at h
        · cases h
        · next hwrite =>
          rw [hdelivers _ _ hfetch] at hwrite
          cases h
          exact ⟨rfl, writeFile_ok hwrite⟩

theorem retrieve_error {path : String} {e : GoError} (h : retrieve env msg path disk = (disk', .error e))
    (hwhole : env.WritesWhole) : disk' = disk := by
  unfold retrieve at h
  split at h
  · cases h
    rfl
  · split at h
    · cases h
      rfl
    · split at h
      · cases h
        rfl
      · split at h
        · next hwrite =>
          cases h
          exact writeFile_error hwrite hwhole
        · cases h

/-- A download works at its path alone. -/
theorem download_sameBut (h : download env msg outDir disk = (disk', outcome)) :
    disk.SameBut disk' (resolveLocalPath outDir msg.chatJid msg.filename) := by
  unfold download at h
  split at h
  · rw [← (Prod.mk.inj h).1]
    exact .refl _ _
  · dsimp only at h
    split at h
    · next hmkdir =>
      rw [← (Prod.mk.inj h).1]
      exact mkdirAll_sameBut hmkdir
    · next hmkdir =>
      split at h
      · rw [← (Prod.mk.inj h).1]
        exact mkdirAll_sameBut hmkdir
      · exact (mkdirAll_sameBut hmkdir).trans (retrieve_sameBut h)

/-- At a path that is free for the media, a download that succeeds has the media there:
what it found is the media, or what it wrote. -/
theorem download_ok (h : download env msg outDir disk = (disk', .ok result))
    (hfree : Free disk (resolveLocalPath outDir msg.chatJid msg.filename) data)
    (hdelivers : env.Delivers data) :
    result.path = resolveLocalPath outDir msg.chatJid msg.filename ∧
      disk'.get result.path = some (.file data) := by
  unfold download at h
  split at h
  · cases h
  · dsimp only at h
    split at h
    · cases h
    · next hmkdir =>
      split at h
      · next node hstat =>
        cases h
        have hnode : disk'.get (resolveLocalPath outDir msg.chatJid msg.filename) = some node := by
          unfold lookup at hstat
          split at hstat
          · cases hstat
          · next hget => exact hget.trans (congrArg some (Except.ok.inj hstat))
          · cases hstat
        refine ⟨rfl, ?_⟩
        rcases (hfree.mkdirAll hmkdir).holds with hnone | hwhole
        · rw [hnone] at hnode
          cases hnode
        · exact hwhole
      · obtain ⟨hpath, hget⟩ := retrieve_ok h hdelivers
        exact ⟨hpath, hpath ▸ hget⟩

/-- A download that fails and leaves no part of a file leaves a free path as it was. -/
theorem download_error {e : GoError} (h : download env msg outDir disk = (disk', .error e))
    (hfree : Free disk (resolveLocalPath outDir msg.chatJid msg.filename) data)
    (hwhole : env.WritesWhole) :
    disk'.get (resolveLocalPath outDir msg.chatJid msg.filename) =
      disk.get (resolveLocalPath outDir msg.chatJid msg.filename) := by
  unfold download at h
  split at h
  · cases h
    rfl
  · dsimp only at h
    split at h
    · next hmkdir =>
      cases h
      exact mkdirAll_get hmkdir hfree.apart
    · next hmkdir =>
      split at h
      · cases h
      · rw [retrieve_error h hwhole]
        exact mkdirAll_get hmkdir hfree.apart

end Download

/-! ## Copies -/

section Copy

variable {env : CopyEnv} {src dst : String} {disk disk' : Disk} {data : List UInt8}
variable {outcome : Except GoError Nat}

theorem discard_sameBut : disk.SameBut (env.discard dst disk) dst := by
  unfold CopyEnv.discard
  split
  · exact .refl _ _
  · exact Files.sameBut_remove

theorem copyContent_sameBut (h : copyContent env src dst disk = (disk', outcome)) :
    disk.SameBut disk' dst := by
  unfold copyContent at h
  split at h
  · rw [← (Prod.mk.inj h).1]
    exact Files.sameBut_put.trans discard_sameBut
  · dsimp only at h
    split at h <;> rw [← (Prod.mk.inj h).1]
    · exact Files.sameBut_put.trans discard_sameBut
    · exact Files.sameBut_put
  · rw [← (Prod.mk.inj h).1]
    exact discard_sameBut

/-- A copy works at its destination alone. -/
theorem copyFile_sameBut (h : copyFile env src dst disk = (disk', outcome)) :
    disk.SameBut disk' dst := by
  unfold copyFile at h
  split at h
  · next hmkdir =>
    rw [← (Prod.mk.inj h).1]
    exact mkdirAll_sameBut hmkdir
  · next hmkdir =>
    split at h
    · rw [← (Prod.mk.inj h).1]
      exact mkdirAll_sameBut hmkdir
    · split at h
      · rw [← (Prod.mk.inj h).1]
        exact mkdirAll_sameBut hmkdir
      · exact (mkdirAll_sameBut hmkdir).trans (Files.sameBut_put.trans (copyContent_sameBut h))

/-- A copy that succeeds, to another place than its source, has the source's data there. -/
theorem copyFile_ok {n : Nat} (h : copyFile env src dst disk = (disk', .ok n))
    (hsrc : disk.get src = some (.file data)) (hne : disk.place src ≠ disk.place dst) :
    disk'.get dst = some (.file data) := by
  unfold copyFile at h
  split at h
  · cases h
  · next disk₁ hmkdir =>
    split at h
    · cases h
    · split at h
      · cases h
      · have hmkdirs := mkdirAll_sameBut (q := dst) hmkdir
        have hplace : disk₁.place src ≠ disk₁.place dst := by rwa [hmkdirs.place]
        have hread : (disk₁.put dst (.file [])).get src = some (.file data) := by
          rw [Files.get_put_of_ne hplace]
          exact (hmkdirs.files src data hne).mpr hsrc
        unfold copyContent at h
        rw [hread] at h
        dsimp only at h
        split at h
        · cases h
        · split at h
          · cases h
          · next copied _ hcopied _ _ =>
            rw [Node.file.inj (Option.some.inj hcopied)]
            cases h
            exact Files.get_put_self
        · cases h

theorem copyContent_localDest {e : GoError} (h : copyContent env src dst disk = (disk', .error e)) :
    e.localDest ≠ none := by
  unfold copyContent at h
  dsimp only at h
  repeat' split at h
  all_goals cases h
  all_goals nofun

/-- A copy that fails at its source leaves the destination free. -/
theorem copyFile_miss {e : GoError} (h : copyFile env src dst disk = (disk', .error e))
    (hsource : asLocalDestError e = none) (hfree : Free disk dst data) : Free disk' dst data := by
  unfold copyFile at h
  split at h
  · cases h
    cases hsource
  · next hmkdir =>
    split at h
    · cases h
      exact hfree.mkdirAll hmkdir
    · split at h
      · cases h
        cases hsource
      · have hdest := copyContent_localDest h
        unfold asLocalDestError at hsource
        split at hsource
        · cases hsource
        · next hnone => exact absurd hnone hdest

end Copy

end WhatsAppMcp.Bridge.Media
