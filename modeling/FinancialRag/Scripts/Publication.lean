/-
  Backups that run at the same time, and next to whatever removes files from their directory.

  A backup is cut at its operations on the directory; a run in which it gets no further has been killed there.
  Its artifact is written under another name and moved, and so is its manifest, and the manifest is made from
  what stands in the artifact, size and hash each read for itself.

  One backup has to do with four files only (`View`), and what it does depends on these alone (`viewStep`,
  `view_backupStep`).  The names of different backups are apart, so of the others one sees nothing
  (`view_of_ne`).

  crux: `reader_never_misled` — a reader that comes at any moment finds an artifact or a manifest missing, or
  finds the whole output of a program that ended well.  It is carried by `Tracked`: what each of the four
  files can hold, by the place at which the backup stands.
-/
import FinancialRag.Lib.Machine
import FinancialRag.Scripts.Retention

set_option linter.unusedVariables false

namespace FinancialRag.Scripts

open Machine
open Retention (isArtifactName isArtifactName_manifestPathFor manifestPathFor_injective)

/-! ## Backups, cut at their operations -/

/-- What a backup makes, and what its manifest says of it. -/
structure Job where
  name : PyStr
  backupType : PyStr
  artifactFormat : PyStr
  source : Members
  metadata : Members

/-- The manifest of the artifact, from what was read of it. -/
def Job.describe (job : Job) (createdAt : PyStr) (size : Nat) (sha256 : PyStr) : Json :=
  .object [entry "schema_version" (.int 1), entry "created_at" (.string createdAt),
    entry "backup_type" (.string job.backupType), entry "format" (.string job.artifactFormat),
    entry "artifact" (.object [entry "filename" (.string job.name), entry "size_bytes" (.int size),
      entry "sha256" (.string sha256)]),
    entry "source" (.object job.source), entry "metadata" (.object job.metadata)]

/-- The name under which a manifest is written before it is complete. -/
def stagingName (name : PyStr) : PyStr := partialName (manifestPathFor name)

/-- The directory, and in it the manifests that are being written; `none` is a part of a text. -/
structure Disk where
  dir : BackupDirectory
  staged : Dict PyStr (Option Json)

inductive BackupPc where
  /-- before `atomic_artifact_paths` -/
  | starting
  /-- before the producer opens the temporary file -/
  | opening
  | producing
  /-- before `publish_artifact` -/
  | publishing
  /-- before `artifact.stat()` -/
  | measuring
  /-- before `sha256_file` -/
  | hashing (createdAt : PyStr) (size : Nat)
  /-- before `temporary_path.write_text` is through -/
  | staging (manifest : Json)
  /-- before `os.replace` -/
  | placing
  | made
  | failed

inductive BackupInput where
  /-- the next operation goes as it goes -/
  | go
  | writes (bytes : Bytes)
  /-- the producer ends well -/
  | finishes
  /-- the producer does not; the caller may remove what it left -/
  | breaks (unlinks : Bool)
  | stats (createdAt : PyStr)
  /-- a part of the manifest is written -/
  | writesPart
  | raises

def Disk.withArtifacts (disk : Disk) (artifacts : Dict PyStr Bytes) : Disk :=
  { disk with dir := { disk.dir with artifacts := artifacts } }

/-- `final_path.unlink(missing_ok=True)` -/
def Disk.abandon (disk : Disk) (name : PyStr) : Disk := disk.withArtifacts (disk.dir.artifacts.erase name)

/-- One operation of a backup. -/
def backupStep (digest : FileDigest) (job : Job) (disk : Disk) :
    BackupPc → BackupInput → Option (BackupPc × Disk)
  | .starting, .go =>
    match atomicArtifactPaths disk.dir job.name with
    | .ok dir => some (.opening, { disk with dir := dir })
    | .error _ => some (.failed, disk)
  | .opening, .go => some (.producing, disk.withArtifacts (disk.dir.artifacts.set (partialName job.name) []))
  | .producing, .writes bytes =>
    match disk.dir.artifacts.get (partialName job.name) with
    | some before =>
      some (.producing, disk.withArtifacts (disk.dir.artifacts.set (partialName job.name) (before ++ bytes)))
    -- what is written to a file that was removed is lost
    | none => some (.producing, disk)
  | .producing, .finishes => some (.publishing, disk)
  | .producing, .breaks unlinks =>
    some (.failed, if unlinks then disk.abandon (partialName job.name) else disk)
  | .publishing, .go =>
    match publishArtifact disk.dir job.name with
    | .ok dir => some (.measuring, { disk with dir := dir })
    | .error _ => some (.failed, disk)
  | .measuring, .stats createdAt =>
    match disk.dir.artifacts.get job.name with
    | some bytes => some (.hashing createdAt bytes.length, disk)
    | none => some (.failed, disk.abandon job.name)
  | .hashing createdAt size, .go =>
    match disk.dir.artifacts.get job.name with
    | some bytes => some (.staging (job.describe createdAt size (digest.hexdigest bytes)), disk)
    | none => some (.failed, disk.abandon job.name)
  | .staging manifest, .writesPart =>
    some (.staging manifest, { disk with staged := disk.staged.set (stagingName job.name) none })
  | .staging manifest, .go =>
    some (.placing, { disk with staged := disk.staged.set (stagingName job.name) (some manifest) })
  | .placing, .go =>
    match disk.staged.get (stagingName job.name) with
    | none => some (.failed, disk.abandon job.name)
    | some found =>
      -- a part of a text is no manifest
      let manifests := match found with
        | some manifest => disk.dir.manifests.set (manifestPathFor job.name) manifest
        | none => disk.dir.manifests.erase (manifestPathFor job.name)
      some (.made, ⟨{ disk.dir with manifests := manifests }, disk.staged.erase (stagingName job.name)⟩)
  | .starting, .raises => some (.failed, disk)
  | .opening, .raises => some (.failed, disk)
  | .publishing, .raises => some (.failed, disk)
  | .measuring, .raises => some (.failed, disk.abandon job.name)
  | .hashing _ _, .raises => some (.failed, disk.abandon job.name)
  | .staging _, .raises => some (.failed, disk.abandon job.name)
  | .placing, .raises => some (.failed, disk.abandon job.name)
  | _, _ => none

/-- A file is gone. -/
def Disk.remove (disk : Disk) (name : PyStr) : Disk where
  dir := { artifacts := disk.dir.artifacts.erase name, manifests := disk.dir.manifests.erase name }
  staged := disk.staged.erase name

/-- The directory, and how far each backup is. -/
structure Backups (κ : Type) where
  disk : Disk
  pcs : κ → BackupPc

inductive BackupEvent (κ : Type) where
  | backup (k : κ) (input : BackupInput)
  /-- somebody removes a file: the retention, or an operator -/
  | removes (name : PyStr)

section Concurrent

variable {κ : Type} [DecidableEq κ] (digest : FileDigest) (jobs : κ → Job)

def Backups.init (disk : Disk) : Backups κ := ⟨disk, fun _ => .starting⟩

def backupsStep (s : Backups κ) : BackupEvent κ → Option (Backups κ)
  | .backup k input =>
    (backupStep digest (jobs k) s.disk (s.pcs k) input).map fun next =>
      ⟨next.2, Function.update s.pcs k next.1⟩
  | .removes name => some { s with disk := s.disk.remove name }

end Concurrent

/-! ## One backup and its files -/

/-- The four files of a backup. -/
structure View where
  artifact : Option Bytes
  temporary : Option Bytes
  manifest : Option Json
  staged : Option (Option Json)

def Disk.view (disk : Disk) (name : PyStr) : View where
  artifact := disk.dir.artifacts.get name
  temporary := disk.dir.artifacts.get (partialName name)
  manifest := disk.dir.manifests.get (manifestPathFor name)
  staged := disk.staged.get (stagingName name)

def View.abandon (v : View) : View := { v with artifact := none }

/-- What a backup does to its files, by what is in them. -/
def viewStep (digest : FileDigest) (job : Job) (v : View) : BackupPc → BackupInput → Option (BackupPc × View)
  | .starting, .go =>
    if v.artifact.isSome || v.manifest.isSome then some (.failed, v)
    else some (.opening, { v with temporary := none })
  | .opening, .go => some (.producing, { v with temporary := some [] })
  | .producing, .writes bytes => some (.producing, { v with temporary := v.temporary.map (· ++ bytes) })
  | .producing, .finishes => some (.publishing, v)
  | .producing, .breaks unlinks => some (.failed, if unlinks then { v with temporary := none } else v)
  | .publishing, .go =>
    match v.temporary with
    | none => some (.failed, v)
    | some bytes =>
      if v.artifact.isSome then some (.failed, v)
      else some (.measuring, { v with artifact := some bytes, temporary := none })
  | .measuring, .stats createdAt =>
    match v.artifact with
    | some bytes => some (.hashing createdAt bytes.length, v)
    | none => some (.failed, v.abandon)
  | .hashing createdAt size, .go =>
    match v.artifact with
    | some bytes => some (.staging (job.describe createdAt size (digest.hexdigest bytes)), v)
    | none => some (.failed, v.abandon)
  | .staging manifest, .writesPart => some (.staging manifest, { v with staged := some none })
  | .staging manifest, .go => some (.placing, { v with staged := some (some manifest) })
  | .placing, .go =>
    match v.staged with
    | none => some (.failed, v.abandon)
    | some found => some (.made, { v with manifest := found, staged := none })
  | .starting, .raises => some (.failed, v)
  | .opening, .raises => some (.failed, v)
  | .publishing, .raises => some (.failed, v)
  | .measuring, .raises => some (.failed, v.abandon)
  | .hashing _ _, .raises => some (.failed, v.abandon)
  | .staging _, .raises => some (.failed, v.abandon)
  | .placing, .raises => some (.failed, v.abandon)
  | _, _ => none

section Names

/-- A partial name is no name of an artifact. -/
theorem partialName_ne_artifact {name other : PyStr} (hother : isArtifactName other = true) :
    partialName name ≠ other := by
  rintro rfl
  have hstart : PyStr.startsWith (partialName name) (text "backup_") = true :=
    (Bool.and_eq_true_iff.mp (Bool.and_eq_true_iff.mp hother).1).1
  obtain ⟨rest, hrest⟩ := PyStr.startsWith_iff.mp hstart
  have hdot : (partialName name).head? = some '.'.codePoint := rfl
  have hb : (text "backup_" ++ rest).head? = some 'b'.codePoint := rfl
  rw [← hrest, hb] at hdot
  exact absurd (Option.some.inj hdot) (by decide)

theorem partialName_injective : Function.Injective partialName := by
  intro name other heq
  unfold partialName at heq
  exact List.append_cancel_left (List.append_cancel_right heq)

theorem stagingName_injective : Function.Injective stagingName :=
  partialName_injective.comp manifestPathFor_injective

/-- **The four files of a backup are four**: artifacts, manifests and what is being written can be told apart
    by name. -/
theorem names_apart {name : PyStr} (hname : isArtifactName name = true) :
    [name, partialName name, manifestPathFor name, stagingName name].Nodup := by
  have hmanifest : manifestPathFor name ≠ name := by
    intro heq
    have hnot := isArtifactName_manifestPathFor name
    rw [heq, hname] at hnot
    cases hnot
  have hcut : partialName name ≠ name := partialName_ne name
  have hstaging : stagingName name ≠ name := partialName_ne_artifact hname
  have hboth : partialName name ≠ stagingName name := fun heq => hmanifest (partialName_injective heq).symm
  have hdot : ∀ other : PyStr, partialName other ≠ manifestPathFor name := by
    intro other heq
    have hstart : PyStr.startsWith name (text "backup_") = true :=
      (Bool.and_eq_true_iff.mp (Bool.and_eq_true_iff.mp hname).1).1
    obtain ⟨rest, hrest⟩ := PyStr.startsWith_iff.mp (Retention.startsWith_manifestPathFor hstart)
    have hhead : (partialName other).head? = some '.'.codePoint := rfl
    have hb : (text "backup_" ++ rest).head? = some 'b'.codePoint := rfl
    rw [heq, ← hrest, hb] at hhead
    exact absurd (Option.some.inj hhead) (by decide)
  simp only [List.nodup_cons, List.mem_cons, List.not_mem_nil, or_false, not_or, List.nodup_nil, and_true,
    not_false_eq_true]
  exact ⟨⟨hcut.symm, hmanifest.symm, hstaging.symm⟩, ⟨hdot name, hboth⟩,
    fun heq => hdot (manifestPathFor name) heq.symm⟩

end Names

/-- **What a backup does depends on its own files only.** -/
theorem view_backupStep (digest : FileDigest) (job : Job) (disk : Disk) (pc : BackupPc) (a : BackupInput) :
    (backupStep digest job disk pc a).map (fun next => (next.1, next.2.view job.name)) =
      viewStep digest job (disk.view job.name) pc a := by
  have hne : partialName job.name ≠ job.name := partialName_ne job.name
  have hview : (disk.abandon job.name).view job.name = (disk.view job.name).abandon := by
    simp [Disk.abandon, Disk.withArtifacts, Disk.view, View.abandon, hne]
  have habandon : (some (BackupPc.failed, disk.abandon job.name)).map
      (fun next => (next.1, next.2.view job.name)) = some (.failed, (disk.view job.name).abandon) := by
    rw [Option.map_some, hview]
  cases pc with
  | starting =>
    cases a with
    | go =>
      simp only [backupStep, viewStep, atomicArtifactPaths]
      show _ = if (disk.dir.artifacts.get job.name).isSome ||
        (disk.dir.manifests.get (manifestPathFor job.name)).isSome then _ else _
      by_cases hthere : ((disk.dir.artifacts.get job.name).isSome ||
          (disk.dir.manifests.get (manifestPathFor job.name)).isSome) = true
      · rw [if_pos hthere, if_pos hthere]
        rfl
      · rw [if_neg hthere, if_neg hthere]
        simp [Disk.view, hne.symm]
    | _ => rfl
  | opening =>
    cases a with
    | go => simp [backupStep, viewStep, Disk.withArtifacts, Disk.view, hne.symm]
    | _ => rfl
  | producing =>
    cases a with
    | writes bytes =>
      simp only [backupStep, viewStep]
      cases hget : disk.dir.artifacts.get (partialName job.name) with
      | none => simp [Disk.view, hget]
      | some before => simp [Disk.withArtifacts, Disk.view, hget, hne.symm]
    | breaks unlinks =>
      cases unlinks with
      | false => rfl
      | true => simp [backupStep, viewStep, Disk.abandon, Disk.withArtifacts, Disk.view, hne.symm]
    | _ => rfl
  | publishing =>
    cases a with
    | go =>
      simp only [backupStep, viewStep, publishArtifact]
      cases hget : disk.dir.artifacts.get (partialName job.name) with
      | none => simp [Disk.view, hget]
      | some bytes =>
        by_cases hthere : (disk.dir.artifacts.get job.name).isSome = true
        · simp [Disk.view, hget, hthere]
        · simp [Disk.view, hget, hthere, hne]
    | _ => rfl
  | measuring =>
    cases a with
    | stats createdAt =>
      have hread : (disk.view job.name).artifact = disk.dir.artifacts.get job.name := rfl
      simp only [backupStep, viewStep, hread]
      cases disk.dir.artifacts.get job.name with
      | none => exact habandon
      | some bytes => rfl
    | raises => exact habandon
    | _ => rfl
  | hashing createdAt size =>
    cases a with
    | go =>
      have hread : (disk.view job.name).artifact = disk.dir.artifacts.get job.name := rfl
      simp only [backupStep, viewStep, hread]
      cases disk.dir.artifacts.get job.name with
      | none => exact habandon
      | some bytes => rfl
    | raises => exact habandon
    | _ => rfl
  | staging manifest =>
    cases a with
    | go => simp [backupStep, viewStep, Disk.view]
    | writesPart => simp [backupStep, viewStep, Disk.view]
    | raises => exact habandon
    | _ => rfl
  | placing =>
    cases a with
    | go =>
      have hread : (disk.view job.name).staged = disk.staged.get (stagingName job.name) := rfl
      simp only [backupStep, viewStep, hread]
      cases disk.staged.get (stagingName job.name) with
      | none => exact habandon
      | some found =>
        cases found with
        | none => simp [Disk.view]
        | some manifest => simp [Disk.view]
    | raises => exact habandon
    | _ => rfl
  | made => cases a <;> rfl
  | failed => cases a <;> rfl

/-! ## The others -/

/-- Nothing is changed but the files of this backup. -/
structure Disk.SameBut (disk disk' : Disk) (name : PyStr) : Prop where
  artifacts : ∀ other, other ≠ name → other ≠ partialName name →
    disk'.dir.artifacts.get other = disk.dir.artifacts.get other
  manifests : ∀ other, other ≠ manifestPathFor name →
    disk'.dir.manifests.get other = disk.dir.manifests.get other
  staged : ∀ other, other ≠ stagingName name → disk'.staged.get other = disk.staged.get other

theorem sameBut_withArtifacts {disk : Disk} {name : PyStr} {artifacts : Dict PyStr Bytes}
    (h : ∀ other, other ≠ name → other ≠ partialName name →
      artifacts.get other = disk.dir.artifacts.get other) :
    disk.SameBut (disk.withArtifacts artifacts) name :=
  ⟨h, fun _ _ => rfl, fun _ _ => rfl⟩

theorem sameBut_set (disk : Disk) (name : PyStr) (bytes : Bytes) :
    disk.SameBut (disk.withArtifacts (disk.dir.artifacts.set (partialName name) bytes)) name := by
  refine sameBut_withArtifacts fun other _ hcut => ?_
  rw [Dict.get_set, if_neg hcut]

theorem sameBut_abandon (disk : Disk) {name removed : PyStr}
    (h : removed = name ∨ removed = partialName name) : disk.SameBut (disk.abandon removed) name := by
  refine sameBut_withArtifacts fun other hname hcut => ?_
  rw [Dict.get_erase, if_neg]
  rintro rfl
  rcases h with rfl | rfl
  · exact hname rfl
  · exact hcut rfl

theorem sameBut_stage (disk : Disk) (name : PyStr) (found : Option Json) :
    disk.SameBut { disk with staged := disk.staged.set (stagingName name) found } name := by
  refine ⟨fun _ _ _ => rfl, fun _ _ => rfl, fun other hother => ?_⟩
  rw [Dict.get_set, if_neg hother]

theorem sameBut_backupStep {digest : FileDigest} {job : Job} {disk : Disk} {pc : BackupPc} {a : BackupInput}
    {next : BackupPc × Disk} (h : backupStep digest job disk pc a = some next) :
    disk.SameBut next.2 job.name := by
  have hrefl : disk.SameBut disk job.name := ⟨fun _ _ _ => rfl, fun _ _ => rfl, fun _ _ => rfl⟩
  have hgone : disk.SameBut (disk.abandon job.name) job.name := sameBut_abandon disk (Or.inl rfl)
  cases pc <;> cases a <;> simp only [backupStep, reduceCtorEq, Option.some.injEq] at h
  case starting.go =>
    unfold atomicArtifactPaths at h
    by_cases hthere : ((disk.dir.artifacts.get job.name).isSome ||
        (disk.dir.manifests.get (manifestPathFor job.name)).isSome) = true
    · rw [if_pos hthere] at h
      obtain rfl := Option.some.inj h
      exact hrefl
    · rw [if_neg hthere] at h
      obtain rfl := Option.some.inj h
      exact sameBut_abandon disk (Or.inr rfl)
  case opening.go =>
    subst h
    exact sameBut_set disk _ _
  case producing.writes bytes =>
    split at h
    all_goals obtain rfl := Option.some.inj h
    · exact sameBut_set disk _ _
    · exact hrefl
  case producing.breaks unlinks =>
    subst h
    cases unlinks with
    | false => exact hrefl
    | true => exact sameBut_abandon disk (Or.inr rfl)
  case publishing.go =>
    unfold publishArtifact at h
    cases hget : disk.dir.artifacts.get (partialName job.name) with
    | none =>
      rw [hget] at h
      obtain rfl := Option.some.inj h
      exact hrefl
    | some bytes =>
      rw [hget] at h
      by_cases hthere : (disk.dir.artifacts.get job.name).isSome = true
      · simp only [if_pos hthere] at h
        obtain rfl := Option.some.inj h
        exact hrefl
      · simp only [if_neg hthere] at h
        obtain rfl := Option.some.inj h
        show disk.SameBut (disk.withArtifacts _) job.name
        refine sameBut_withArtifacts fun other hname hcut => ?_
        rw [Dict.get_set, if_neg hname, Dict.get_erase, if_neg hcut]
  case measuring.stats createdAt =>
    split at h
    all_goals obtain rfl := Option.some.inj h
    · exact hrefl
    · exact hgone
  case hashing.go createdAt size =>
    split at h
    all_goals obtain rfl := Option.some.inj h
    · exact hrefl
    · exact hgone
  case staging.go manifest =>
    subst h
    exact sameBut_stage disk _ _
  case staging.writesPart manifest =>
    subst h
    exact sameBut_stage disk _ _
  case placing.go =>
    split at h
    · obtain rfl := Option.some.inj h
      exact hgone
    · rename_i found _
      obtain rfl := Option.some.inj h
      refine ⟨fun _ _ _ => rfl, fun other hother => ?_, fun other hother => ?_⟩
      · cases found with
        | none => exact (Dict.get_erase _ _ _).trans (if_neg hother)
        | some manifest => exact (Dict.get_set _ _ _ _).trans (if_neg hother)
      · exact (Dict.get_erase _ _ _).trans (if_neg hother)
  all_goals
    subst h
    first
      | exact hrefl
      | exact hgone

/-- **Of another backup one sees nothing.** -/
theorem view_of_ne {digest : FileDigest} {job other : Job} (hjob : isArtifactName job.name = true)
    (hother : isArtifactName other.name = true) (hne : other.name ≠ job.name) {disk : Disk} {pc : BackupPc}
    {a : BackupInput} {next : BackupPc × Disk} (h : backupStep digest job disk pc a = some next) :
    next.2.view other.name = disk.view other.name := by
  have hsame := sameBut_backupStep h
  have hartifact := hsame.artifacts other.name hne (partialName_ne_artifact hother).symm
  have htemporary := hsame.artifacts (partialName other.name) (partialName_ne_artifact hjob)
    fun heq => hne (partialName_injective heq)
  have hmanifest := hsame.manifests (manifestPathFor other.name)
    fun heq => hne (manifestPathFor_injective heq)
  have hstaged := hsame.staged (stagingName other.name) fun heq => hne (stagingName_injective heq)
  unfold Disk.view
  rw [hartifact, htemporary, hmanifest, hstaged]

/-- Some of the files are gone. -/
structure View.Loses (v v' : View) : Prop where
  artifact : v'.artifact = none ∨ v'.artifact = v.artifact
  temporary : v'.temporary = none ∨ v'.temporary = v.temporary
  manifest : v'.manifest = none ∨ v'.manifest = v.manifest
  staged : v'.staged = none ∨ v'.staged = v.staged

theorem loses_remove (disk : Disk) (removed name : PyStr) :
    (disk.view name).Loses ((disk.remove removed).view name) := by
  have herase : ∀ {V : Type} (d : Dict PyStr V) (key : PyStr),
      (d.erase removed).get key = none ∨ (d.erase removed).get key = d.get key := by
    intro V d key
    rw [Dict.get_erase]
    split
    · exact Or.inl rfl
    · exact Or.inr rfl
  exact ⟨herase _ _, herase _ _, herase _ _, herase _ _⟩

/-- The files of a backup. -/
def filesOf (name : PyStr) : List PyStr := [name, partialName name, manifestPathFor name, stagingName name]

theorem view_remove_of_notMem {disk : Disk} {removed name : PyStr} (h : removed ∉ filesOf name) :
    (disk.remove removed).view name = disk.view name := by
  have hne : ∀ key ∈ filesOf name, key ≠ removed := fun key hkey heq => h (heq ▸ hkey)
  unfold Disk.view Disk.remove
  dsimp only
  rw [Dict.get_erase, if_neg (hne name (by simp [filesOf])), Dict.get_erase,
    if_neg (hne (partialName name) (by simp [filesOf])), Dict.get_erase,
    if_neg (hne (manifestPathFor name) (by simp [filesOf])), Dict.get_erase,
    if_neg (hne (stagingName name) (by simp [filesOf]))]

/-! ## What the files can hold -/

/-- The manifest of these bytes. -/
def Job.manifest (digest : FileDigest) (job : Job) (bytes : Bytes) (createdAt : PyStr) : Json :=
  job.describe createdAt bytes.length (digest.hexdigest bytes)

namespace BackupPc

/-- The temporary file is the producer's. -/
def holdsOutput : BackupPc → Bool
  | producing | publishing => true
  | _ => false

/-- The artifact has its name. -/
def published : BackupPc → Bool
  | measuring | hashing _ _ | staging _ | placing | made => true
  | _ => false

def isPlacing : BackupPc → Bool
  | placing => true
  | _ => false

def isMade : BackupPc → Bool
  | made => true
  | _ => false

/-- What a backup knows: its producer has ended, and what it has read is right. -/
def Knows (digest : FileDigest) (job : Job) (out : Bytes) (finished : Prop) : BackupPc → Prop
  | starting | opening => out = []
  | publishing | measuring | placing | made => finished
  | hashing _ size => finished ∧ size = out.length
  | staging manifest => finished ∧ ∃ createdAt, manifest = job.manifest digest out createdAt
  | producing | failed => True

end BackupPc

/-- **What a backup's files can hold**, if its name was free; `out` is what its producer has written. -/
structure Tracked (digest : FileDigest) (job : Job) (out : Bytes) (finished : Prop) (v : View)
    (pc : BackupPc) : Prop where
  artifact : ∀ bytes, v.artifact = some bytes → pc.published = true ∧ bytes = out
  temporary : ∀ bytes, v.temporary = some bytes → pc.holdsOutput = true → bytes = out
  staged : ∀ found, v.staged = some found → pc.isPlacing = true →
    ∃ createdAt, found = some (job.manifest digest out createdAt)
  manifest : ∀ json, v.manifest = some json →
    pc.isMade = true ∧ ∃ createdAt, json = job.manifest digest out createdAt
  knows : pc.Knows digest job out finished

/-- What a backup needs of its files is there. -/
def View.Holds (v : View) : BackupPc → Prop
  | .starting | .opening | .failed => True
  | .producing | .publishing => v.temporary ≠ none
  | .measuring | .hashing _ _ | .staging _ => v.artifact ≠ none
  | .placing => v.artifact ≠ none ∧ v.staged ≠ none
  | .made => v.artifact ≠ none ∧ v.manifest ≠ none

/-- What a step of the producer writes. -/
def BackupInput.written : BackupInput → Bytes
  | writes bytes => bytes
  | _ => []

section Tracked

variable {digest : FileDigest} {job : Job} {out : Bytes} {finished : Prop} {v v' : View} {pc pc' : BackupPc}
  {a : BackupInput}

/-- Losing files keeps it. -/
theorem Tracked.loses (h : Tracked digest job out finished v pc) (hloses : v.Loses v') :
    Tracked digest job out finished v' pc := by
  have hkept : ∀ {V : Type} {x y : Option V} {z : V}, x = none ∨ x = y → x = some z → y = some z := by
    rintro V x y z (rfl | rfl) hx
    · cases hx
    · exact hx
  exact ⟨fun bytes hbytes => h.artifact bytes (hkept hloses.artifact hbytes),
    fun bytes hbytes => h.temporary bytes (hkept hloses.temporary hbytes),
    fun found hfound => h.staged found (hkept hloses.staged hfound),
    fun json hjson => h.manifest json (hkept hloses.manifest hjson), h.knows⟩

/-- A backup that failed has neither artifact nor manifest. -/
theorem tracked_failed (hartifact : v.artifact = none) (hmanifest : v.manifest = none) :
    Tracked digest job out finished v .failed := by
  refine ⟨fun bytes hbytes => ?_, fun _ _ hholds => ?_, fun _ _ hplacing => ?_, fun json hjson => ?_, trivial⟩
  · rw [hartifact] at hbytes
    cases hbytes
  · cases hholds
  · cases hplacing
  · rw [hmanifest] at hjson
    cases hjson

/-- **A step keeps it.** -/
theorem tracked_step (h : Tracked digest job out finished v pc)
    (hstep : viewStep digest job v pc a = some (pc', v')) :
    Tracked digest job (out ++ a.written) (finished ∨ a = .finishes) v' pc' := by
  obtain ⟨hartifact, htemporary, hstaged, hmanifest, hknows⟩ := h
  have hunpublished : pc.published = false → v.artifact = none := by
    intro hnot
    rw [Option.eq_none_iff_forall_ne_some]
    intro bytes hbytes
    rw [(hartifact bytes hbytes).1] at hnot
    cases hnot
  have hunmade : pc.isMade = false → v.manifest = none := by
    intro hnot
    rw [Option.eq_none_iff_forall_ne_some]
    intro json hjson
    rw [(hmanifest json hjson).1] at hnot
    cases hnot
  cases pc <;> cases a <;>
    simp only [viewStep, reduceCtorEq, Option.some.injEq, Prod.mk.injEq] at hstep
  case starting.go =>
    rw [hunpublished rfl, hunmade rfl] at hstep
    obtain ⟨rfl, rfl⟩ := Prod.mk.inj (Option.some.inj hstep)
    refine ⟨fun _ hnone => ?_, fun _ hnone => ?_, fun _ _ hplacing => ?_, fun _ hnone => ?_, ?_⟩
    · cases hnone
    · cases hnone
    · cases hplacing
    · cases hnone
    · show out ++ [] = []
      rw [List.append_nil]
      exact hknows
  case opening.go =>
    obtain ⟨rfl, rfl⟩ := hstep
    obtain rfl : out = [] := hknows
    refine ⟨fun bytes hbytes => ?_, fun bytes hbytes _ => ?_, fun _ _ hplacing => ?_, fun json hjson => ?_,
      trivial⟩
    · cases (hartifact bytes hbytes).1
    · exact (Option.some.inj hbytes).symm
    · cases hplacing
    · cases (hmanifest json hjson).1
  case producing.writes written =>
    obtain ⟨rfl, rfl⟩ := hstep
    refine ⟨fun bytes hbytes => ?_, fun bytes hbytes _ => ?_, fun _ _ hplacing => ?_, fun json hjson => ?_,
      trivial⟩
    · cases (hartifact bytes hbytes).1
    · obtain ⟨before, hbefore, rfl⟩ := Option.map_eq_some_iff.mp hbytes
      rw [htemporary before hbefore rfl]
      rfl
    · cases hplacing
    · cases (hmanifest json hjson).1
  case producing.finishes =>
    obtain ⟨rfl, rfl⟩ := hstep
    refine ⟨fun bytes hbytes => ?_, fun bytes hbytes _ => ?_, fun _ _ hplacing => ?_, fun json hjson => ?_,
      Or.inr rfl⟩
    · cases (hartifact bytes hbytes).1
    · exact (htemporary bytes hbytes rfl).trans (List.append_nil _).symm
    · cases hplacing
    · cases (hmanifest json hjson).1
  case producing.breaks unlinks =>
    obtain ⟨rfl, rfl⟩ := hstep
    refine tracked_failed ?_ ?_
    · cases unlinks with
      | false => exact hunpublished rfl
      | true => exact hunpublished rfl
    · cases unlinks with
      | false => exact hunmade rfl
      | true => exact hunmade rfl
  case publishing.go =>
    rw [hunpublished rfl] at hstep
    cases htemp : v.temporary with
    | none =>
      rw [htemp] at hstep
      obtain ⟨rfl, rfl⟩ := Prod.mk.inj (Option.some.inj hstep)
      exact tracked_failed (hunpublished rfl) (hunmade rfl)
    | some bytes =>
      rw [htemp] at hstep
      obtain ⟨rfl, rfl⟩ := Prod.mk.inj (Option.some.inj hstep)
      obtain rfl := htemporary bytes htemp rfl
      refine ⟨fun found hfound => ⟨rfl, ?_⟩, fun _ hnone => ?_, fun _ _ hplacing => ?_, fun json hjson => ?_,
        Or.inl hknows⟩
      · exact (Option.some.inj hfound).symm.trans (List.append_nil _).symm
      · cases hnone
      · cases hplacing
      · cases (hmanifest json hjson).1
  case measuring.stats createdAt =>
    cases hfile : v.artifact with
    | none =>
      rw [hfile] at hstep
      obtain ⟨rfl, rfl⟩ := Prod.mk.inj (Option.some.inj hstep)
      exact tracked_failed rfl (hunmade rfl)
    | some bytes =>
      rw [hfile] at hstep
      obtain ⟨rfl, rfl⟩ := Prod.mk.inj (Option.some.inj hstep)
      obtain rfl := (hartifact bytes hfile).2
      refine ⟨fun found hfound => ⟨rfl, ?_⟩, fun _ _ hholds => ?_, fun _ _ hplacing => ?_,
        fun json hjson => ?_, Or.inl hknows, ?_⟩
      · exact (hartifact found hfound).2.trans (List.append_nil _).symm
      · cases hholds
      · cases hplacing
      · cases (hmanifest json hjson).1
      · exact congrArg List.length (List.append_nil bytes).symm
  case hashing.go createdAt size =>
    obtain ⟨hfinished, rfl⟩ := hknows
    cases hfile : v.artifact with
    | none =>
      rw [hfile] at hstep
      obtain ⟨rfl, rfl⟩ := Prod.mk.inj (Option.some.inj hstep)
      exact tracked_failed rfl (hunmade rfl)
    | some bytes =>
      rw [hfile] at hstep
      obtain ⟨rfl, rfl⟩ := Prod.mk.inj (Option.some.inj hstep)
      obtain rfl := (hartifact bytes hfile).2
      refine ⟨fun found hfound => ⟨rfl, ?_⟩, fun _ _ hholds => ?_, fun _ _ hplacing => ?_,
        fun json hjson => ?_, Or.inl hfinished, createdAt, ?_⟩
      · exact (hartifact found hfound).2.trans (List.append_nil _).symm
      · cases hholds
      · cases hplacing
      · cases (hmanifest json hjson).1
      · show _ = job.manifest digest (bytes ++ []) createdAt
        rw [List.append_nil]
        rfl
  case staging.writesPart manifest =>
    obtain ⟨rfl, rfl⟩ := hstep
    refine ⟨fun found hfound => ⟨rfl, ?_⟩, fun _ _ hholds => ?_, fun _ _ hplacing => ?_,
      fun json hjson => ?_, ?_⟩
    · exact (hartifact found hfound).2.trans (List.append_nil _).symm
    · cases hholds
    · cases hplacing
    · cases (hmanifest json hjson).1
    · show (finished ∨ _) ∧ ∃ createdAt, manifest = job.manifest digest (out ++ []) createdAt
      rw [List.append_nil]
      exact ⟨Or.inl hknows.1, hknows.2⟩
  case staging.go manifest =>
    obtain ⟨rfl, rfl⟩ := hstep
    obtain ⟨hfinished, createdAt, hdescribes⟩ := hknows
    refine ⟨fun found hfound => ⟨rfl, ?_⟩, fun _ _ hholds => ?_, fun found hfound _ => ⟨createdAt, ?_⟩,
      fun json hjson => ?_, Or.inl hfinished⟩
    · exact (hartifact found hfound).2.trans (List.append_nil _).symm
    · cases hholds
    · rw [← Option.some.inj hfound, hdescribes]
      show _ = some (job.manifest digest (out ++ []) createdAt)
      rw [List.append_nil]
    · cases (hmanifest json hjson).1
  case placing.go =>
    cases hfound : v.staged with
    | none =>
      rw [hfound] at hstep
      obtain ⟨rfl, rfl⟩ := Prod.mk.inj (Option.some.inj hstep)
      exact tracked_failed rfl (hunmade rfl)
    | some found =>
      rw [hfound] at hstep
      obtain ⟨rfl, rfl⟩ := Prod.mk.inj (Option.some.inj hstep)
      obtain ⟨createdAt, rfl⟩ := hstaged found hfound rfl
      refine ⟨fun bytes hbytes => ⟨rfl, ?_⟩, fun _ _ hholds => ?_, fun _ hnone => ?_,
        fun json hjson => ⟨rfl, createdAt, ?_⟩, Or.inl hknows⟩
      · exact (hartifact bytes hbytes).2.trans (List.append_nil _).symm
      · cases hholds
      · cases hnone
      · rw [← Option.some.inj hjson]
        show _ = job.manifest digest (out ++ []) createdAt
        rw [List.append_nil]
  -- whatever raises leaves no artifact
  all_goals
    obtain ⟨rfl, rfl⟩ := hstep
    first
      | exact tracked_failed (hunpublished rfl) (hunmade rfl)
      | exact tracked_failed rfl (hunmade rfl)

/-- **What is not taken away is there.** -/
theorem holds_step (h : Tracked digest job out finished v pc) (hholds : v.Holds pc)
    (hstep : viewStep digest job v pc a = some (pc', v')) : v'.Holds pc' := by
  cases pc <;> cases a <;>
    simp only [viewStep, reduceCtorEq, Option.some.injEq, Prod.mk.injEq] at hstep
  case starting.go =>
    split at hstep
    all_goals
      obtain ⟨rfl, rfl⟩ := Prod.mk.inj (Option.some.inj hstep)
      trivial
  case opening.go =>
    obtain ⟨rfl, rfl⟩ := hstep
    exact Option.some_ne_none _
  case producing.writes written =>
    obtain ⟨rfl, rfl⟩ := hstep
    intro hnone
    exact hholds (Option.map_eq_none_iff.mp hnone)
  case producing.finishes =>
    obtain ⟨rfl, rfl⟩ := hstep
    exact hholds
  case publishing.go =>
    split at hstep
    · obtain ⟨rfl, rfl⟩ := Prod.mk.inj (Option.some.inj hstep)
      trivial
    · split at hstep
      all_goals obtain ⟨rfl, rfl⟩ := Prod.mk.inj (Option.some.inj hstep)
      · trivial
      · exact Option.some_ne_none _
  case measuring.stats createdAt =>
    split at hstep
    all_goals obtain ⟨rfl, rfl⟩ := Prod.mk.inj (Option.some.inj hstep)
    · exact hholds
    · trivial
  case hashing.go createdAt size =>
    split at hstep
    all_goals obtain ⟨rfl, rfl⟩ := Prod.mk.inj (Option.some.inj hstep)
    · exact hholds
    · trivial
  case staging.writesPart manifest =>
    obtain ⟨rfl, rfl⟩ := hstep
    exact hholds
  case staging.go manifest =>
    obtain ⟨rfl, rfl⟩ := hstep
    exact ⟨hholds, Option.some_ne_none _⟩
  case placing.go =>
    cases hfound : v.staged with
    | none =>
      rw [hfound] at hstep
      obtain ⟨rfl, rfl⟩ := Prod.mk.inj (Option.some.inj hstep)
      trivial
    | some found =>
      rw [hfound] at hstep
      obtain ⟨rfl, rfl⟩ := Prod.mk.inj (Option.some.inj hstep)
      obtain ⟨createdAt, rfl⟩ := h.staged found hfound rfl
      exact ⟨hholds.1, Option.some_ne_none _⟩
  all_goals
    obtain ⟨rfl, rfl⟩ := hstep
    trivial

end Tracked

/-! ## Any number of backups -/

section Interleaved

variable {κ : Type} [DecidableEq κ] {digest : FileDigest} {jobs : κ → Job}

/-- What the producer of this backup has written. -/
def outputOf (k : κ) (es : List (BackupEvent κ)) : Bytes :=
  es.flatMap fun
    | .backup j input => if j = k then input.written else []
    | .removes _ => []

/-- None of the files of this backup has been removed. -/
def Spared (name : PyStr) (es : List (BackupEvent κ)) : Prop :=
  ∀ removed ∈ filesOf name, .removes removed ∉ es

/-- **What one sees of a backup is its own doing, or a loss.** -/
theorem backupsStep_cases (hnames : Function.Injective fun k => (jobs k).name)
    (hartifacts : ∀ k, isArtifactName (jobs k).name = true) {s t : Backups κ} {e : BackupEvent κ}
    (hstep : backupsStep digest jobs s e = some t) (k : κ) :
    (∃ a, e = .backup k a ∧ viewStep digest (jobs k) (s.disk.view (jobs k).name) (s.pcs k) a =
        some (t.pcs k, t.disk.view (jobs k).name)) ∨
      (t.pcs k = s.pcs k ∧ t.disk.view (jobs k).name = s.disk.view (jobs k).name ∧
        ∀ a, e ≠ .backup k a) ∨
      (t.pcs k = s.pcs k ∧ (s.disk.view (jobs k).name).Loses (t.disk.view (jobs k).name) ∧
        ∃ removed ∈ filesOf (jobs k).name, e = .removes removed) := by
  cases e with
  | backup j a =>
    obtain ⟨next, hnext, rfl⟩ := Option.map_eq_some_iff.mp hstep
    by_cases hjk : j = k
    · subst hjk
      refine Or.inl ⟨a, rfl, ?_⟩
      rw [← view_backupStep, hnext]
      show some (next.1, _) = some (Function.update s.pcs j next.1 j, _)
      rw [Function.update_self]
    · refine Or.inr (Or.inl ⟨Function.update_of_ne (Ne.symm hjk) _ _, ?_, ?_⟩)
      · exact view_of_ne (hartifacts j) (hartifacts k) (fun heq => hjk (hnames heq).symm) hnext
      · rintro b heq
        exact hjk (BackupEvent.backup.inj heq).1
  | removes removed =>
    obtain rfl := Option.some.inj hstep
    by_cases hown : removed ∈ filesOf (jobs k).name
    · exact Or.inr (Or.inr ⟨rfl, loses_remove s.disk removed _, removed, hown, rfl⟩)
    · exact Or.inr (Or.inl ⟨rfl, view_remove_of_notMem hown, fun a heq => by cases heq⟩)

theorem outputOf_snoc (k : κ) (es : List (BackupEvent κ)) (e : BackupEvent κ) :
    outputOf k (es ++ [e]) = outputOf k es ++ outputOf k [e] := by
  unfold outputOf
  rw [List.flatMap_append]

/-- The files of a backup, in every run. -/
theorem tracked_of_run (hnames : Function.Injective fun k => (jobs k).name)
    (hartifacts : ∀ k, isArtifactName (jobs k).name = true) {disk : Disk} {es : List (BackupEvent κ)}
    {s : Backups κ} (hrun : Run (backupsStep digest jobs) Always (.init disk) es s) {k : κ}
    (hfree : Free disk.dir (jobs k).name) :
    Tracked digest (jobs k) (outputOf k es) (.backup k .finishes ∈ es) (s.disk.view (jobs k).name) (s.pcs k) ∧
      (Spared (jobs k).name es → (s.disk.view (jobs k).name).Holds (s.pcs k)) := by
  refine hrun.history (I := fun es s =>
    Tracked digest (jobs k) (outputOf k es) (.backup k .finishes ∈ es) (s.disk.view (jobs k).name) (s.pcs k) ∧
      (Spared (jobs k).name es → (s.disk.view (jobs k).name).Holds (s.pcs k))) ?_ ⟨?_, ?_⟩
  · rintro es s e t ⟨htracked, hthere⟩ - hstep
    have hspared : Spared (jobs k).name (es ++ [e]) → Spared (jobs k).name es :=
      fun h removed hremoved hmem => h removed hremoved (List.mem_append_left _ hmem)
    rcases backupsStep_cases hnames hartifacts hstep k with ⟨a, rfl, hown⟩ | ⟨hpc, hview, hother⟩ |
      ⟨hpc, hloses, removed, hremoved, rfl⟩
    · constructor
      · have hnext := tracked_step htracked hown
        have hout : outputOf k (es ++ [.backup k a]) = outputOf k es ++ a.written := by
          rw [outputOf_snoc]
          show outputOf k es ++ ((if k = k then a.written else []) ++ []) = _
          rw [if_pos rfl, List.append_nil]
        have hfinished : (BackupEvent.backup k .finishes ∈ es ++ [.backup k a]) =
            (.backup k .finishes ∈ es ∨ a = .finishes) := by
          rw [List.mem_append, List.mem_singleton, BackupEvent.backup.injEq, eq_comm (a := a)]
          simp only [true_and]
        rw [hout, hfinished]
        exact hnext
      · exact fun h => holds_step htracked (hthere (hspared h)) hown
    · have hout : outputOf k (es ++ [e]) = outputOf k es := by
        rw [outputOf_snoc]
        cases e with
        | backup j a =>
          have hjk : j ≠ k := fun heq => hother a (heq ▸ rfl)
          show outputOf k es ++ ((if j = k then a.written else []) ++ []) = _
          rw [if_neg hjk, List.append_nil, List.append_nil]
        | removes removed => exact List.append_nil _
      have hfinished : (BackupEvent.backup k .finishes ∈ es ++ [e]) = (.backup k .finishes ∈ es) := by
        rw [List.mem_append, List.mem_singleton, eq_comm (a := BackupEvent.backup k .finishes)]
        simp only [hother, or_false]
      rw [hpc, hview, hout, hfinished]
      exact ⟨htracked, fun h => hthere (hspared h)⟩
    · have hout : outputOf k (es ++ [.removes removed]) = outputOf k es := by
        rw [outputOf_snoc]
        exact List.append_nil _
      have hfinished : (BackupEvent.backup k .finishes ∈ es ++ [.removes removed]) =
          (.backup k .finishes ∈ es) := by
        simp only [List.mem_append, List.mem_singleton, reduceCtorEq, or_false]
      rw [hpc, hout, hfinished]
      refine ⟨htracked.loses hloses, fun h => ?_⟩
      exact absurd (List.mem_append_right _ List.mem_cons_self) (h removed hremoved)
  · refine ⟨fun bytes hbytes => ?_, fun _ _ hholds => ?_, fun _ _ hplacing => ?_, fun json hjson => ?_, rfl⟩
    · cases hfree.1.symm.trans hbytes
    · cases hholds
    · cases hplacing
    · cases hfree.2.symm.trans hjson
  · exact fun _ => trivial

/-- **A reader is never misled.**  Of every run in which any number of backups with different names, each
    stopped anywhere, and removals of files, whatever and whenever, come in any order, and of every backup
    whose name was free: `load_and_verify_manifest` finds artifact or manifest missing, or accepts them
    and the artifact is the whole output of a producer that ended well.  And when a backup is made and none of
    its files has been removed, they are accepted. -/
theorem reader_never_misled (digest : FileDigest) {jobs : κ → Job}
    (hnames : Function.Injective fun k => (jobs k).name)
    (hartifacts : ∀ k, isArtifactName (jobs k).name = true) {disk : Disk} {es : List (BackupEvent κ)}
    {s : Backups κ} (hrun : Run (backupsStep digest jobs) Always (.init disk) es s) {k : κ}
    (hfree : Free disk.dir (jobs k).name) :
    (loadAndVerifyManifest digest s.disk.dir (jobs k).name (jobs k).backupType none =
        .error (.artifactMissing (jobs k).name) ∨
      loadAndVerifyManifest digest s.disk.dir (jobs k).name (jobs k).backupType none =
        .error (.manifestMissing (manifestPathFor (jobs k).name)) ∨
      ∃ manifest, loadAndVerifyManifest digest s.disk.dir (jobs k).name (jobs k).backupType none =
          .ok manifest ∧ getOrNone manifest "format" = .string (jobs k).artifactFormat ∧
        s.disk.dir.artifacts.get (jobs k).name = some (outputOf k es) ∧ .backup k .finishes ∈ es) ∧
      (s.pcs k = .made → Spared (jobs k).name es → ∃ manifest,
        loadAndVerifyManifest digest s.disk.dir (jobs k).name (jobs k).backupType none = .ok manifest) := by
  obtain ⟨htracked, hthere⟩ := tracked_of_run hnames hartifacts hrun hfree
  -- both files are there, and go together
  have haccepts : ∀ bytes json, s.disk.dir.artifacts.get (jobs k).name = some bytes →
      s.disk.dir.manifests.get (manifestPathFor (jobs k).name) = some json →
      bytes = outputOf k es ∧ .backup k .finishes ∈ es ∧ ∃ manifest,
        loadAndVerifyManifest digest s.disk.dir (jobs k).name (jobs k).backupType none = .ok manifest ∧
          getOrNone manifest "format" = .string (jobs k).artifactFormat := by
    intro bytes json hbytes hjson
    obtain ⟨-, rfl⟩ := htracked.artifact bytes hbytes
    obtain ⟨hmade, createdAt, rfl⟩ := htracked.manifest json hjson
    refine ⟨rfl, ?_, loadAndVerifyManifest_of_written hbytes hjson⟩
    have hknows := htracked.knows
    generalize s.pcs k = pc at hmade hknows
    cases pc with
    | made => exact hknows
    | _ => cases hmade
  constructor
  · cases hbytes : s.disk.dir.artifacts.get (jobs k).name with
    | none =>
      left
      unfold loadAndVerifyManifest
      rw [hbytes]
    | some bytes =>
      cases hjson : s.disk.dir.manifests.get (manifestPathFor (jobs k).name) with
      | none =>
        right; left
        unfold loadAndVerifyManifest
        rw [hbytes]
        simp only [Option.getD_none, hjson]
      | some json =>
        right; right
        obtain ⟨rfl, hfinished, manifest, hload, hformat⟩ := haccepts bytes json hbytes hjson
        exact ⟨manifest, hload, hformat, rfl, hfinished⟩
  · intro hmade hspared
    have hfiles := hthere hspared
    rw [hmade] at hfiles
    obtain ⟨bytes, hbytes⟩ := Option.ne_none_iff_exists'.mp hfiles.1
    obtain ⟨json, hjson⟩ := Option.ne_none_iff_exists'.mp hfiles.2
    obtain ⟨_, _, manifest, hload, _⟩ := haccepts bytes json hbytes hjson
    exact ⟨manifest, hload⟩

end Interleaved

/-! ## A backup alone -/

/-- One backup, and nothing else. -/
def backupAlone (digest : FileDigest) (job : Job) (s : BackupPc × Disk) (a : BackupInput) :
    Option (BackupPc × Disk) :=
  backupStep digest job s.2 s.1 a

/-- Its four files. -/
def viewAlone (digest : FileDigest) (job : Job) (s : BackupPc × View) (a : BackupInput) :
    Option (BackupPc × View) :=
  viewStep digest job s.2 s.1 a

theorem exec_viewAlone (digest : FileDigest) (job : Job) (inputs : List BackupInput) (s : BackupPc × Disk) :
    (exec (backupAlone digest job) s inputs).map (fun t => (t.1, t.2.view job.name)) =
      exec (viewAlone digest job) (s.1, s.2.view job.name) inputs := by
  induction inputs generalizing s with
  | nil => rfl
  | cons a inputs ih =>
    have hstep : viewAlone digest job (s.1, s.2.view job.name) a =
        (backupAlone digest job s a).map fun t => (t.1, t.2.view job.name) :=
      (view_backupStep digest job s.2 s.1 a).symm
    rw [exec, exec, hstep]
    cases backupAlone digest job s a with
    | none => rfl
    | some t => exact ih t

/-- The backup of a dump. -/
def dumpJob (target : PostgresTarget) (compose : Option Compose) (dumpFormat name artifactFormat : PyStr) :
    Job where
  name := name
  backupType := text "postgresql"
  artifactFormat := artifactFormat
  source := dumpSource target compose
  metadata := dumpMetadata dumpFormat

/-- `pg_dump` writes, the file object is closed, and nothing raises. -/
def dumpInputs (dump atClose : Bytes) (createdAt : PyStr) : List BackupInput :=
  [.go, .go, .writes dump, .writes atClose, .finishes, .go, .stats createdAt, .go, .go, .go]

/-- **Alone, a backup does what `backup_postgresql_target` does.** -/
theorem exec_backupAlone (digest : FileDigest) {dir : BackupDirectory} {target : PostgresTarget}
    {compress : Bool} {dumpFormat : PyStr} (compose : Option Compose) {timestamp name artifactFormat : PyStr}
    (createdAt : PyStr) (mtime dump : Bytes) {gzipOutput : Bool}
    (hformat : dumpFormat ∈ supportedPostgresFormats)
    (hplan : artifactPlan target.database timestamp dumpFormat compress = (name, gzipOutput, artifactFormat))
    (hfree : Free dir name) (staged : Dict PyStr (Option Json)) :
    ∃ dir' disk, backupPostgresqlTarget digest dir target compress dumpFormat compose timestamp createdAt
          mtime ⟨true, dump, 0⟩ = .ok (dir', name) ∧
        exec (backupAlone digest (dumpJob target compose dumpFormat name artifactFormat))
          (.starting, ⟨dir, staged⟩)
          (dumpInputs dump (openOutput gzipOutput mtime (partialName name)).atClose createdAt) =
            some (.made, disk) ∧
        disk.dir.artifacts.get name = dir'.artifacts.get name ∧
        disk.dir.manifests.get (manifestPathFor name) = dir'.manifests.get (manifestPathFor name) := by
  obtain ⟨dir', hbackup, hartifact, hmanifest⟩ :=
    backup_leaves digest compose createdAt mtime dump hformat hplan hfree
  let job := dumpJob target compose dumpFormat name artifactFormat
  have hview : (Disk.mk dir staged).view job.name =
      ⟨none, dir.artifacts.get (partialName name), none, staged.get (stagingName name)⟩ := by
    unfold Disk.view
    rw [show dir.artifacts.get job.name = none from hfree.1,
      show dir.manifests.get (manifestPathFor job.name) = none from hfree.2]
    rfl
  have hexec := exec_viewAlone digest job
    (dumpInputs dump (openOutput gzipOutput mtime (partialName name)).atClose createdAt)
    (.starting, ⟨dir, staged⟩)
  rw [hview] at hexec
  obtain ⟨⟨pc, disk⟩, hrun, hend⟩ := Option.map_eq_some_iff.mp (hexec.trans rfl)
  obtain ⟨rfl, hfiles⟩ := Prod.mk.inj hend
  refine ⟨dir', disk, hbackup, hrun, ?_, ?_⟩
  · rw [hartifact]
    exact congrArg View.artifact hfiles
  · rw [hmanifest]
    exact congrArg View.manifest hfiles

/-! ## A schedule -/

/-- The backups of two databases. -/
def sampleJobs (second : Bool) : Job :=
  ⟨if second then text "backup_b_1.dump" else text "backup_a_1.dump", text "postgresql",
    text "postgresql_custom", [], []⟩

/-- The first backup is made while the second is; the second is killed while it writes its manifest, and the
    temporary file of a third is removed. -/
def killedSchedule : List (BackupEvent Bool) :=
  [.backup true .go, .backup false .go, .backup true .go, .backup true (.writes [7]), .backup false .go,
    .backup false (.writes [1, 2]), .backup true .finishes, .backup true .go, .backup false (.writes [3]),
    .backup false .finishes, .backup true (.stats (text "t")), .backup false .go,
    .removes (text ".backup_c_1.dump.partial"), .backup false (.stats (text "t")), .backup true .go,
    .backup false .go, .backup true .writesPart, .backup false .writesPart, .backup false .go,
    .backup false .go]

/-- The two in an empty directory. -/
def sampleBackups : List (BackupEvent Bool) → Option (Backups Bool) :=
  exec (backupsStep sampleDigest sampleJobs) (.init ⟨emptyDirectory, .empty⟩)

/-- The first is accepted with all that was written, the second has no manifest. -/
theorem killed_not_misled : ∃ s, sampleBackups killedSchedule = some s ∧
    (∃ manifest, loadAndVerifyManifest sampleDigest s.disk.dir (text "backup_a_1.dump") (text "postgresql")
      none = .ok manifest) ∧
    s.disk.dir.artifacts.get (text "backup_a_1.dump") = some [1, 2, 3] ∧
    s.disk.dir.artifacts.get (text "backup_b_1.dump") = some [7] ∧
    s.disk.dir.manifests.get (text "backup_b_1.dump.manifest.json") = none := by
  obtain ⟨s, hs, hpc⟩ : ∃ s, sampleBackups killedSchedule = some s ∧ s.pcs false = .made := ⟨_, rfl, rfl⟩
  have hnames : Function.Injective fun k => (sampleJobs k).name := by
    intro j k heq
    cases j <;> cases k
    · rfl
    · exact absurd heq (by decide)
    · exact absurd heq (by decide)
    · rfl
  have hartifacts : ∀ k, isArtifactName (sampleJobs k).name = true := by decide
  have hspared : Spared (sampleJobs false).name killedSchedule := by
    intro removed hremoved hmem
    have hthird : removed = text ".backup_c_1.dump.partial" := by simpa [killedSchedule] using hmem
    rw [hthird] at hremoved
    exact absurd hremoved (by decide)
  have hread := (reader_never_misled sampleDigest (k := false) hnames hartifacts
    (run_of_exec hs fun _ _ _ => trivial) ⟨rfl, rfl⟩).2 hpc hspared
  refine ⟨s, hs, hread, ?_⟩
  obtain rfl := Option.some.inj hs
  exact ⟨rfl, rfl, rfl⟩

end FinancialRag.Scripts
