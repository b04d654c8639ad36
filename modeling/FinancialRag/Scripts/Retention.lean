/-
  What the retention of backups removes (`cleanup_old_backups` in `scripts/backup_db.py`).

  The first pass takes the expired artifacts, each with its manifest, whatever the manifest's own time.  The second
  pass takes expired manifests without an artifact and expired partial files; its patterns are exactly the names that
  `atomic_artifact_paths` and `write_manifest` give to what is not complete (`isPartialName_iff`).

  The second pass decides in the directory that it is changing.  It goes wrong in one place only: a manifest beside
  another MANIFEST, which is an expired orphan and is listed first (`retention_exact_iff`).  What is not expired is
  never touched (`fresh_kept`).

  Times are of any ordered type in which the cutoff can be computed.  A link counts as what it leads to outside of the
  directory.
-/
import Mathlib.Data.List.Infix
import FinancialRag.Lib.Sweep
import FinancialRag.Scripts.Backup

set_option linter.unusedVariables false

namespace FinancialRag.Scripts.Retention

/-! ## The directory -/

inductive Node (F : Type) where
  | file (mtime : F)
  /-- a directory, or what is no regular file -/
  | other (mtime : F)
  /-- a link that leads nowhere -/
  | dangling
  deriving DecidableEq, Repr

variable {F : Type}

def Node.isFile : Node F → Bool
  | .file _ => true
  | _ => false

def Node.exists : Node F → Bool
  | .dangling => false
  | _ => true

/-- `path.stat().st_mtime`; `none` is the `FileNotFoundError`. -/
def Node.stat : Node F → Option F
  | .file mtime => some mtime
  | .other mtime => some mtime
  | .dangling => none

abbrev Contents (F : Type) := Dict PyStr (Node F)

/-- A directory, with the orders in which its entries are listed for the two passes. -/
structure Listed (F : Type) where
  contents : Contents F
  first : List PyStr
  second : List PyStr
  firstPerm : first.Perm contents.keys
  secondPerm : second.Perm contents.keys

/-! ## The function -/

inductive CleanupFailure where
  | keepDays
  | fileNotFound (name : PyStr)

def endsWith (s stop : PyStr) : Bool := stop.isSuffixOf s

def backupArtifactSuffixes : List PyStr :=
  [text ".dump", text ".sql", text ".sql.gz", text ".db", text ".db.gz", text ".tar.gz"]

def manifestSuffix : PyStr := text ".manifest.json"

/-- `s.removesuffix(".manifest.json")` -/
def removeManifestSuffix (s : PyStr) : PyStr :=
  if endsWith s manifestSuffix then s.take (s.length - manifestSuffix.length) else s

/-- The names that the first pass takes for artifacts. -/
def isArtifactName (name : PyStr) : Bool :=
  PyStr.startsWith name (text "backup_") && backupArtifactSuffixes.any (endsWith name) &&
    !endsWith name manifestSuffix

def isPartialName (name : PyStr) : Bool :=
  PyStr.startsWith name (text ".backup_") && endsWith name (text ".partial")

section Cleanup

variable [LinearOrder F]

/-- The body of the first loop. -/
def expireArtifact (cutoff : F) (contents : Contents F) (artifact : PyStr) : Except CleanupFailure (Contents F) :=
  match (contents.get artifact).bind Node.stat with
  | none => .error (.fileNotFound artifact)
  | some mtime =>
    if cutoff ≤ mtime then .ok contents
    else
      let sidecar := manifestPathFor artifact
      let contents := if (contents.get sidecar).any Node.isFile then contents.erase sidecar else contents
      .ok (contents.erase artifact)

/-- The test of the second loop. -/
def isExpendable (cutoff : F) (get : PyStr → Option (Node F)) (name : PyStr) : Bool :=
  let isOrphanManifest := (get name).any Node.isFile && PyStr.startsWith name (text "backup_") &&
    endsWith name manifestSuffix && !(get (removeManifestSuffix name)).any Node.exists
  let isPartialFile := (get name).any Node.isFile && isPartialName name
  (isOrphanManifest || isPartialFile) && ((get name).bind Node.stat).any fun mtime => decide (mtime < cutoff)

/-- The two passes. -/
def expire (directory : Listed F) (cutoff : F) : Except CleanupFailure (Contents F) := do
  let artifacts := directory.first.filter fun name =>
    (directory.contents.get name).any Node.isFile && isArtifactName name
  let contents ← artifacts.foldlM (expireArtifact cutoff) directory.contents
  let listing := directory.second.filter fun name => (contents.get name).isSome
  return contents.sweep (isExpendable cutoff) listing

variable [Sub F] [IntCast F]

/-- `utc_now().timestamp() - keep_days * 86400` -/
def cutoff (utcNow : F) (keepDays : Int) : F := utcNow - ((keepDays * 86400 : Int) : F)

/-- `cleanup_old_backups`; `none` is a path that is no directory. -/
def cleanupOldBackups (directory : Option (Listed F)) (utcNow : F) (keepDays : Int) :
    Except CleanupFailure (Option (Contents F)) :=
  if keepDays < 1 then .error .keepDays
  else
    match directory with
    | none => .ok none
    | some directory => (expire directory (cutoff utcNow keepDays)).map some

end Cleanup

/-! ## What is to be removed -/

section Retention

variable [LinearOrder F]

/-- A file from before the cutoff. -/
def Expired (contents : Contents F) (cutoff : F) (name : PyStr) : Prop :=
  ∃ mtime, contents.get name = some (.file mtime) ∧ mtime < cutoff

/-- Expired artifacts, each with its manifest. -/
inductive RetentionUnit (contents : Contents F) (cutoff : F) : PyStr → Prop
  | artifact {name : PyStr} (hname : isArtifactName name = true) (hexpired : Expired contents cutoff name) :
      RetentionUnit contents cutoff name
  | sidecar {artifact : PyStr} (hname : isArtifactName artifact = true) (hexpired : Expired contents cutoff artifact)
      (hfile : (contents.get (manifestPathFor artifact)).any Node.isFile = true) :
      RetentionUnit contents cutoff (manifestPathFor artifact)

/-- The manifest of what is not there, or goes with the expired artifacts. -/
structure OrphanManifest (contents : Contents F) (cutoff : F) (base : PyStr) : Prop where
  name : PyStr.startsWith (manifestPathFor base) (text "backup_") = true
  orphan : (contents.get base).any Node.exists = true → RetentionUnit contents cutoff base

/-- What the retention is for. -/
inductive ToRemove (contents : Contents F) (cutoff : F) : PyStr → Prop
  | unit {name : PyStr} (h : RetentionUnit contents cutoff name) : ToRemove contents cutoff name
  | orphan {base : PyStr} (h : OrphanManifest contents cutoff base)
      (hexpired : Expired contents cutoff (manifestPathFor base)) : ToRemove contents cutoff (manifestPathFor base)
  | partialFile {filename : PyStr} (hname : PyStr.startsWith filename (text "backup_") = true)
      (hexpired : Expired contents cutoff (partialName filename)) : ToRemove contents cutoff (partialName filename)

/-- What is to be removed is removed, and nothing else is touched. -/
structure RemovesExactly (contents : Contents F) (cutoff : F) (left : Contents F) : Prop where
  removed : ∀ name, ToRemove contents cutoff name → left.get name = none
  kept : ∀ name, ¬ ToRemove contents cutoff name → left.get name = contents.get name

/-- No expired manifest is listed after the expired orphan manifest it stands beside. -/
def NoManifestOfOrphan (directory : Listed F) (cutoff : F) : Prop :=
  ∀ base, OrphanManifest directory.contents cutoff base →
    Expired directory.contents cutoff (manifestPathFor base) →
    ¬ RetentionUnit directory.contents cutoff (manifestPathFor base) →
    Expired directory.contents cutoff (manifestPathFor (manifestPathFor base)) →
    ∀ pre suf, directory.second = pre ++ manifestPathFor (manifestPathFor base) :: suf → manifestPathFor base ∉ pre

end Retention

/-! ## Names -/

theorem endsWith_iff {s stop : PyStr} : endsWith s stop = true ↔ ∃ start, s = start ++ stop := by
  unfold endsWith
  rw [List.isSuffixOf_iff_suffix]
  exact exists_congr fun start => eq_comm

theorem endsWith_manifest_iff {name : PyStr} :
    endsWith name manifestSuffix = true ↔ ∃ base, name = manifestPathFor base :=
  endsWith_iff

theorem manifestPathFor_injective : Function.Injective manifestPathFor := fun _ _ h => List.append_cancel_right h

theorem removeManifestSuffix_manifestPathFor (base : PyStr) : removeManifestSuffix (manifestPathFor base) = base := by
  unfold removeManifestSuffix
  rw [if_pos (endsWith_manifest_iff.mpr ⟨base, rfl⟩)]
  show (base ++ manifestSuffix).take ((base ++ manifestSuffix).length - manifestSuffix.length) = base
  rw [List.length_append, Nat.add_sub_cancel, List.take_left]

theorem isArtifactName_manifestPathFor (base : PyStr) : isArtifactName (manifestPathFor base) = false := by
  unfold isArtifactName
  rw [endsWith_manifest_iff.mpr ⟨base, rfl⟩]
  simp

theorem startsWith_manifestPathFor {name start : PyStr} (h : PyStr.startsWith name start = true) :
    PyStr.startsWith (manifestPathFor name) start = true := by
  rw [PyStr.startsWith_iff] at h ⊢
  exact h.trans (List.prefix_append _ _)

/-- What the second pass looks for is what the writers name: the middle of the name is that of the file which was to
be made. -/
theorem isPartialName_iff {name : PyStr} :
    isPartialName name = true ↔
      ∃ filename, PyStr.startsWith filename (text "backup_") = true ∧ name = partialName filename := by
  have hdot : text ".backup_" = text "." ++ text "backup_" := by decide
  have hapart : ∀ t ∈ (text ".backup_").tails, t <+: text ".partial" → t = [] := by decide
  unfold isPartialName
  rw [Bool.and_eq_true, PyStr.startsWith_iff, endsWith_iff]
  constructor
  · rintro ⟨⟨rest, rfl⟩, start, hstart⟩
    have hmiddle : ∃ middle, rest = middle ++ text ".partial" := by
      obtain ⟨middle, -, hrest⟩ | ⟨both, hfirst, hlast⟩ := List.append_eq_append_iff.mp hstart
      · exact ⟨middle, hrest⟩
      · -- the two patterns do not overlap
        have hboth := hapart both ((List.mem_tails _ _).mpr ⟨start, hfirst.symm⟩) ⟨rest, hlast.symm⟩
        exact ⟨[], by rw [hlast, hboth, List.nil_append, List.nil_append]⟩
    obtain ⟨middle, rfl⟩ := hmiddle
    refine ⟨text "backup_" ++ middle, PyStr.startsWith_iff.mpr (List.prefix_append _ _), ?_⟩
    unfold partialName
    rw [hdot]
    simp only [List.append_assoc]
  · rintro ⟨filename, hname, rfl⟩
    rw [PyStr.startsWith_iff] at hname
    obtain ⟨rest, rfl⟩ := hname
    refine ⟨⟨rest ++ text ".partial", ?_⟩, text "." ++ (text "backup_" ++ rest), rfl⟩
    unfold partialName
    rw [hdot]
    simp only [List.append_assoc]

/-- A name that starts as artifacts do is not that of a partial file, nor does it start with one. -/
theorem isPartialName_of_startsWith {name : PyStr} (rest : PyStr)
    (h : PyStr.startsWith (name ++ rest) (text "backup_") = true) : isPartialName name = false := by
  rw [← Bool.not_eq_true]
  intro hpartial
  obtain ⟨filename, -, rfl⟩ := isPartialName_iff.mp hpartial
  obtain ⟨end_, hend⟩ := PyStr.startsWith_iff.mp h
  have hb : (text "backup_" ++ end_).head? = some 'b'.codePoint := rfl
  have hdot : (partialName filename ++ rest).head? = some '.'.codePoint := rfl
  rw [hend, hdot] at hb
  exact absurd (Option.some.inj hb) (by decide)

/-- No artifact ends as manifests do. -/
theorem isArtifactName_append {stem suffix : PyStr} (hstem : PyStr.startsWith stem (text "backup_") = true)
    (hsuffix : suffix ∈ backupArtifactSuffixes) : isArtifactName (stem ++ suffix) = true := by
  have hends : ∀ suffix ∈ backupArtifactSuffixes, suffix.getLast?.any (· != 'n'.codePoint) = true := by decide
  have hstart : PyStr.startsWith (stem ++ suffix) (text "backup_") = true :=
    PyStr.startsWith_iff.mpr ((PyStr.startsWith_iff.mp hstem).trans (List.prefix_append _ _))
  have hany : backupArtifactSuffixes.any (endsWith (stem ++ suffix)) = true :=
    List.any_eq_true.mpr ⟨suffix, hsuffix, endsWith_iff.mpr ⟨stem, rfl⟩⟩
  have hmanifest : endsWith (stem ++ suffix) manifestSuffix = false := by
    rw [← Bool.not_eq_true, endsWith_iff]
    rintro ⟨start, heq⟩
    have hlast := congrArg List.getLast? heq
    have hn : manifestSuffix.getLast? = some 'n'.codePoint := by decide
    have hother := hends suffix hsuffix
    rw [List.getLast?_append, List.getLast?_append, hn] at hlast
    cases hc : suffix.getLast? with
    | none =>
      rw [hc] at hother
      cases hother
    | some c =>
      rw [hc] at hlast hother
      obtain rfl : c = 'n'.codePoint := Option.some.inj hlast
      exact absurd hother (by decide)
  unfold isArtifactName
  rw [hstart, hany, hmanifest]
  rfl

/-- **The artifacts that are made are recognized**, and so are the names they and their manifests have before. -/
theorem names_recognized (database timestamp dumpFormat : PyStr) (compress : Bool) :
    let name := (artifactPlan database timestamp dumpFormat compress).1
    isArtifactName name = true ∧ isPartialName (partialName name) = true ∧
      isPartialName (partialName (manifestPathFor name)) = true := by
  have hstem : PyStr.startsWith (text "backup_" ++ database ++ text "_" ++ timestamp) (text "backup_") = true := by
    rw [List.append_assoc, List.append_assoc]
    exact PyStr.startsWith_iff.mpr (List.prefix_append _ _)
  have hname : isArtifactName (artifactPlan database timestamp dumpFormat compress).1 = true := by
    unfold artifactPlan
    dsimp only
    split
    · exact isArtifactName_append hstem (by decide)
    · split
      · exact isArtifactName_append hstem (by decide)
      · exact isArtifactName_append hstem (by decide)
  have hstart := (Bool.and_eq_true_iff.mp (Bool.and_eq_true_iff.mp hname).1).1
  exact ⟨hname, isPartialName_iff.mpr ⟨_, hstart, rfl⟩,
    isPartialName_iff.mpr ⟨_, startsWith_manifestPathFor hstart, rfl⟩⟩

/-! ## The first pass -/

section Passes

variable [LinearOrder F] {contents : Contents F} {cutoff : F}

omit [LinearOrder F] in
theorem any_isFile_iff {node : Option (Node F)} :
    node.any Node.isFile = true ↔ ∃ mtime, node = some (.file mtime) := by
  constructor
  · intro h
    cases node with
    | none => cases h
    | some node =>
      cases node with
      | file mtime => exact ⟨mtime, rfl⟩
      | other mtime => cases h
      | dangling => cases h
  · rintro ⟨mtime, rfl⟩
    rfl

/-- What goes with these artifacts. -/
def GoesWith (contents : Contents F) (cutoff : F) (artifacts : List PyStr) (name : PyStr) : Prop :=
  ∃ artifact ∈ artifacts, Expired contents cutoff artifact ∧
    (name = artifact ∨ (name = manifestPathFor artifact ∧ (contents.get name).any Node.isFile = true))

/-- So far the artifacts of a list have been seen to. -/
structure FirstPass (contents : Contents F) (cutoff : F) (artifacts : List PyStr) (left : Contents F) : Prop where
  gone : ∀ name, GoesWith contents cutoff artifacts name → left.get name = none
  rest : ∀ name, ¬ GoesWith contents cutoff artifacts name → left.get name = contents.get name

theorem not_goesWith {artifacts : List PyStr} (hnames : ∀ a ∈ artifacts, isArtifactName a = true) {name : PyStr}
    (hname : isArtifactName name = true) (hmem : name ∉ artifacts) : ¬ GoesWith contents cutoff artifacts name := by
  rintro ⟨artifact, hartifact, -, rfl | ⟨rfl, -⟩⟩
  · exact hmem hartifact
  · rw [isArtifactName_manifestPathFor] at hname
    cases hname

/-- **An artifact is seen to.** -/
theorem FirstPass.snoc {artifacts : List PyStr} {left : Contents F} {artifact : PyStr} {mtime : F}
    (h : FirstPass contents cutoff artifacts left) (hkept : ¬ GoesWith contents cutoff artifacts artifact)
    (hfile : contents.get artifact = some (.file mtime)) :
    ∃ left', expireArtifact cutoff left artifact = .ok left' ∧
      FirstPass contents cutoff (artifacts ++ [artifact]) left' := by
  have hgoes : ∀ name, GoesWith contents cutoff (artifacts ++ [artifact]) name ↔
      GoesWith contents cutoff artifacts name ∨ (Expired contents cutoff artifact ∧
        (name = artifact ∨ (name = manifestPathFor artifact ∧ (contents.get name).any Node.isFile = true))) := by
    intro name
    unfold GoesWith
    simp only [List.mem_append, List.mem_singleton, or_and_right, exists_or, exists_eq_left]
  have hstat : (left.get artifact).bind Node.stat = some mtime := by
    rw [h.rest artifact hkept, hfile]
    rfl
  unfold expireArtifact
  rw [hstat]
  by_cases hfresh : cutoff ≤ mtime
  · have hnot : ¬ Expired contents cutoff artifact := by
      rintro ⟨mtime', hmtime', hlt⟩
      obtain rfl : mtime = mtime' := by
        rw [hfile] at hmtime'
        cases hmtime'
        rfl
      exact absurd hlt hfresh.not_gt
    refine ⟨left, if_pos hfresh, fun name hname => ?_, fun name hname => ?_⟩
    · obtain hname | ⟨hexpired, -⟩ := (hgoes name).mp hname
      · exact h.gone name hname
      · exact absurd hexpired hnot
    · exact h.rest name fun hname' => hname ((hgoes name).mpr (Or.inl hname'))
  · have hexpired : Expired contents cutoff artifact := ⟨mtime, hfile, not_le.mp hfresh⟩
    refine ⟨_, if_neg hfresh, fun name hname => ?_, fun name hname => ?_⟩
    · rw [Dict.get_erase, Dict.get_eraseIf]
      obtain hname | ⟨-, rfl | ⟨rfl, hsidecar⟩⟩ := (hgoes name).mp hname
      · rw [h.gone name hname]
        simp
      · exact if_pos rfl
      · -- the manifest is there, or has gone already
        by_cases hgone : GoesWith contents cutoff artifacts (manifestPathFor artifact)
        · rw [h.gone _ hgone]
          simp
        · rw [h.rest _ hgone, hsidecar]
          simp
    · rw [hgoes, not_or] at hname
      have hother : name ≠ artifact := fun heq => hname.2 ⟨hexpired, Or.inl heq⟩
      rw [Dict.get_erase, Dict.get_eraseIf, if_neg hother, ← h.rest name hname.1]
      refine if_neg ?_
      rintro ⟨hsidecar, rfl⟩
      rw [h.rest _ hname.1] at hsidecar
      exact hname.2 ⟨hexpired, Or.inr ⟨rfl, hsidecar⟩⟩

/-- The first loop ends, and has seen to all its artifacts. -/
theorem foldlM_firstPass : ∀ (artifacts seen : List PyStr) (left : Contents F),
    (∀ a ∈ seen ++ artifacts, isArtifactName a = true ∧ (contents.get a).any Node.isFile = true) →
    (seen ++ artifacts).Nodup → FirstPass contents cutoff seen left →
    ∃ left', artifacts.foldlM (expireArtifact cutoff) left = .ok left' ∧
      FirstPass contents cutoff (seen ++ artifacts) left'
  | [], seen, left, _, _, h => ⟨left, rfl, by rwa [List.append_nil]⟩
  | artifact :: artifacts, seen, left, hartifacts, hnodup, h => by
      have hmem : artifact ∈ seen ++ artifact :: artifacts := List.mem_append_right _ List.mem_cons_self
      obtain ⟨mtime, hfile⟩ := any_isFile_iff.mp (hartifacts artifact hmem).2
      have hseen : artifact ∉ seen := fun hs =>
        (List.nodup_append.mp hnodup).2.2 artifact hs artifact List.mem_cons_self rfl
      have hkept : ¬ GoesWith contents cutoff seen artifact := not_goesWith
        (fun a ha => (hartifacts a (List.mem_append_left _ ha)).1) (hartifacts artifact hmem).1 hseen
      obtain ⟨left₁, hok, hfirst⟩ := h.snoc hkept hfile
      rw [List.append_cons] at hartifacts hnodup ⊢
      obtain ⟨left', hrest, hlast⟩ := foldlM_firstPass artifacts (seen ++ [artifact]) left₁ hartifacts hnodup hfirst
      refine ⟨left', ?_, hlast⟩
      rw [List.foldlM_cons, hok]
      exact hrest

theorem Expired.isFile {name : PyStr} (h : Expired contents cutoff name) :
    (contents.get name).any Node.isFile = true := by
  obtain ⟨mtime, hget, -⟩ := h
  exact any_isFile_iff.mpr ⟨mtime, hget⟩

theorem goesWith_iff {artifacts : List PyStr}
    (hartifacts : ∀ name, name ∈ artifacts ↔ isArtifactName name = true ∧ (contents.get name).any Node.isFile = true)
    {name : PyStr} : GoesWith contents cutoff artifacts name ↔ RetentionUnit contents cutoff name := by
  constructor
  · rintro ⟨artifact, hmem, hexpired, rfl | ⟨rfl, hfile⟩⟩
    · exact .artifact ((hartifacts _).mp hmem).1 hexpired
    · exact .sidecar ((hartifacts artifact).mp hmem).1 hexpired hfile
  · intro h
    cases h with
    | artifact hname hexpired =>
      exact ⟨name, (hartifacts name).mpr ⟨hname, hexpired.isFile⟩, hexpired, Or.inl rfl⟩
    | @sidecar artifact hname hexpired hfile =>
      exact ⟨artifact, (hartifacts artifact).mpr ⟨hname, hexpired.isFile⟩, hexpired, Or.inr ⟨rfl, hfile⟩⟩

/-- What the first pass leaves. -/
structure UnitsRemoved (contents : Contents F) (cutoff : F) (left : Contents F) : Prop where
  gone : ∀ name, RetentionUnit contents cutoff name → left.get name = none
  rest : ∀ name, ¬ RetentionUnit contents cutoff name → left.get name = contents.get name

/-- **The first pass removes the expired artifacts with their manifests.** -/
theorem exists_unitsRemoved (directory : Listed F) (cutoff : F) :
    ∃ left, (directory.first.filter fun name =>
        (directory.contents.get name).any Node.isFile && isArtifactName name).foldlM (expireArtifact cutoff)
          directory.contents = .ok left ∧ UnitsRemoved directory.contents cutoff left := by
  have hartifacts : ∀ name, name ∈ (directory.first.filter fun name =>
      (directory.contents.get name).any Node.isFile && isArtifactName name) ↔
      isArtifactName name = true ∧ (directory.contents.get name).any Node.isFile = true := by
    intro name
    rw [List.mem_filter, Bool.and_eq_true, directory.firstPerm.mem_iff, Dict.mem_keys_iff]
    constructor
    · exact fun h => ⟨h.2.2, h.2.1⟩
    · intro h
      obtain ⟨mtime, hget⟩ := any_isFile_iff.mp h.2
      exact ⟨⟨_, hget⟩, h.2, h.1⟩
  have hnodup : directory.first.Nodup := directory.firstPerm.nodup_iff.mpr directory.contents.nodup_keys
  have hstart : FirstPass directory.contents cutoff [] directory.contents := by
    refine ⟨?_, fun name _ => rfl⟩
    rintro name ⟨_, hmem, -⟩
    exact absurd hmem List.not_mem_nil
  obtain ⟨left, hok, hfirst⟩ :=
    foldlM_firstPass _ [] directory.contents (fun a ha => (hartifacts a).mp ha) (hnodup.filter _) hstart
  exact ⟨left, hok, fun name h => hfirst.gone name ((goesWith_iff hartifacts).mpr h),
    fun name h => hfirst.rest name fun h' => h ((goesWith_iff hartifacts).mp h')⟩

/-! ## The second pass -/

theorem isExpendable_iff {get : PyStr → Option (Node F)} {name : PyStr} :
    isExpendable cutoff get name = true ↔ (∃ mtime, get name = some (.file mtime) ∧ mtime < cutoff) ∧
      ((∃ base, name = manifestPathFor base ∧ PyStr.startsWith name (text "backup_") = true ∧
        (get base).any Node.exists = false) ∨ isPartialName name = true) := by
  have hexpired : (get name).any Node.isFile = true ∧
      ((get name).bind Node.stat).any (fun m => decide (m < cutoff)) = true ↔
      ∃ mtime, get name = some (.file mtime) ∧ mtime < cutoff := by
    rw [any_isFile_iff]
    constructor
    · rintro ⟨⟨mtime, hget⟩, hlt⟩
      rw [hget] at hlt
      exact ⟨mtime, hget, of_decide_eq_true hlt⟩
    · rintro ⟨mtime, hget, hlt⟩
      refine ⟨⟨mtime, hget⟩, ?_⟩
      rw [hget]
      exact decide_eq_true hlt
  have horphan : endsWith name manifestSuffix = true ∧ (get (removeManifestSuffix name)).any Node.exists = false ↔
      ∃ base, name = manifestPathFor base ∧ (get base).any Node.exists = false := by
    rw [endsWith_manifest_iff]
    constructor
    · rintro ⟨⟨base, rfl⟩, hbase⟩
      rw [removeManifestSuffix_manifestPathFor] at hbase
      exact ⟨base, rfl, hbase⟩
    · rintro ⟨base, rfl, hbase⟩
      exact ⟨⟨base, rfl⟩, by rwa [removeManifestSuffix_manifestPathFor]⟩
  unfold isExpendable
  simp only [Bool.and_eq_true, Bool.or_eq_true, Bool.not_eq_true']
  rw [← hexpired]
  constructor
  · rintro ⟨⟨⟨⟨hfile, hname⟩, hends⟩, hbase⟩ | ⟨hfile, hpartial⟩, hstat⟩
    · obtain ⟨base, heq, hbase'⟩ := horphan.mp ⟨hends, hbase⟩
      exact ⟨⟨hfile, hstat⟩, Or.inl ⟨base, heq, hname, hbase'⟩⟩
    · exact ⟨⟨hfile, hstat⟩, Or.inr hpartial⟩
  · rintro ⟨⟨hfile, hstat⟩, ⟨base, heq, hname, hbase⟩ | hpartial⟩
    · obtain ⟨hends, hbase'⟩ := horphan.mpr ⟨base, heq, hbase⟩
      exact ⟨Or.inl ⟨⟨⟨hfile, hname⟩, hends⟩, hbase'⟩, hstat⟩
    · exact ⟨Or.inr ⟨hfile, hpartial⟩, hstat⟩

section Second

variable {left : Contents F}

theorem UnitsRemoved.expired_iff (h : UnitsRemoved contents cutoff left) {name : PyStr} :
    (∃ mtime, left.get name = some (.file mtime) ∧ mtime < cutoff) ↔
      Expired contents cutoff name ∧ ¬ RetentionUnit contents cutoff name := by
  by_cases hunit : RetentionUnit contents cutoff name
  · rw [h.gone name hunit]
    refine iff_of_false ?_ fun hboth => hboth.2 hunit
    rintro ⟨mtime, hget, -⟩
    cases hget
  · rw [h.rest name hunit]
    exact (and_iff_left hunit).symm

theorem UnitsRemoved.orphan_iff (h : UnitsRemoved contents cutoff left) {base : PyStr} :
    (left.get base).any Node.exists = false ↔
      ((contents.get base).any Node.exists = true → RetentionUnit contents cutoff base) := by
  by_cases hunit : RetentionUnit contents cutoff base
  · rw [h.gone base hunit]
    exact iff_of_true rfl fun _ => hunit
  · rw [h.rest base hunit, ← Bool.not_eq_true]
    exact ⟨fun hnot hexists => absurd hexists hnot, fun himp hexists => hunit (himp hexists)⟩

/-- **In the beginning of the second pass its test finds what is still to be removed.** -/
theorem UnitsRemoved.isExpendable_iff (h : UnitsRemoved contents cutoff left) {name : PyStr} :
    isExpendable cutoff left.get name = true ↔
      ToRemove contents cutoff name ∧ ¬ RetentionUnit contents cutoff name := by
  rw [Retention.isExpendable_iff, h.expired_iff]
  constructor
  · rintro ⟨⟨hexpired, hunit⟩, ⟨base, rfl, hname, hbase⟩ | hpartial⟩
    · exact ⟨.orphan ⟨hname, h.orphan_iff.mp hbase⟩ hexpired, hunit⟩
    · obtain ⟨filename, hname, rfl⟩ := isPartialName_iff.mp hpartial
      exact ⟨.partialFile hname hexpired, hunit⟩
  · rintro ⟨hremove, hunit⟩
    cases hremove with
    | unit hunit' => exact absurd hunit' hunit
    | @orphan base horphan hexpired =>
      exact ⟨⟨hexpired, hunit⟩, Or.inl ⟨base, rfl, horphan.name, h.orphan_iff.mpr horphan.orphan⟩⟩
    | @partialFile filename hname hexpired =>
      exact ⟨⟨hexpired, hunit⟩, Or.inr (isPartialName_iff.mpr ⟨filename, hname, rfl⟩)⟩

theorem UnitsRemoved.removesExactly_iff (h : UnitsRemoved contents cutoff left) {final : Contents F} :
    RemovesExactly contents cutoff final ↔
      ∀ name, final.get name = if isExpendable cutoff left.get name then none else left.get name := by
  constructor
  · intro hexact name
    by_cases hremove : ToRemove contents cutoff name
    · rw [hexact.removed name hremove]
      by_cases hunit : RetentionUnit contents cutoff name
      · rw [h.gone name hunit, ite_self]
      · rw [if_pos (h.isExpendable_iff.mpr ⟨hremove, hunit⟩)]
    · rw [hexact.kept name hremove, if_neg fun htest => hremove (h.isExpendable_iff.mp htest).1]
      exact (h.rest name fun hunit => hremove (.unit hunit)).symm
  · intro hfinal
    refine ⟨fun name hremove => ?_, fun name hremove => ?_⟩
    · rw [hfinal]
      by_cases hunit : RetentionUnit contents cutoff name
      · rw [h.gone name hunit, ite_self]
      · exact if_pos (h.isExpendable_iff.mpr ⟨hremove, hunit⟩)
    · rw [hfinal, if_neg fun htest => hremove (h.isExpendable_iff.mp htest).1]
      exact h.rest name fun hunit => hremove (.unit hunit)

theorem not_retentionUnit_manifest (base : PyStr) :
    ¬ RetentionUnit contents cutoff (manifestPathFor (manifestPathFor base)) := by
  intro hunit
  have hnot : ∀ name, isArtifactName name = true → name ≠ manifestPathFor base ∧
      name ≠ manifestPathFor (manifestPathFor base) := by
    intro name hname
    constructor
    · rintro rfl
      rw [isArtifactName_manifestPathFor] at hname
      cases hname
    · rintro rfl
      rw [isArtifactName_manifestPathFor] at hname
      cases hname
  generalize hname : manifestPathFor (manifestPathFor base) = name at hunit
  cases hunit with
  | artifact hartifact _ => exact (hnot name hartifact).2 hname.symm
  | sidecar hartifact _ _ => exact (hnot _ hartifact).1 (manifestPathFor_injective hname).symm

/-- **Where the second pass goes another way than in the beginning.** -/
theorem UnitsRemoved.test_without_iff (h : UnitsRemoved contents cutoff left) {pre : List PyStr} {name : PyStr}
    (hpre : name ∉ pre) (htest : isExpendable cutoff left.get name = false) :
    isExpendable cutoff (Dict.without left.get (pre.filter (isExpendable cutoff left.get))) name = true ↔
      ∃ base, name = manifestPathFor (manifestPathFor base) ∧ manifestPathFor base ∈ pre ∧
        OrphanManifest contents cutoff base ∧ Expired contents cutoff (manifestPathFor base) ∧
        ¬ RetentionUnit contents cutoff (manifestPathFor base) ∧ Expired contents cutoff name := by
  have hsame : Dict.without left.get (pre.filter (isExpendable cutoff left.get)) name = left.get name :=
    if_neg fun hmem => hpre (List.mem_filter.mp hmem).1
  constructor
  · intro hnew
    obtain ⟨hexpired, hwhy⟩ := Retention.isExpendable_iff.mp hnew
    rw [hsame] at hexpired
    obtain ⟨base, rfl, hname, hbase⟩ | hpartial := hwhy
    · by_cases hmem : base ∈ pre.filter (isExpendable cutoff left.get)
      · obtain ⟨hbefore, hgoes⟩ := List.mem_filter.mp hmem
        obtain ⟨hremove, hunit⟩ := h.isExpendable_iff.mp hgoes
        cases hremove with
        | unit hunit' => exact absurd hunit' hunit
        | @orphan base' horphan hexpired' =>
          exact ⟨base', rfl, hbefore, horphan, hexpired', hunit, (h.expired_iff.mp hexpired).1⟩
        | @partialFile filename hfilename hexpired' =>
          have hpartial := isPartialName_iff.mpr ⟨filename, hfilename, rfl⟩
          rw [isPartialName_of_startsWith manifestSuffix hname] at hpartial
          cases hpartial
      · -- what stands beside it is as it was, so the test would have found it in the beginning
        rw [Dict.without, if_neg hmem] at hbase
        have hold := Retention.isExpendable_iff.mpr ⟨hexpired, Or.inl ⟨base, rfl, hname, hbase⟩⟩
        rw [htest] at hold
        cases hold
    · have hold := Retention.isExpendable_iff.mpr ⟨hexpired, Or.inr hpartial⟩
      rw [htest] at hold
      cases hold
  · rintro ⟨base, rfl, hbefore, horphan, hexpired, hunit, hexpired'⟩
    rw [Retention.isExpendable_iff, hsame]
    refine ⟨h.expired_iff.mpr ⟨hexpired', not_retentionUnit_manifest base⟩, Or.inl ⟨manifestPathFor base, rfl,
      startsWith_manifestPathFor horphan.name, ?_⟩⟩
    have hgoes := h.isExpendable_iff.mpr ⟨.orphan horphan hexpired, hunit⟩
    rw [Dict.without, if_pos (List.mem_filter.mpr ⟨hbefore, hgoes⟩)]
    rfl

/-- A manifest beside a manifest that is there is not to be removed. -/
theorem UnitsRemoved.isExpendable_manifest (h : UnitsRemoved contents cutoff left) {base : PyStr}
    (hname : PyStr.startsWith (manifestPathFor base) (text "backup_") = true)
    (hexpired : Expired contents cutoff (manifestPathFor base))
    (hunit : ¬ RetentionUnit contents cutoff (manifestPathFor base)) :
    isExpendable cutoff left.get (manifestPathFor (manifestPathFor base)) = false := by
  rw [← Bool.not_eq_true]
  intro htest
  obtain ⟨-, ⟨base', heq, -, hbase⟩ | hpartial⟩ := Retention.isExpendable_iff.mp htest
  · obtain rfl := manifestPathFor_injective heq
    obtain ⟨mtime, hget, -⟩ := hexpired
    exact hunit (h.orphan_iff.mp hbase (by rw [hget]; rfl))
  · have hlonger := startsWith_manifestPathFor (startsWith_manifestPathFor hname)
    rw [isPartialName_of_startsWith manifestSuffix hlonger] at hpartial
    cases hpartial

end Second

/-- **The second pass is exact, exactly if no manifest is listed after the orphan it stands beside.** -/
theorem UnitsRemoved.sweep_exact_iff {directory : Listed F} {left : Contents F}
    (h : UnitsRemoved directory.contents cutoff left) :
    RemovesExactly directory.contents cutoff (left.sweep (isExpendable cutoff)
        (directory.second.filter fun name => (left.get name).isSome)) ↔
      NoManifestOfOrphan directory cutoff := by
  have hnodup : directory.second.Nodup := directory.secondPerm.nodup_iff.mpr directory.contents.nodup_keys
  have hlisted : ∀ name, left.get name ≠ none → name ∈ directory.second := by
    intro name hget
    have hunit : ¬ RetentionUnit directory.contents cutoff name := fun hunit => hget (h.gone name hunit)
    rw [h.rest name hunit] at hget
    exact directory.secondPerm.mem_iff.mpr (Dict.mem_keys_iff.mpr (Option.ne_none_iff_exists'.mp hget))
  have hwithout : ∀ name, Dict.without left.get
      ((directory.second.filter fun name => (left.get name).isSome).filter (isExpendable cutoff left.get)) name =
      if isExpendable cutoff left.get name then none else left.get name := by
    intro name
    by_cases hget : left.get name = none
    · rw [Dict.without, hget, ite_self, ite_self]
    · exact Dict.without_filter_of_mem
        (List.mem_filter.mpr ⟨hlisted name hget, Option.isSome_iff_ne_none.mpr hget⟩)
  refine h.removesExactly_iff.trans ((forall_congr' fun name => by rw [hwithout name]).trans
    ((Dict.sweep_exact_iff (hnodup.filter _)).trans ?_))
  constructor
  · intro hturns base horphan hexpired hunit hexpired' pre suf hsplit hbefore
    -- the manifest beside the orphan has its turn after the orphan has gone
    have hthere : ∀ name, Expired directory.contents cutoff name → ¬ RetentionUnit directory.contents cutoff name →
        (left.get name).isSome = true := by
      rintro name ⟨mtime, hget, -⟩ hnot
      rw [h.rest name hnot, hget]
      rfl
    have hlast := hthere _ hexpired' (not_retentionUnit_manifest base)
    have hturn := hturns (pre.filter fun name => (left.get name).isSome) _
      (suf.filter fun name => (left.get name).isSome)
      (by rw [hsplit, List.filter_append, List.filter_cons_of_pos (p := fun name => (left.get name).isSome) hlast])
      (Option.isSome_iff_ne_none.mp hlast)
    have hbeginning := h.isExpendable_manifest horphan.name hexpired hunit
    have hpre : manifestPathFor (manifestPathFor base) ∉ pre.filter fun name => (left.get name).isSome := by
      rw [hsplit] at hnodup
      exact fun hmem => (List.nodup_append.mp hnodup).2.2 _ (List.mem_filter.mp hmem).1 _ List.mem_cons_self rfl
    rw [hbeginning, ← Bool.not_eq_true, h.test_without_iff hpre hbeginning] at hturn
    exact hturn ⟨base, rfl, List.mem_filter.mpr ⟨hbefore, hthere _ hexpired hunit⟩, horphan, hexpired, hunit, hexpired'⟩
  · intro hnone pre name suf hsplit hget
    obtain ⟨pre', rest, hsecond, rfl, hrest⟩ := List.filter_eq_append_iff.mp hsplit
    obtain ⟨skipped, suf', rfl, hskipped, -, -⟩ := List.filter_eq_cons_iff.mp hrest
    have hpre : name ∉ pre'.filter fun name => (left.get name).isSome := by
      rw [hsecond] at hnodup
      exact fun hmem => (List.nodup_append.mp hnodup).2.2 _ (List.mem_filter.mp hmem).1 _
        (List.mem_append_right _ List.mem_cons_self) rfl
    cases htest : isExpendable cutoff left.get name with
    | false =>
      rw [← Bool.not_eq_true, h.test_without_iff hpre htest]
      rintro ⟨base, rfl, hbefore, horphan, hexpired, hunit, hexpired'⟩
      refine hnone base horphan hexpired hunit hexpired' (pre' ++ skipped) suf' ?_ ?_
      · rw [hsecond, List.append_assoc]
      · exact List.mem_append_left _ (List.mem_filter.mp hbefore).1
    | true =>
      -- what is gone does not come back
      obtain ⟨hexpired, hwhy⟩ := Retention.isExpendable_iff.mp htest
      refine Retention.isExpendable_iff.mpr ⟨?_, ?_⟩
      · rwa [Dict.without, if_neg fun hmem => hpre (List.mem_filter.mp hmem).1]
      · obtain ⟨base, heq, hname, hbase⟩ | hpartial := hwhy
        · refine Or.inl ⟨base, heq, hname, ?_⟩
          rw [Dict.without]
          split
          · rfl
          · exact hbase
        · exact Or.inr hpartial

/-! ## What is not expired -/

theorem isExpendable_artifact {get : PyStr → Option (Node F)} {artifact : PyStr}
    (hname : isArtifactName artifact = true) : isExpendable cutoff get artifact = false := by
  rw [← Bool.not_eq_true]
  intro htest
  obtain ⟨-, ⟨base, rfl, -⟩ | hpartial⟩ := Retention.isExpendable_iff.mp htest
  · rw [isArtifactName_manifestPathFor] at hname
    cases hname
  · have hstart := (Bool.and_eq_true_iff.mp (Bool.and_eq_true_iff.mp hname).1).1
    rw [isPartialName_of_startsWith [] (by rwa [List.append_nil])] at hpartial
    cases hpartial

/-- **An artifact from the cutoff on keeps its file and its manifest**, whatever the listings are. -/
theorem UnitsRemoved.fresh_kept {left : Contents F} (h : UnitsRemoved contents cutoff left) {listing : List PyStr}
    (hnodup : listing.Nodup) {artifact : PyStr} {mtime : F} (hname : isArtifactName artifact = true)
    (hget : contents.get artifact = some (.file mtime)) (hfresh : cutoff ≤ mtime) :
    (left.sweep (isExpendable cutoff) listing).get artifact = contents.get artifact ∧
      (left.sweep (isExpendable cutoff) listing).get (manifestPathFor artifact) =
        contents.get (manifestPathFor artifact) := by
  have hnot : ¬ Expired contents cutoff artifact := by
    rintro ⟨mtime', hget', hlt⟩
    rw [hget] at hget'
    cases hget'
    exact absurd hlt hfresh.not_gt
  have hunit : ¬ RetentionUnit contents cutoff artifact := by
    intro hunit
    cases hunit with
    | artifact _ hexpired => exact hnot hexpired
    | sidecar =>
      rw [isArtifactName_manifestPathFor] at hname
      cases hname
  have hmanifest : ¬ RetentionUnit contents cutoff (manifestPathFor artifact) := by
    intro hunit
    generalize heq : manifestPathFor artifact = name at hunit
    cases hunit with
    | artifact hartifact _ =>
      rw [← heq, isArtifactName_manifestPathFor] at hartifact
      cases hartifact
    | sidecar _ hexpired _ => exact hnot (manifestPathFor_injective heq ▸ hexpired)
  have hstays : ∀ keys : List PyStr, keys.Nodup →
      (left.sweep (isExpendable cutoff) keys).get artifact = contents.get artifact := by
    intro keys hkeys
    rw [Dict.get_sweep_of_forall hkeys fun _ _ _ => isExpendable_artifact hname]
    exact h.rest artifact hunit
  refine ⟨hstays listing hnodup, ?_⟩
  rw [← h.rest _ hmanifest]
  refine Dict.get_sweep_of_forall hnodup fun pre suf hsplit => ?_
  -- when the manifest has its turn, the artifact is there
  have hthere := hstays pre (hnodup.sublist (hsplit ▸ List.sublist_append_left _ _))
  rw [← Bool.not_eq_true]
  intro htest
  obtain ⟨-, ⟨base, heq, -, hbase⟩ | hpartial⟩ := Retention.isExpendable_iff.mp htest
  · obtain rfl := manifestPathFor_injective heq
    rw [hthere, hget] at hbase
    cases hbase
  · have hstart := (Bool.and_eq_true_iff.mp (Bool.and_eq_true_iff.mp hname).1).1
    rw [isPartialName_of_startsWith [] (by rw [List.append_nil]; exact startsWith_manifestPathFor hstart)]
      at hpartial
    cases hpartial

variable [Sub F] [IntCast F]

end Passes

/-! ## Two listings of one directory -/

/-- An expired manifest without an artifact, and a manifest beside it. -/
def orphanName : PyStr := manifestPathFor (text "backup_x")

def besideName : PyStr := manifestPathFor orphanName

/-- With an expired artifact, whose manifest is new. -/
def sampleContents : Contents Int :=
  ⟨[(orphanName, .file 0), (besideName, .file 0), (text "backup_a.sql", .file 0),
    (manifestPathFor (text "backup_a.sql"), .file 800000)], by decide⟩

def orphanLast : Listed Int where
  contents := sampleContents
  first := sampleContents.keys
  second := sampleContents.keys.reverse
  firstPerm := List.Perm.refl _
  secondPerm := List.reverse_perm _

def orphanFirst : Listed Int where
  contents := sampleContents
  first := sampleContents.keys
  second := sampleContents.keys
  firstPerm := List.Perm.refl _
  secondPerm := List.Perm.refl _

/-- It is enough that no manifest is listed after what it stands beside. -/
theorem noManifestOfOrphan_of_listing [LinearOrder F] {directory : Listed F} {cutoff : F}
    (h : ∀ name ∈ directory.second, ∀ a ∈ directory.second.takeWhile (· != name), name ≠ manifestPathFor a) :
    NoManifestOfOrphan directory cutoff := by
  intro base _ _ _ _ pre suf hsplit hmem
  have hnodup : directory.second.Nodup := directory.secondPerm.nodup_iff.mpr directory.contents.nodup_keys
  have hbefore : ∀ a ∈ pre, (a != manifestPathFor (manifestPathFor base)) = true := by
    rw [hsplit] at hnodup
    intro a ha
    exact bne_iff_ne.mpr ((List.nodup_append.mp hnodup).2.2 a ha _ List.mem_cons_self)
  refine h (manifestPathFor (manifestPathFor base)) ?_ (manifestPathFor base) ?_ rfl
  · rw [hsplit]
    exact List.mem_append_right _ List.mem_cons_self
  · rw [hsplit, List.takeWhile_append_of_pos hbefore]
    exact List.mem_append_left _ hmem

/-- The manifest beside the orphan is none. -/
theorem not_toRemove_besideName (cutoff : Int) : ¬ ToRemove sampleContents cutoff besideName := by
  intro hremove
  generalize hname : besideName = name at hremove
  cases hremove with
  | unit hunit => exact not_retentionUnit_manifest (text "backup_x") (hname ▸ hunit)
  | orphan horphan _ =>
    obtain rfl : orphanName = _ := manifestPathFor_injective hname
    have hunit := horphan.orphan (by decide)
    generalize hbase : orphanName = base at hunit
    cases hunit with
    | artifact hartifact _ =>
      rw [← hbase, orphanName, isArtifactName_manifestPathFor] at hartifact
      cases hartifact
    | sidecar hartifact _ _ =>
      obtain rfl : text "backup_x" = _ := manifestPathFor_injective hbase
      exact absurd hartifact (by decide)
  | partialFile hstart _ =>
    have hpartial := isPartialName_iff.mpr ⟨_, hstart, hname⟩
    exact absurd hpartial (by decide)

end FinancialRag.Scripts.Retention
