/-
  PostgreSQL backups and their restore (`scripts/backup_common.py`, `backup_db.py`, `restore_db.py`).

  Writer and reader are two programs that share a directory: the writer chooses a format and leaves a
  manifest, the reader chooses tool and decompression from the manifest.  A child process is handed the
  DESCRIPTOR of a file object and reads or writes past the object itself.

  Manifests are taken as the values that their JSON texts stand for.
-/
import FinancialRag.Lib.Dict
import FinancialRag.Lib.Json

set_option linter.unusedVariables false

namespace FinancialRag.Scripts

abbrev Bytes := List UInt8

/-! ## File objects -/

/-- A file object that is open for writing: what stands in the file, and what the object writes into it
    when it is closed. -/
structure Output where
  file : Bytes
  atClose : Bytes

/-- A text in Latin-1, empty if it has none. -/
def latin1 (s : PyStr) : Bytes :=
  if s.all fun c => decide (c.val < 256) then s.map fun c => UInt8.ofNat c.val else []

/-- The header of a gzip file: its marks, the time, and the name of the file. -/
def gzipHeader (mtime : Bytes) (name : PyStr) : Bytes :=
  let fname := latin1 name
  [0x1f, 0x8b, 0x08, if fname.isEmpty then 0 else 8] ++ mtime ++ [0x02, 0xff] ++
    if fname.isEmpty then [] else fname ++ [0]

/-- What a `GzipFile` ends with if nothing was written through it: the empty stream, its CRC and size. -/
def gzipTrailer : Bytes := [0x03, 0, 0, 0, 0, 0, 0, 0, 0, 0]

/-- `output_factory(temporary_path, mode="wb")`: the header of a `GzipFile` waits in its buffer. -/
def openOutput (gzipOutput : Bool) (mtime : Bytes) (name : PyStr) : Output where
  file := []
  atClose := if gzipOutput then gzipHeader mtime name ++ gzipTrailer else []

/-- A child process writes to the descriptor. -/
def Output.childWrites (output : Output) (bytes : Bytes) : Output :=
  { output with file := output.file ++ bytes }

def Output.close (output : Output) : Bytes := output.file ++ output.atClose

/-- A file object that is open for reading. -/
inductive Source where
  | file (bytes : Bytes)
  /-- a `GzipFile` over a file with these bytes -/
  | gzipFile (bytes : Bytes)

/-- What a child process reads from the descriptor. -/
def Source.descriptor : Source → Bytes
  | .file bytes => bytes
  | .gzipFile bytes => bytes

/-! ## What both share -/

structure PostgresTarget where
  host : PyStr
  port : Int
  user : PyStr
  database : PyStr
  password : PyStr

/-- `hashlib.sha256(…).hexdigest()` of a file. -/
structure FileDigest where
  hexdigest : Bytes → PyStr
  length : ∀ bytes, (hexdigest bytes).length = 64
  lower : ∀ bytes, ∀ c ∈ hexdigest bytes, ¬ (65 ≤ c.val ∧ c.val ≤ 90)

/-- The directory of the backups: artifacts and manifests by file name. -/
structure BackupDirectory where
  artifacts : Dict PyStr Bytes
  manifests : Dict PyStr Json

inductive Failure where
  | unsupportedDumpFormat (dumpFormat : PyStr)
  | fileExists (name : PyStr)
  | notStarted
  | pgDumpFailed (returncode : Int)
  | confirmation (expected : PyStr)
  | artifactMissing (name : PyStr)
  | manifestMissing (name : PyStr)
  | rootNotObject
  | unsupportedSchema (found : Json)
  | backupTypeMismatch (found : Json)
  | artifactMetadataMissing
  | filenameMismatch
  | sizeMismatch
  | invalidSha256
  | sha256Mismatch
  | formatMissing
  | unsupportedFormat (artifactFormat : PyStr)
  | cleanNeedsCustom
  | restoreFailed (tool : PyStr) (returncode : Int)

def text (s : String) : PyStr := PyStr.ofString s

/-- A member of an object. -/
def entry (name : String) (v : Json) : PyStr × Json := (text name, v)

/-- `manifest_path_for`. -/
def manifestPathFor (name : PyStr) : PyStr := name ++ text ".manifest.json"

/-- `target.public_metadata()`. -/
def PostgresTarget.publicMetadata (target : PostgresTarget) : Members :=
  [entry "host" (.string target.host), entry "port" (.int target.port), entry "user" (.string target.user),
    entry "database" (.string target.database)]

section Manifest

variable (digest : FileDigest)

/-- The manifest of an artifact with these bytes. -/
def manifestOf (name : PyStr) (bytes : Bytes) (createdAt backupType artifactFormat : PyStr)
    (source metadata : Members) : Json :=
  .object [entry "schema_version" (.int 1), entry "created_at" (.string createdAt),
    entry "backup_type" (.string backupType), entry "format" (.string artifactFormat),
    entry "artifact" (.object [entry "filename" (.string name), entry "size_bytes" (.int bytes.length),
      entry "sha256" (.string (digest.hexdigest bytes))]),
    entry "source" (.object source), entry "metadata" (.object metadata)]

/-- `write_manifest`. -/
def writeManifest (dir : BackupDirectory) (name : PyStr) (createdAt backupType artifactFormat : PyStr)
    (source metadata : Members) : Except Failure BackupDirectory :=
  match dir.artifacts.get name with
  | none => .error (.artifactMissing name)
  | some bytes =>
    let manifest := manifestOf digest name bytes createdAt backupType artifactFormat source metadata
    .ok { dir with manifests := dir.manifests.set (manifestPathFor name) manifest }

/-- `d.get(key)`. -/
def getOrNone (d : Members) (key : String) : Json := (d.get key).getD .null

/-- `str.lower`, of ASCII. -/
def lowerAscii (s : PyStr) : PyStr :=
  s.map fun c => if h : 65 ≤ c.val ∧ c.val ≤ 90 then ⟨c.val + 32, by omega⟩ else c

/-- What `load_and_verify_manifest` asks of the metadata of the artifact. -/
def checkArtifact (name : PyStr) (bytes : Bytes) (artifactMetadata : Json) : Except Failure Unit :=
  match artifactMetadata with
  | .object metadata =>
    if !Json.pyEq (getOrNone metadata "filename") (.string name) then .error .filenameMismatch
    else if !Json.pyEq (getOrNone metadata "size_bytes") (.int bytes.length) then .error .sizeMismatch
    else
      match getOrNone metadata "sha256" with
      | .string expected =>
        if expected.length ≠ 64 then .error .invalidSha256
        else if digest.hexdigest bytes ≠ lowerAscii expected then .error .sha256Mismatch
        else .ok ()
      | _ => .error .invalidSha256
  | _ => .error .artifactMetadataMissing

/-- `load_and_verify_manifest`; `manifestPath`: a manifest under another name. -/
def loadAndVerifyManifest (dir : BackupDirectory) (name expectedBackupType : PyStr)
    (manifestPath : Option PyStr) : Except Failure Members :=
  match dir.artifacts.get name with
  | none => .error (.artifactMissing name)
  | some bytes =>
    let resolved := manifestPath.getD (manifestPathFor name)
    match dir.manifests.get resolved with
    | none => .error (.manifestMissing resolved)
    | some (.object manifest) =>
      if !Json.pyEq (getOrNone manifest "schema_version") (.int 1) then
        .error (.unsupportedSchema (getOrNone manifest "schema_version"))
      else if !expectedBackupType.isEmpty &&
          !Json.pyEq (getOrNone manifest "backup_type") (.string expectedBackupType) then
        .error (.backupTypeMismatch (getOrNone manifest "backup_type"))
      else (checkArtifact digest name bytes (getOrNone manifest "artifact")).map fun _ => manifest
    | some _ => .error .rootNotObject

/-! ## `backup_db.py` -/

/-- A child process: whether it starts, what it writes to its standard output, and how it ends. -/
structure Child where
  starts : Bool
  stdout : Bytes
  returncode : Int

/-- A Compose service, with the file that declares it and the directory of that. -/
structure Compose where
  projectDirectory : PyStr
  file : PyStr
  service : PyStr

/-- `_compose_prefix`, and the service. -/
def Compose.prefixOf (compose : Compose) : List PyStr :=
  [text "docker", text "compose", text "--project-directory", compose.projectDirectory, text "-f",
    compose.file, text "exec", text "-T", compose.service]

def supportedPostgresFormats : List PyStr := [text "custom", text "plain"]

/-- The name of an artifact, whether its bytes go through gzip, and its format. -/
def artifactPlan (database timestamp dumpFormat : PyStr) (compress : Bool) : PyStr × Bool × PyStr :=
  let stem := text "backup_" ++ database ++ text "_" ++ timestamp
  if dumpFormat = text "custom" then (stem ++ text ".dump", false, text "postgresql_custom")
  else if compress then (stem ++ text ".sql.gz", true, text "postgresql_plain_gzip")
  else (stem ++ text ".sql", false, text "postgresql_plain")

/-- The name under which an artifact is written before it is complete. -/
def partialName (name : PyStr) : PyStr := text "." ++ name ++ text ".partial"

/-- `atomic_artifact_paths`: nothing is overwritten, and what an earlier attempt left behind is removed. -/
def atomicArtifactPaths (dir : BackupDirectory) (name : PyStr) : Except Failure BackupDirectory :=
  if (dir.artifacts.get name).isSome || (dir.manifests.get (manifestPathFor name)).isSome then
    .error (.fileExists name)
  else .ok { dir with artifacts := dir.artifacts.erase (partialName name) }

/-- `_run_postgres_dump`. -/
def runPostgresDump (dir : BackupDirectory) (name : PyStr) (gzipOutput : Bool) (mtime : Bytes)
    (pgDump : Child) : Except Failure BackupDirectory :=
  if !pgDump.starts then .error .notStarted
  else if pgDump.returncode ≠ 0 then .error (.pgDumpFailed pgDump.returncode)
  else
    let output := (openOutput gzipOutput mtime (partialName name)).childWrites pgDump.stdout
    .ok { dir with artifacts := dir.artifacts.set (partialName name) output.close }

/-- `publish_artifact`. -/
def publishArtifact (dir : BackupDirectory) (name : PyStr) : Except Failure BackupDirectory :=
  match dir.artifacts.get (partialName name) with
  | none => .error (.artifactMissing (partialName name))
  | some bytes =>
    if (dir.artifacts.get name).isSome then .error (.fileExists name)
    else .ok { dir with artifacts := (dir.artifacts.erase (partialName name)).set name bytes }

/-- What a manifest says about the source of a dump. -/
def dumpSource (target : PostgresTarget) (compose : Option Compose) : Members :=
  target.publicMetadata ++
    [entry "transport" (.string (text (if compose.isSome then "docker_compose" else "direct"))),
      entry "compose_service" ((compose.map fun c => Json.string c.service).getD .null)]

def dumpMetadata (dumpFormat : PyStr) : Members :=
  [entry "restore_tool" (.string (text (if dumpFormat = text "custom" then "pg_restore" else "psql")))]

/-- `backup_postgresql_target`: the directory, and the name of the artifact. -/
def backupPostgresqlTarget (dir : BackupDirectory) (target : PostgresTarget) (compress : Bool)
    (dumpFormat : PyStr) (compose : Option Compose) (timestamp createdAt : PyStr) (mtime : Bytes)
    (pgDump : Child) : Except Failure (BackupDirectory × PyStr) :=
  if dumpFormat ∉ supportedPostgresFormats then .error (.unsupportedDumpFormat dumpFormat)
  else do
    let (name, gzipOutput, artifactFormat) := artifactPlan target.database timestamp dumpFormat compress
    let dir ← atomicArtifactPaths dir name
    let dir ← runPostgresDump dir name gzipOutput mtime pgDump
    let dir ← publishArtifact dir name
    let dir ← writeManifest digest dir name createdAt (text "postgresql") artifactFormat
      (dumpSource target compose) (dumpMetadata dumpFormat)
    return (dir, name)

/-! ## `restore_db.py` -/

def postgresPlainFormats : List PyStr := [text "postgresql_plain", text "postgresql_plain_gzip"]

/-- `_restore_command`. -/
def restoreCommand (target : PostgresTarget) (artifactFormat : PyStr) (clean : Bool)
    (compose : Option Compose) : Except Failure (List PyStr) :=
  let direct := [text "-h", target.host, text "-p", PyStr.ofInt target.port]
  let login := [text "-U", target.user, text "-d", target.database]
  let behind (executable : PyStr) (arguments : List PyStr) : List PyStr :=
    match compose with
    | some compose => compose.prefixOf ++ [executable] ++ arguments
    | none => [executable] ++ direct ++ arguments
  if artifactFormat = text "postgresql_custom" then
    .ok (behind (text "pg_restore") (login ++
      [text "--no-owner", text "--no-acl", text "--exit-on-error", text "--single-transaction"] ++
        if clean then [text "--clean", text "--if-exists"] else []))
  else if artifactFormat ∈ postgresPlainFormats then
    if clean then .error .cleanNeedsCustom
    else .ok (behind (text "psql") (login ++
      [text "-X", text "--set=ON_ERROR_STOP=1", text "--single-transaction"]))
  else .error (.unsupportedFormat artifactFormat)

/-- `_artifact_stream`. -/
def artifactStream (bytes : Bytes) (artifactFormat : PyStr) : Source :=
  if artifactFormat = text "postgresql_plain_gzip" then .gzipFile bytes else .file bytes

/-- What a restore runs, and what it feeds to the standard input. -/
structure Started where
  command : List PyStr
  stdin : Bytes

structure RestorePlan where
  artifact : PyStr
  targetDatabase : PyStr
  targetHost : PyStr
  tool : PyStr
  clean : Bool
  dryRun : Bool

/-- The checks of `restore_postgresql`, the command and the plan. -/
def planRestore (dir : BackupDirectory) (name : PyStr) (target : PostgresTarget) (confirmTarget : PyStr)
    (manifestPath : Option PyStr) (clean : Bool) (compose : Option Compose) (dryRun : Bool) :
    Except Failure (RestorePlan × Started) :=
  if confirmTarget ≠ target.database then .error (.confirmation target.database)
  else
    (loadAndVerifyManifest digest dir name (text "postgresql") manifestPath).bind fun manifest =>
      match getOrNone manifest "format" with
      | .string artifactFormat =>
        (restoreCommand target artifactFormat clean compose).map fun command =>
          let tool := if artifactFormat = text "postgresql_custom" then text "pg_restore" else text "psql"
          let bytes := (dir.artifacts.get name).getD []
          ({ artifact := name, targetDatabase := target.database
             targetHost := (compose.map Compose.service).getD target.host
             tool := tool, clean := clean, dryRun := dryRun },
            { command := command, stdin := (artifactStream bytes artifactFormat).descriptor })
      | _ => .error .formatMissing

/-- `restore_postgresql`: what was started, and the plan if it went well. -/
def restorePostgresql (dir : BackupDirectory) (name : PyStr) (target : PostgresTarget)
    (confirmTarget : PyStr) (manifestPath : Option PyStr) (clean : Bool) (compose : Option Compose)
    (dryRun : Bool) (tool : Child) : Option Started × Except Failure RestorePlan :=
  match planRestore digest dir name target confirmTarget manifestPath clean compose dryRun with
  | .error failure => (none, .error failure)
  | .ok (plan, started) =>
    if dryRun then (none, .ok plan)
    else if !tool.starts then (none, .error .notStarted)
    else if tool.returncode ≠ 0 then (some started, .error (.restoreFailed plan.tool tool.returncode))
    else (some started, .ok plan)

/-! ## What the writer leaves is accepted by the reader -/

theorem pyEq_string (s : PyStr) : Json.pyEq (.string s) (.string s) = true := by
  rw [Json.pyEq, Json.eqWith_scalar rfl]
  exact beq_self_eq_true s

theorem pyEq_int (n : Int) : Json.pyEq (.int n) (.int n) = true := by
  rw [Json.pyEq, Json.eqWith_scalar rfl]
  exact decide_eq_true rfl

variable {digest}

theorem lowerAscii_hexdigest (digest : FileDigest) (bytes : Bytes) :
    lowerAscii (digest.hexdigest bytes) = digest.hexdigest bytes := by
  unfold lowerAscii
  refine (List.map_congr_left fun c hc => ?_).trans (List.map_id _)
  rw [dif_neg (digest.lower bytes c hc)]
  rfl

/-- Reading a display. -/
@[simp] theorem getOrNone_entry (k k' : String) (v : Json) (rest : Members) :
    getOrNone (entry k v :: rest) k' = if k' = k then v else getOrNone rest k' := by
  unfold getOrNone entry text
  rw [Members.get_cons]
  split
  · rfl
  · rfl

/-- **A manifest is accepted** with the artifact that it was written for. -/
theorem loadAndVerifyManifest_of_written {dir : BackupDirectory} {name : PyStr} {bytes : Bytes}
    {createdAt backupType artifactFormat : PyStr} {source metadata : Members}
    (hartifact : dir.artifacts.get name = some bytes)
    (hmanifest : dir.manifests.get (manifestPathFor name) =
      some (manifestOf digest name bytes createdAt backupType artifactFormat source metadata)) :
    ∃ manifest, loadAndVerifyManifest digest dir name backupType none = .ok manifest ∧
      getOrNone manifest "format" = .string artifactFormat := by
  have hchecks : checkArtifact digest name bytes (.object [entry "filename" (.string name),
      entry "size_bytes" (.int bytes.length), entry "sha256" (.string (digest.hexdigest bytes))]) = .ok () := by
    simp [checkArtifact, pyEq_string, pyEq_int, digest.length, lowerAscii_hexdigest]
  unfold manifestOf at hmanifest
  simp only [loadAndVerifyManifest, hartifact, Option.getD_none, hmanifest]
  simp [pyEq_int, pyEq_string, hchecks, Except.map]

theorem partialName_ne (name : PyStr) : partialName name ≠ name := by
  intro heq
  have hlength := congrArg List.length heq
  have hdot : (text ".").length = 1 := by decide
  unfold partialName at hlength
  rw [List.length_append, List.length_append, hdot] at hlength
  omega

/-- The bytes of an artifact: those of the dump, and what a `GzipFile` writes when it is closed. -/
def artifactBytes (gzipOutput : Bool) (mtime : Bytes) (name : PyStr) (dump : Bytes) : Bytes :=
  ((openOutput gzipOutput mtime (partialName name)).childWrites dump).close

/-- The name is free. -/
def Free (dir : BackupDirectory) (name : PyStr) : Prop :=
  dir.artifacts.get name = none ∧ dir.manifests.get (manifestPathFor name) = none

theorem publishArtifact_eq_ok {dir : BackupDirectory} {name : PyStr} {bytes : Bytes}
    (hwrittenBytes : dir.artifacts.get (partialName name) = some bytes) (hname : dir.artifacts.get name = none) :
    publishArtifact dir name =
      .ok { dir with artifacts := (dir.artifacts.erase (partialName name)).set name bytes } := by
  unfold publishArtifact
  rw [hwrittenBytes, hname]
  rfl

theorem writeManifest_eq_ok {dir : BackupDirectory} {name : PyStr} {bytes : Bytes}
    (hbytes : dir.artifacts.get name = some bytes) (createdAt backupType artifactFormat : PyStr)
    (source metadata : Members) :
    writeManifest digest dir name createdAt backupType artifactFormat source metadata =
      .ok { dir with
        manifests := dir.manifests.set (manifestPathFor name)
          (manifestOf digest name bytes createdAt backupType artifactFormat source metadata) } := by
  unfold writeManifest
  rw [hbytes]

/-- **What a backup leaves**: the artifact under its name, and the manifest of these bytes. -/
theorem backup_leaves (digest : FileDigest) {dir : BackupDirectory} {target : PostgresTarget} {compress : Bool}
    {dumpFormat : PyStr} (compose : Option Compose) {timestamp name artifactFormat : PyStr}
    (createdAt : PyStr) (mtime dump : Bytes) {gzipOutput : Bool}
    (hformat : dumpFormat ∈ supportedPostgresFormats)
    (hplan : artifactPlan target.database timestamp dumpFormat compress = (name, gzipOutput, artifactFormat))
    (hfree : Free dir name) :
    ∃ dir', backupPostgresqlTarget digest dir target compress dumpFormat compose timestamp createdAt mtime
          ⟨true, dump, 0⟩ = .ok (dir', name) ∧
        dir'.artifacts.get name = some (artifactBytes gzipOutput mtime name dump) ∧
        dir'.manifests.get (manifestPathFor name) = some (manifestOf digest name
          (artifactBytes gzipOutput mtime name dump) createdAt (text "postgresql") artifactFormat
            (dumpSource target compose) (dumpMetadata dumpFormat)) := by
  have hne : name ≠ partialName name := fun heq => partialName_ne name heq.symm
  have hpaths : atomicArtifactPaths dir name =
      .ok { dir with artifacts := dir.artifacts.erase (partialName name) } := by
    unfold atomicArtifactPaths
    rw [hfree.1, hfree.2]
    rfl
  -- the directory with the partial artifact, and with the complete one
  obtain ⟨written, hwritten⟩ : ∃ written : BackupDirectory, written = { dir with
      artifacts := Dict.set (dir.artifacts.erase (partialName name)) (partialName name)
        (artifactBytes gzipOutput mtime name dump) } := ⟨_, rfl⟩
  have hdump : runPostgresDump { dir with artifacts := dir.artifacts.erase (partialName name) } name
      gzipOutput mtime ⟨true, dump, 0⟩ = .ok written := by
    rw [hwritten]
    rfl
  have hwrittenBytes : written.artifacts.get (partialName name) =
      some (artifactBytes gzipOutput mtime name dump) := by
    rw [hwritten, Dict.get_set, if_pos rfl]
  have hname : written.artifacts.get name = none := by
    rw [hwritten, Dict.get_set, if_neg hne, Dict.get_erase, if_neg hne, hfree.1]
  -- from the partial name to its own
  have hcomplete := Dict.get_set (written.artifacts.erase (partialName name)) name name
    (artifactBytes gzipOutput mtime name dump)
  rw [if_pos rfl] at hcomplete
  unfold backupPostgresqlTarget
  rw [if_neg (not_not_intro hformat), hplan]
  simp only [hpaths, hdump, publishArtifact_eq_ok hwrittenBytes hname, bind, Except.bind]
  rw [writeManifest_eq_ok hcomplete]
  refine ⟨_, rfl, hcomplete, ?_⟩
  rw [Dict.get_set, if_pos rfl]

/-- A plan that is made for an artifact and its manifest: the tool reads the bytes of the artifact. -/
theorem planRestore_of_written {dir : BackupDirectory} {name : PyStr} {bytes : Bytes}
    {createdAt artifactFormat : PyStr} {source metadata : Members} {target : PostgresTarget} {clean : Bool}
    {compose : Option Compose} {command : List PyStr} (dryRun : Bool)
    (hartifact : dir.artifacts.get name = some bytes)
    (hmanifest : dir.manifests.get (manifestPathFor name) =
      some (manifestOf digest name bytes createdAt (text "postgresql") artifactFormat source metadata))
    (hcommand : restoreCommand target artifactFormat clean compose = .ok command) :
    ∃ plan, planRestore digest dir name target target.database none clean compose dryRun =
      .ok (plan, ⟨command, bytes⟩) := by
  -- a `GzipFile` decompresses what is read through IT, which the tool does not do
  have hdescriptor : (artifactStream bytes artifactFormat).descriptor = bytes := by
    unfold artifactStream
    split
    · rfl
    · rfl
  obtain ⟨manifest, hverified, hformat⟩ := loadAndVerifyManifest_of_written hartifact hmanifest
  unfold planRestore
  rw [if_neg (not_not_intro rfl), hverified]
  simp only [Except.bind, hformat, hcommand, Except.map, hartifact, Option.getD_some, hdescriptor]
  exact ⟨_, rfl⟩

/-- The three ways of writing a dump. -/
theorem artifactPlan_cases {database timestamp dumpFormat name artifactFormat : PyStr} {compress : Bool}
    {gzipOutput : Bool}
    (hplan : artifactPlan database timestamp dumpFormat compress = (name, gzipOutput, artifactFormat)) :
    (dumpFormat = text "custom" ∧ gzipOutput = false ∧ artifactFormat = text "postgresql_custom") ∨
      (dumpFormat ≠ text "custom" ∧ compress = true ∧ gzipOutput = true ∧
        artifactFormat = text "postgresql_plain_gzip") ∨
      (dumpFormat ≠ text "custom" ∧ compress = false ∧ gzipOutput = false ∧
        artifactFormat = text "postgresql_plain") := by
  unfold artifactPlan at hplan
  dsimp only at hplan
  split at hplan
  · rename_i hcustom
    cases hplan
    exact .inl ⟨hcustom, rfl, rfl⟩
  split at hplan
  · rename_i hplain hcompress
    cases hplan
    exact .inr (.inl ⟨hplain, hcompress, rfl, rfl⟩)
  · rename_i hplain hcompress
    cases hplan
    exact .inr (.inr ⟨hplain, Bool.eq_false_iff.mpr hcompress, rfl, rfl⟩)

/-- A format that the writer gives has a tool, unless `--clean` is asked of a plain dump. -/
theorem exists_restoreCommand {database timestamp dumpFormat name artifactFormat : PyStr} {compress : Bool}
    {gzipOutput : Bool}
    (hplan : artifactPlan database timestamp dumpFormat compress = (name, gzipOutput, artifactFormat))
    (target : PostgresTarget) {clean : Bool} (hclean : clean = true → dumpFormat = text "custom")
    (compose : Option Compose) :
    ∃ command, restoreCommand target artifactFormat clean compose = .ok command := by
  have hplain : ∀ artifactFormat, artifactFormat ≠ text "postgresql_custom" →
      artifactFormat ∈ postgresPlainFormats → clean = false →
        ∃ command, restoreCommand target artifactFormat clean compose = .ok command := by
    intro artifactFormat hcustom hmem hnotClean
    unfold restoreCommand
    rw [if_neg hcustom, if_pos hmem, hnotClean]
    exact ⟨_, rfl⟩
  have hnotClean : dumpFormat ≠ text "custom" → clean = false := fun hne =>
    Bool.eq_false_iff.mpr fun h => hne (hclean h)
  rcases artifactPlan_cases hplan with ⟨-, -, rfl⟩ | ⟨hne, -, -, rfl⟩ | ⟨hne, -, -, rfl⟩
  · unfold restoreCommand
    rw [if_pos rfl]
    exact ⟨_, rfl⟩
  · exact hplain _ (by decide) (by decide) (hnotClean hne)
  · exact hplain _ (by decide) (by decide) (hnotClean hne)

/-- Only a plain dump goes through gzip. -/
theorem gzipOutput_iff {database timestamp dumpFormat name artifactFormat : PyStr} {compress : Bool}
    {gzipOutput : Bool} (hformat : dumpFormat ∈ supportedPostgresFormats)
    (hplan : artifactPlan database timestamp dumpFormat compress = (name, gzipOutput, artifactFormat)) :
    gzipOutput = true ↔ dumpFormat = text "plain" ∧ compress = true := by
  have hother : text "custom" ≠ text "plain" := by decide
  have hplain : dumpFormat ≠ text "custom" → dumpFormat = text "plain" := by
    intro hne
    rcases List.mem_cons.mp hformat with heq | hmem
    · exact absurd heq hne
    · exact List.mem_singleton.mp hmem
  rcases artifactPlan_cases hplan with ⟨rfl, rfl, -⟩ | ⟨hne, rfl, rfl, -⟩ | ⟨hne, rfl, rfl, -⟩
  · simp [hother]
  · simp [hplain hne]
  · simp

/-- An artifact holds exactly the dump if no `GzipFile` writes into it. -/
theorem artifactBytes_eq_iff (gzipOutput : Bool) (mtime : Bytes) (name : PyStr) (dump : Bytes) :
    artifactBytes gzipOutput mtime name dump = dump ↔ gzipOutput = false := by
  unfold artifactBytes Output.close Output.childWrites openOutput
  cases gzipOutput with
  | false => simp
  | true => simp [gzipTrailer]

/-- **When a dump comes back**: a backup is restored by feeding the tool the dump itself, exactly if it is
    not a plain one that is compressed. -/
theorem backup_roundtrip_iff (digest : FileDigest) (dir : BackupDirectory) (target : PostgresTarget)
    (compress : Bool) (dumpFormat : PyStr) (hformat : dumpFormat ∈ supportedPostgresFormats)
    (compose : Option Compose) (timestamp createdAt : PyStr) (mtime dump : Bytes)
    (hfree : Free dir (artifactPlan target.database timestamp dumpFormat compress).1)
    (restoreTarget : PostgresTarget) (clean : Bool) (hclean : clean = true → dumpFormat = text "custom")
    (restoreCompose : Option Compose) (tool : Child) (htool : tool.starts = true) :
    ∃ dir' name started,
      backupPostgresqlTarget digest dir target compress dumpFormat compose timestamp createdAt mtime
        ⟨true, dump, 0⟩ = .ok (dir', name) ∧
      (restorePostgresql digest dir' name restoreTarget restoreTarget.database none clean restoreCompose false
        tool).1 = some started ∧
      (started.stdin = dump ↔ ¬ (dumpFormat = text "plain" ∧ compress = true)) := by
  obtain ⟨name, gzipOutput, artifactFormat, hplan⟩ : ∃ name gzipOutput artifactFormat,
      artifactPlan target.database timestamp dumpFormat compress = (name, gzipOutput, artifactFormat) :=
    ⟨_, _, _, rfl⟩
  rw [hplan] at hfree
  obtain ⟨dir', hbackup, hartifact, hmanifest⟩ :=
    backup_leaves digest compose createdAt mtime dump hformat hplan hfree
  obtain ⟨command, hcommand⟩ := exists_restoreCommand hplan restoreTarget hclean restoreCompose
  obtain ⟨plan, hrestore⟩ := planRestore_of_written false hartifact hmanifest hcommand
  refine ⟨dir', name, ⟨command, artifactBytes gzipOutput mtime name dump⟩, hbackup, ?_, ?_⟩
  · unfold restorePostgresql
    rw [hrestore]
    by_cases hcode : tool.returncode = 0
    · simp [htool, hcode]
    · simp [htool, hcode]
  · rw [artifactBytes_eq_iff, ← Bool.not_eq_true, gzipOutput_iff hformat hplan]

end Manifest

/-! ## Two dumps -/

/-- `PGDMP`, and `SELECT 1;`. -/
def customDump : Bytes := [80, 71, 68, 77, 80]
def plainDump : Bytes := [83, 69, 76, 69, 67, 84, 32, 49, 59]

/-- SHA-256 of the first one, and zeros for every other file. -/
def sampleDigest : FileDigest where
  hexdigest bytes :=
    if bytes = customDump then text "b5a26a21290c39819235a235b8ed66b3bd98ed90c8316c8949bfbb7419cac878"
    else List.replicate 64 '0'.codePoint
  length bytes := by
    split
    · decide
    · exact List.length_replicate
  lower bytes c hc := by
    split at hc
    · have hall : (text "b5a26a21290c39819235a235b8ed66b3bd98ed90c8316c8949bfbb7419cac878").all
          (fun c => decide (¬ (65 ≤ c.val ∧ c.val ≤ 90))) = true := by decide
      exact of_decide_eq_true (List.all_eq_true.mp hall c hc)
    · rw [List.eq_of_mem_replicate hc]
      decide

def emptyDirectory : BackupDirectory := ⟨.empty, .empty⟩

def sampleTarget : PostgresTarget := ⟨text "db", 5432, text "financial", text "financial_rag", []⟩

theorem backup_roundtrip_custom :
    ∃ dir' name started,
      backupPostgresqlTarget sampleDigest emptyDirectory sampleTarget true (text "custom") none
        (text "20260105_090000_000000") (text "2026-01-05T09:00:00+00:00") [0, 0, 0, 0]
        ⟨true, customDump, 0⟩ = .ok (dir', name) ∧
      (restorePostgresql sampleDigest dir' name sampleTarget sampleTarget.database none true none false
        ⟨true, [], 0⟩).1 = some started ∧
      (started.stdin = customDump ↔ ¬ (text "custom" = text "plain" ∧ true = true)) :=
  backup_roundtrip_iff sampleDigest emptyDirectory sampleTarget true (text "custom") (by decide) none
    (text "20260105_090000_000000") (text "2026-01-05T09:00:00+00:00") [0, 0, 0, 0] customDump ⟨rfl, rfl⟩
    sampleTarget true (fun _ => rfl) none ⟨true, [], 0⟩ rfl

/-- What the tool is fed after a plain dump was backed up with compression. -/
def restoredPlain : Option Bytes :=
  (backupPostgresqlTarget sampleDigest emptyDirectory sampleTarget true (text "plain") none
    (text "20260105_090000_000000") (text "2026-01-05T09:00:00+00:00") [0, 0, 0, 0]
    ⟨true, plainDump, 0⟩).toOption.bind fun left =>
      (restorePostgresql sampleDigest left.1 left.2 sampleTarget sampleTarget.database none false none false
        ⟨true, [], 0⟩).1.map Started.stdin

/-- The header and the end of a gzip file stand behind the dump, which was not compressed. -/
theorem plain_gzip_feeds_more :
    restoredPlain = some (plainDump ++ gzipHeader [0, 0, 0, 0]
        (text ".backup_financial_rag_20260105_090000_000000.sql.gz.partial") ++ gzipTrailer) ∧
      restoredPlain ≠ some plainDump := by
  have hrestored : restoredPlain = some (plainDump ++ gzipHeader [0, 0, 0, 0]
      (text ".backup_financial_rag_20260105_090000_000000.sql.gz.partial") ++ gzipTrailer) := by
    decide +kernel
  rw [hrestored]
  exact ⟨rfl, by decide +kernel⟩

end FinancialRag.Scripts
