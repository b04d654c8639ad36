/-
  Staging a document's upload directories (`api/routers/knowledge.py`) in a file system as POSIX has it.

  Every directory is renamed to a `.deleting-` name with a random part.  A rename that fails ends the loop, and the
  renames that were made are taken back, last one first, where the staged name exists and the original does not.
  `os.rename` is not symmetric to that check: a directory takes the place of an EMPTY directory without an error.

  `StagesTo` is what the loop has done so far.  Taking it back leads to exactly the tree of the beginning
  (`restore_of_stagesTo`), for whatever stands under other names, also under a name that was to be taken
  (`staging_all_or_nothing`); that a random part is not that of an earlier empty directory is all that is asked of it.
-/
import FinancialRag.Lib.Directory
import FinancialRag.Lib.PyList
import FinancialRag.Lib.PyStr

set_option linter.unusedVariables false

namespace FinancialRag.Api.Staging

/-! ## The file system -/

inductive Node where
  | file (content : List UInt8)
  | link (target : String)
  | directory (entries : List (String × Node))

def Node.isDirectory : Node → Bool
  | .directory _ => true
  | _ => false

/-- What `os.rename` lets take the place of what. -/
def Node.replaces : Node → Node → Bool
  | .directory _, .directory entries => entries.isEmpty
  | .directory _, _ => false
  | _, .directory _ => false
  | _, _ => true

/-- `UPLOAD_DIR / str(tenant_id)` -/
abbrev TenantRoot := Directory Node

/-- `os.rename`; `none` is an `OSError`. -/
def rename (root : TenantRoot) (old new : String) : Option TenantRoot := root.renameOver Node.replaces old new

/-- `Path.exists`; `resolves` tells which targets a link finds. -/
def pathExists (resolves : String → Bool) (root : TenantRoot) (name : String) : Bool :=
  match root.get name with
  | none => false
  | some (.link target) => resolves target
  | some _ => true

/-! ## The functions -/

/-- `_upload_directories`: links are left out, and what is not a link resolves to itself. -/
def uploadDirectories (root : TenantRoot) (documentId : Int) : List String :=
  PyList.sorted (fun a b => decide (a < b))
    ((root.entries.filter fun e =>
      e.2.isDirectory && (s!"{documentId}-").toList.isPrefixOf e.1.toList).map Prod.fst)

def stagedName (documentId : Int) (hex : String) : String := s!".deleting-{documentId}-{hex}"

variable (resolves : String → Bool)

/-- `_restore_upload_directories`, over the reversed list; an error is an `OSError`, with the tree it leaves. -/
def restoreReversed : List (String × String) → TenantRoot → Except TenantRoot TenantRoot
  | [], root => .ok root
  | (original, stagedPath) :: rest, root =>
    if pathExists resolves root stagedPath && !pathExists resolves root original then
      match rename root stagedPath original with
      | none => .error root
      | some root' => restoreReversed rest root'
    else restoreReversed rest root

def restoreUploadDirectories (staged : List (String × String)) (root : TenantRoot) :
    Except TenantRoot TenantRoot := restoreReversed resolves staged.reverse root

/-- The tree after an attempt to restore it. -/
def treeOf : Except TenantRoot TenantRoot → TenantRoot
  | .ok root => root
  | .error root => root

variable (uuid4 : Nat → String) (fails : Nat → Bool) (documentId : Int)

/-- The loop of `_stage_upload_directories`, where some renames fail on their own. -/
def stageLoop : List String → List (String × String) → TenantRoot →
    Except TenantRoot (List (String × String) × TenantRoot)
  | [], staged, root => .ok (staged, root)
  | original :: rest, staged, root =>
    let stagedPath := stagedName documentId (uuid4 staged.length)
    if fails staged.length then .error (treeOf (restoreUploadDirectories resolves staged root))
    else
      match rename root original stagedPath with
      | none => .error (treeOf (restoreUploadDirectories resolves staged root))
      | some root' => stageLoop rest (staged ++ [(original, stagedPath)]) root'

/-- `_stage_upload_directories`; an error is an `OSError`, with the tree it leaves. -/
def stageUploadDirectories (directories : List String) (root : TenantRoot) :
    Except TenantRoot (List (String × String) × TenantRoot) :=
  stageLoop resolves uuid4 fails documentId directories [] root

/-! ## What the loop has done -/

/-- Directories have been renamed to names that were free. -/
inductive StagesTo (start : TenantRoot) : List (String × String) → TenantRoot → Prop
  | nil : StagesTo start [] start
  | snoc {staged : List (String × String)} {root root' : TenantRoot} {original stagedPath : String} :
      StagesTo start staged root → (root.get original).any Node.isDirectory = true →
      root.rename original stagedPath = some root' → StagesTo start (staged ++ [(original, stagedPath)]) root'

variable {resolves uuid4 fails documentId}

theorem pathExists_of_directory {root : TenantRoot} {name : String}
    (h : (root.get name).any Node.isDirectory = true) : pathExists resolves root name = true := by
  unfold pathExists
  cases hget : root.get name with
  | none =>
    rw [hget] at h
    cases h
  | some node =>
    cases node with
    | file content => rfl
    | directory entries => rfl
    | link target =>
      rw [hget] at h
      cases h

theorem pathExists_of_none {root : TenantRoot} {name : String} (h : root.get name = none) :
    pathExists resolves root name = false := by
  unfold pathExists
  rw [h]

/-- The last rename can be taken back, and the check lets it. -/
theorem restoreReversed_rename {root root' : TenantRoot} {original stagedPath : String}
    (hdirectory : (root.get original).any Node.isDirectory = true)
    (hrename : root.rename original stagedPath = some root') (rest : List (String × String)) :
    restoreReversed resolves ((original, stagedPath) :: rest) root' = restoreReversed resolves rest root := by
  obtain ⟨hold, hnew, -⟩ := Directory.rename_eq_some.mp hrename
  have hne : original ≠ stagedPath := fun heq => hnew (heq ▸ hold)
  have hgone : root'.get original = none := by rw [Directory.get_rename hrename, if_neg hne, if_pos rfl]
  have hthere : root'.get stagedPath = root.get original := by rw [Directory.get_rename hrename, if_pos rfl]
  have hback : rename root' stagedPath original = some root :=
    (Directory.renameOver_of_free (Directory.get_eq_none_iff.mp hgone)).trans (Directory.rename_back hrename)
  rw [restoreReversed, pathExists_of_directory (hthere ▸ hdirectory), pathExists_of_none hgone, hback]
  rfl

/-- **What the loop has done can be taken back.** -/
theorem restore_of_stagesTo {start root : TenantRoot} {staged : List (String × String)}
    (h : StagesTo start staged root) : restoreUploadDirectories resolves staged root = .ok start := by
  unfold restoreUploadDirectories
  induction h with
  | nil => rfl
  | snoc _ hdirectory hrename ih =>
    rw [List.reverse_append, List.reverse_singleton, List.singleton_append, restoreReversed_rename hdirectory hrename]
    exact ih

/-! ## What staging leaves -/

/-- The directories stand under new names, and all else is as it was. -/
structure Staged (documentId : Int) (start : TenantRoot) (staged : List (String × String)) (root : TenantRoot) :
    Prop where
  fresh : ∀ move ∈ staged, move.2 ∉ start.names ∧ ∃ hex, move.2 = stagedName documentId hex
  distinct : (staged.map Prod.snd).Nodup
  moved : ∀ move ∈ staged, root.get move.2 = start.get move.1
  gone : ∀ move ∈ staged, root.get move.1 = none
  rest : ∀ name, name ∉ staged.map Prod.fst → name ∉ staged.map Prod.snd → root.get name = start.get name

/-- A name of a directory of the document does not start with a dot. -/
theorem ne_stagedName {root : TenantRoot} {documentId : Int} {name : String}
    (h : name ∈ uploadDirectories root documentId) (hex : String) : name ≠ stagedName documentId hex := by
  rintro rfl
  rw [uploadDirectories, PyList.mem_sorted] at h
  obtain ⟨e, he, hname⟩ := List.mem_map.mp h
  obtain ⟨rest, hrest⟩ := List.isPrefixOf_iff_prefix.mp (Bool.and_eq_true_iff.mp (List.mem_filter.mp he).2).2
  have hsplit : (s!"{documentId}-").toList = (toString documentId).toList ++ ['-'] := String.toList_append
  have hdot : (stagedName documentId hex).toList.head? = some '.' := by
    show (".deleting-" ++ toString documentId ++ "-" ++ hex).toList.head? = some '.'
    rw [String.toList_append, String.toList_append, String.toList_append]
    rfl
  rw [← hname, ← hrest, hsplit, List.append_assoc] at hdot
  cases hdigits : (toString documentId).toList with
  | nil =>
    rw [hdigits] at hdot
    exact absurd (Option.some.inj hdot) (by decide)
  | cons c digits =>
    rw [hdigits] at hdot
    obtain rfl : c = '.' := Option.some.inj hdot
    have hmem : '.'.codePoint ∈ PyStr.ofInt documentId :=
      List.mem_map_of_mem (by rw [hdigits]; exact List.mem_cons_self)
    exact PyStr.notMem_ofInt (by decide) (by decide) documentId hmem

theorem isDirectory_of_mem {root : TenantRoot} {documentId : Int} {name : String}
    (h : name ∈ uploadDirectories root documentId) : (root.get name).any Node.isDirectory = true := by
  rw [uploadDirectories, PyList.mem_sorted] at h
  obtain ⟨⟨name', node⟩, he, rfl⟩ := List.mem_map.mp h
  obtain ⟨hmem, htest⟩ := List.mem_filter.mp he
  rw [Directory.get_eq_some_iff.mpr hmem]
  exact (Bool.and_eq_true_iff.mp htest).1

theorem stagedName_injective {documentId : Int} {hex hex' : String}
    (h : stagedName documentId hex = stagedName documentId hex') : hex = hex' :=
  String.append_right_inj _ |>.mp h

/-- The random parts that are drawn differ, and none makes the name of a directory that is there and empty. -/
structure Draws (uuid4 : Nat → String) (count : Nat) (documentId : Int) (start : TenantRoot) : Prop where
  distinct : ∀ i < count, ∀ j < count, uuid4 i = uuid4 j → i = j
  notEmpty : ∀ i < count, start.get (stagedName documentId (uuid4 i)) ≠ some (.directory [])

/-- What the loop keeps: the names that were taken are the first ones that were drawn. -/
structure Progress (uuid4 : Nat → String) (documentId : Int) (start : TenantRoot) (staged : List (String × String))
    (root : TenantRoot) : Prop where
  stages : StagesTo start staged root
  leaves : Staged documentId start staged root
  names : staged.map Prod.snd = (List.range staged.length).map fun i => stagedName documentId (uuid4 i)
  originals : ∀ move ∈ staged, move.1 ∈ uploadDirectories start documentId

section Loop

variable {start root root' : TenantRoot} {staged : List (String × String)} {original : String} {count : Nat}

theorem Progress.mem_names_iff (h : Progress uuid4 documentId start staged root) {name : String} :
    name ∈ staged.map Prod.snd ↔ ∃ i < staged.length, stagedName documentId (uuid4 i) = name := by
  rw [h.names, List.mem_map]
  exact exists_congr fun i => and_congr_left fun _ => List.mem_range

/-- The next name has not been taken. -/
theorem Progress.next_notMem (h : Progress uuid4 documentId start staged root)
    (hdraws : Draws uuid4 count documentId start) (hcount : staged.length < count) :
    stagedName documentId (uuid4 staged.length) ∉ staged.map Prod.snd := by
  rw [h.mem_names_iff]
  rintro ⟨i, hi, heq⟩
  exact absurd (hdraws.distinct i (hi.trans hcount) _ hcount (stagedName_injective heq)) hi.ne

/-- Under the next name stands what stood there in the beginning. -/
theorem Progress.get_next (h : Progress uuid4 documentId start staged root)
    (hdraws : Draws uuid4 count documentId start) (hcount : staged.length < count) :
    root.get (stagedName documentId (uuid4 staged.length)) =
      start.get (stagedName documentId (uuid4 staged.length)) := by
  refine h.leaves.rest _ ?_ (h.next_notMem hdraws hcount)
  intro hmem
  obtain ⟨move, hmove, heq⟩ := List.mem_map.mp hmem
  exact ne_stagedName (h.originals move hmove) _ heq

/-- A directory of the document stands under its name, or has been renamed. -/
theorem Progress.get_original (h : Progress uuid4 documentId start staged root)
    (horiginal : original ∈ uploadDirectories start documentId) :
    root.get original = none ∨
      (root.get original = start.get original ∧ original ∉ staged.map Prod.fst) := by
  by_cases hmem : original ∈ staged.map Prod.fst
  · obtain ⟨move, hmove, rfl⟩ := List.mem_map.mp hmem
    exact Or.inl (h.leaves.gone move hmove)
  · refine Or.inr ⟨h.leaves.rest original hmem ?_, hmem⟩
    rw [h.mem_names_iff]
    rintro ⟨i, -, heq⟩
    exact ne_stagedName horiginal _ heq.symm

/-- **A rename that succeeds is one to a free name.** -/
theorem Progress.rename_free (h : Progress uuid4 documentId start staged root)
    (hdraws : Draws uuid4 count documentId start) (hcount : staged.length < count)
    (horiginal : original ∈ uploadDirectories start documentId)
    (hrename : rename root original (stagedName documentId (uuid4 staged.length)) = some root') :
    root.rename original (stagedName documentId (uuid4 staged.length)) = some root' ∧
      root.get original = start.get original ∧ original ∉ staged.map Prod.fst := by
  have hthere : root.get original = start.get original ∧ original ∉ staged.map Prod.fst := by
    refine (h.get_original horiginal).resolve_left fun hnone => ?_
    unfold rename Directory.renameOver at hrename
    rw [hnone] at hrename
    cases hrename
  refine ⟨?_, hthere⟩
  by_cases hfree : stagedName documentId (uuid4 staged.length) ∈ root.names
  · -- a directory takes the place of nothing but an empty directory
    exfalso
    obtain ⟨node, hnode⟩ := Directory.mem_names_iff.mp hfree
    have hstart := (h.get_next hdraws hcount).symm.trans hnode
    have hdirectory := isDirectory_of_mem horiginal
    rw [← hthere.1] at hdirectory
    unfold rename Directory.renameOver at hrename
    cases hget : root.get original with
    | none =>
      rw [hget] at hdirectory
      cases hdirectory
    | some moved =>
      cases moved with
      | file content => rw [hget] at hdirectory; cases hdirectory
      | link target => rw [hget] at hdirectory; cases hdirectory
      | directory entries =>
        simp only [hget, hnode, if_neg (ne_stagedName horiginal _)] at hrename
        split at hrename
        · rename_i hreplaces
          cases node with
          | file content => cases hreplaces
          | link target => cases hreplaces
          | directory others =>
            obtain rfl := List.isEmpty_iff.mp hreplaces
            exact hdraws.notEmpty _ hcount hstart
        · cases hrename
  · rwa [rename, Directory.renameOver_of_free hfree] at hrename

theorem Staged.snoc {stagedPath hex : String} (h : Staged documentId start staged root)
    (hrename : root.rename original stagedPath = some root') (hname : stagedPath = stagedName documentId hex)
    (hfresh : stagedPath ∉ start.names) (hnew : stagedPath ∉ staged.map Prod.snd)
    (hsame : root.get original = start.get original) (horiginal : original ∉ staged.map Prod.fst)
    (hgone : ∀ move ∈ staged, move.1 ≠ stagedPath) (htaken : original ∉ staged.map Prod.snd)
    (hne : original ≠ stagedPath) : Staged documentId start (staged ++ [(original, stagedPath)]) root' where
  fresh := by
    intro move hmove
    obtain hmove | hmove := List.mem_append.mp hmove
    · exact h.fresh move hmove
    · obtain rfl := List.mem_singleton.mp hmove
      exact ⟨hfresh, hex, hname⟩
  distinct := by
    rw [List.map_append, List.map_cons, List.map_nil]
    exact List.nodup_append_comm.mp (List.nodup_cons.mpr ⟨hnew, h.distinct⟩)
  moved := by
    intro move hmove
    obtain hmove | hmove := List.mem_append.mp hmove
    · -- an earlier name is neither the one that was taken now nor the directory that was moved
      have htwo := List.mem_map_of_mem (f := Prod.snd) hmove
      have hother : move.2 ≠ stagedPath := fun heq => hnew (heq ▸ htwo)
      have hother' : move.2 ≠ original := fun heq => htaken (heq ▸ htwo)
      rw [Directory.get_rename hrename, if_neg hother, if_neg hother']
      exact h.moved move hmove
    · obtain rfl := List.mem_singleton.mp hmove
      rw [Directory.get_rename hrename, if_pos rfl]
      exact hsame
  gone := by
    intro move hmove
    obtain hmove | hmove := List.mem_append.mp hmove
    · have hone := List.mem_map_of_mem (f := Prod.fst) hmove
      have hother : move.1 ≠ original := fun heq => horiginal (heq ▸ hone)
      rw [Directory.get_rename hrename, if_neg (hgone move hmove), if_neg hother]
      exact h.gone move hmove
    · obtain rfl := List.mem_singleton.mp hmove
      rw [Directory.get_rename hrename, if_neg hne, if_pos rfl]
  rest := by
    intro name hone htwo
    rw [List.map_append, List.mem_append, not_or] at hone htwo
    have hother : name ≠ original := fun heq => hone.2 (List.mem_singleton.mpr heq)
    have hother' : name ≠ stagedPath := fun heq => htwo.2 (List.mem_singleton.mpr heq)
    rw [Directory.get_rename hrename, if_neg hother', if_neg hother]
    exact h.rest name hone.1 htwo.1

/-- **A pass of the loop.** -/
theorem Progress.snoc (h : Progress uuid4 documentId start staged root)
    (hdraws : Draws uuid4 count documentId start) (hcount : staged.length < count)
    (horiginal : original ∈ uploadDirectories start documentId)
    (hrename : rename root original (stagedName documentId (uuid4 staged.length)) = some root') :
    Progress uuid4 documentId start
      (staged ++ [(original, stagedName documentId (uuid4 staged.length))]) root' := by
  obtain ⟨hfree, hsame, hnotMoved⟩ := h.rename_free hdraws hcount horiginal hrename
  have hdirectory : (root.get original).any Node.isDirectory = true := hsame ▸ isDirectory_of_mem horiginal
  have hfresh : stagedName documentId (uuid4 staged.length) ∉ start.names := by
    obtain ⟨-, hnew, -⟩ := Directory.rename_eq_some.mp hfree
    rw [← Directory.get_eq_none_iff] at hnew ⊢
    exact (h.get_next hdraws hcount).symm.trans hnew
  have htaken : original ∉ staged.map Prod.snd := by
    rw [h.mem_names_iff]
    rintro ⟨i, -, heq⟩
    exact ne_stagedName horiginal _ heq.symm
  refine ⟨h.stages.snoc hdirectory hfree, ?_, ?_, ?_⟩
  · exact h.leaves.snoc hfree rfl hfresh (h.next_notMem hdraws hcount) hsame hnotMoved
      (fun move hmove => ne_stagedName (h.originals move hmove) _) htaken (ne_stagedName horiginal _)
  · rw [List.map_append, h.names, List.length_append, List.length_singleton, List.range_succ, List.map_append]
    rfl
  · intro move hmove
    obtain hmove | hmove := List.mem_append.mp hmove
    · exact h.originals move hmove
    · obtain rfl := List.mem_singleton.mp hmove
      exact horiginal

/-- Whatever the loop still has before it, it ends with every directory staged or with the tree of the beginning. -/
theorem stageLoop_cases (resolves : String → Bool) (fails : Nat → Bool)
    (hdraws : Draws uuid4 count documentId start) :
    ∀ (directories : List String) (staged : List (String × String)) (root : TenantRoot),
      Progress uuid4 documentId start staged root → staged.length + directories.length ≤ count →
      (∀ name ∈ directories, name ∈ uploadDirectories start documentId) →
      (∃ staged' root', stageLoop resolves uuid4 fails documentId directories staged root = .ok (staged', root') ∧
        Progress uuid4 documentId start staged' root' ∧
        staged'.map Prod.fst = staged.map Prod.fst ++ directories) ∨
      stageLoop resolves uuid4 fails documentId directories staged root = .error start
  | [], staged, root, h, _, _ => Or.inl ⟨staged, root, rfl, h, (List.append_nil _).symm⟩
  | original :: directories, staged, root, h, hcount, hmem => by
      rw [List.length_cons] at hcount
      have hback : treeOf (restoreUploadDirectories resolves staged root) = start := by
        rw [restore_of_stagesTo h.stages]
        rfl
      by_cases hfails : fails staged.length = true
      · exact Or.inr ((if_pos hfails).trans (congrArg Except.error hback))
      · rw [stageLoop, if_neg hfails]
        cases hrename : rename root original (stagedName documentId (uuid4 staged.length)) with
        | none => exact Or.inr (congrArg Except.error hback)
        | some root' =>
          have hstep := h.snoc hdraws (by omega) (hmem original List.mem_cons_self) hrename
          obtain ⟨staged', final, hok, hprogress, hone⟩ | herror :=
            stageLoop_cases resolves fails hdraws directories _ root' hstep
            (by rw [List.length_append, List.length_singleton]; omega)
            fun name hname => hmem name (List.mem_cons_of_mem _ hname)
          · refine Or.inl ⟨staged', final, hok, hprogress, ?_⟩
            rw [hone, List.map_append, List.append_assoc]
            rfl
          · exact Or.inr herror

end Loop

/-! ## All or nothing -/

/-- **Staging ends with every directory of the list moved to a fresh name and nothing else changed, and then it can be
taken back; or it raises, and the tree is exactly as before.** -/
theorem staging_all_or_nothing (resolves : String → Bool) (uuid4 : Nat → String) (fails : Nat → Bool)
    (documentId : Int) (root : TenantRoot) (directories : List String)
    (hdirectories : ∀ name ∈ directories, name ∈ uploadDirectories root documentId)
    (hdraws : Draws uuid4 directories.length documentId root) :
    (∃ staged root', stageUploadDirectories resolves uuid4 fails documentId directories root = .ok (staged, root') ∧
      staged.map Prod.fst = directories ∧ Staged documentId root staged root' ∧
      restoreUploadDirectories resolves staged root' = .ok root) ∨
    stageUploadDirectories resolves uuid4 fails documentId directories root = .error root := by
  have hstart : Progress uuid4 documentId root [] root :=
    { stages := .nil
      leaves :=
        { fresh := fun move hmove => absurd hmove List.not_mem_nil
          distinct := List.nodup_nil
          moved := fun move hmove => absurd hmove List.not_mem_nil
          gone := fun move hmove => absurd hmove List.not_mem_nil
          rest := fun name _ _ => rfl }
      names := rfl
      originals := fun move hmove => absurd hmove List.not_mem_nil }
  obtain ⟨staged, root', hok, hprogress, hone⟩ | herror :=
    stageLoop_cases resolves fails hdraws directories [] root hstart
      (Nat.zero_add _).le hdirectories
  · exact Or.inl ⟨staged, root', hok, hone, hprogress.leaves, restore_of_stagesTo hprogress.stages⟩
  · exact Or.inr herror

/-- Two directories of document 7 and one of document 70. -/
def sampleRoot : TenantRoot :=
  ⟨[("7-a", .directory [("report.pdf", .file [37, 80, 68, 70])]), ("70-c", .directory []), ("7-b", .directory [])],
    by decide⟩

def sampleHex (i : Nat) : String :=
  if i = 0 then "0f8fad5bd9cb469fa16570867728950e" else "7c9e6679742540de944be07fc1f90ae7"

theorem sampleHex_draws : Draws sampleHex 2 7 sampleRoot where
  distinct := by decide
  notEmpty := by
    intro i hi hget
    have hfree : ∀ i < 2, stagedName 7 (sampleHex i) ∉ sampleRoot.names := by decide
    exact hfree i hi (Directory.mem_names_iff.mpr ⟨_, hget⟩)

/-- With every rename made, and with the second one failing. -/
theorem staging_all_or_nothing_two :
    (∃ staged root', stageUploadDirectories (fun _ => true) sampleHex (fun _ => false) 7 ["7-a", "7-b"] sampleRoot =
        .ok (staged, root') ∧
      staged.map Prod.fst = ["7-a", "7-b"] ∧ Staged 7 sampleRoot staged root' ∧
      restoreUploadDirectories (fun _ => true) staged root' = .ok sampleRoot) ∧
    stageUploadDirectories (fun _ => true) sampleHex (fun i => i == 1) 7 ["7-a", "7-b"] sampleRoot =
      .error sampleRoot := by
  constructor
  · refine (staging_all_or_nothing (fun _ => true) sampleHex (fun _ => false) 7 sampleRoot ["7-a", "7-b"] (by decide)
      sampleHex_draws).resolve_right ?_
    intro herror
    have hok : (stageUploadDirectories (fun _ => true) sampleHex (fun _ => false) 7 ["7-a", "7-b"]
      sampleRoot).toOption.isSome = true := by decide
    rw [herror] at hok
    cases hok
  · refine (staging_all_or_nothing (fun _ => true) sampleHex (fun i => i == 1) 7 sampleRoot ["7-a", "7-b"] (by decide)
      sampleHex_draws).resolve_left ?_
    rintro ⟨staged, root', hok, -⟩
    have herror : (stageUploadDirectories (fun _ => true) sampleHex (fun i => i == 1) 7 ["7-a", "7-b"]
      sampleRoot).toOption.isSome = false := by decide
    rw [hok] at herror
    cases herror

end FinancialRag.Api.Staging
