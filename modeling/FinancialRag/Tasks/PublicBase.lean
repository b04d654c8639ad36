/-
  What is public in the vector store.

  The names of the passages say from which file and which place they are, so upserting a passage that is there
  changes nothing, and refreshes of one folder cannot get into each other's way: whichever deletes last, the
  upsert that completes after it makes the public entries those of the folder (`refresh_exact`).  An upsert
  that stops half-way leaves some of them.
-/
import FinancialRag.Tasks.PublicRefresh

set_option linter.unusedVariables false
set_option linter.unusedSectionVars false

namespace FinancialRag.Tasks

open Machine
open FinancialRag.Storage
open FinancialRag.Api

section PublicEntries

variable {ι κ F : Type} [DecidableEq ι] [DecidableEq κ] [PyFloat F] {T : PyText} {cfg : EmbeddingConfig}

/-! ## The public side of the store -/

/-- The public records, each with the collection it is in. -/
def publicEntries (client : Client F) : List (String × Record F) :=
  client.entries fun r => r.ofTenant publicTenantId

/-- The entries that these documents make. -/
def entriesOf (docs : List (VectorDocument F)) : List (String × Record F) :=
  docs.map fun v => ("financial_reports", v.record)

/-- What a work step does to the store leaves the public entries. -/
theorem publicEntries_apply_private {client : Client F} {change : StoreChange F} (hapart : Apart client)
    (hchange : change.IsPrivate)
    (hother : ∀ first documentId tenantId, change = .clearDocument first documentId tenantId →
      tenantId ≠ publicTenantId) :
    publicEntries (change.apply client) = publicEntries client := by
  cases change with
  | keep => rfl
  | «open» => exact entries_createCollection client _ _
  | clearDocument first documentId tenantId =>
    have hdisjoint : ∀ r : Record F, r.ofTenant publicTenantId = true →
        r.isOf tenantId documentId = false := by
      intro r hr
      rw [Bool.eq_false_iff]
      intro hof
      exact hother first documentId tenantId rfl (ofTenant_unique (Bool.and_eq_true_iff.mp hof).1 hr)
    cases first with
    | none => exact entries_deleteDocument_of_disjoint hdisjoint
    | some n => exact entries_deletePartly_of_disjoint hdisjoint
  | clearPublic => exact hchange.elim
  | add docs =>
    refine entries_addDocuments (fun v hv => (hchange v hv).collection) (fun v hv => (hchange v hv).tenant) ?_
    intro c hc hname r hr v hv hid
    rw [Bool.eq_false_iff]
    intro hpublic
    refine (hchange v hv).name ?_
    rw [← hid]
    refine (hapart c hc hname r hr).mp ?_
    unfold isPrivate
    rw [hpublic]
    rfl

/-- After a delete, or a part of one, there is no public entry that was not there. -/
theorem publicEntries_clearPublic_subset (client : Client F) (first : Option Nat) :
    publicEntries ((StoreChange.clearPublic first).apply client) ⊆ publicEntries client := by
  intro e he
  rw [apply_clearPublic] at he
  obtain ⟨c, hc, hname, hr, hp⟩ := mem_entries.mp he
  obtain ⟨c₀, hc₀, rfl | rfl⟩ := mem_mapFirst hc
  · exact mem_entries.mpr ⟨c, hc₀, hname, hr, hp⟩
  · exact mem_entries.mpr ⟨c₀, hc₀, hname, List.mem_of_mem_filter hr, hp⟩

/-- **A delete leaves no public entry.** -/
theorem publicEntries_clearPublic (client : Client F) :
    publicEntries ((StoreChange.clearPublic none).apply client) = [] := by
  refine entries_eq_nil_iff.mpr ?_
  intro c hc r hr
  obtain ⟨c₀, _, rfl⟩ := List.mem_map.mp hc
  have hkept := (List.mem_filter.mp hr).2
  rwa [Bool.not_eq_true'] at hkept

section Adding

variable {client : Client F} {docs added : List (VectorDocument F)}

/-- Adding documents brings in nothing else. -/
theorem publicEntries_add_subset (hdocs : ∀ v ∈ added, PublicKind v) {e : String × Record F}
    (he : e ∈ publicEntries (addDocuments client added)) :
    e ∈ publicEntries client ∨ e ∈ entriesOf added := by
  rw [addDocuments_eq fun v hv => (hdocs v hv).collection] at he
  split at he
  · exact Or.inl he
  · obtain ⟨c, hc, hname, hr, hp⟩ := mem_entries.mp he
    rcases mem_withCollection hc with hc | ⟨c₀, hc₀, hfound, rfl⟩
    · exact Or.inl (mem_entries.mpr ⟨c, hc, hname, hr, hp⟩)
    · rw [name_upsertAll] at hname
      rcases mem_upsertAll hr with hnew | hold
      · obtain ⟨v, hv, hrecord⟩ := List.mem_map.mp hnew
        refine Or.inr (List.mem_map.mpr ⟨v, hv, ?_⟩)
        exact Prod.ext (hfound.symm.trans hname) hrecord
      · rcases hc₀ with hc₀ | rfl
        · exact Or.inl (mem_entries.mpr ⟨c₀, hc₀, hname, hold, hp⟩)
        · cases hold

/-- The names of these documents say which they are. -/
theorem eq_of_id_eq_of_nodup (hnodup : (docs.map VectorDocument.chunkId).Nodup) {v w : VectorDocument F}
    (hv : v ∈ docs) (hw : w ∈ docs) (hid : v.chunkId = w.chunkId) : v = w :=
  List.inj_on_of_nodup_map hnodup hv hw hid

/-- Adding some of the documents keeps the entries of all of them that are there. -/
theorem mem_publicEntries_add (hdocs : ∀ v ∈ docs, PublicKind v)
    (hnodup : (docs.map VectorDocument.chunkId).Nodup) (hsome : ∀ v ∈ added, v ∈ docs)
    {e : String × Record F} (hmem : e ∈ entriesOf docs) (he : e ∈ publicEntries client) :
    e ∈ publicEntries (addDocuments client added) := by
  obtain ⟨v, hv, rfl⟩ := List.mem_map.mp hmem
  rw [addDocuments_eq fun v hv => (hdocs v (hsome v hv)).collection]
  split
  · exact he
  · obtain ⟨c, hc, hname, hr, hp⟩ := mem_entries.mp he
    have hany : client.collections.any (·.name == "financial_reports") = true :=
      List.any_eq_true.mpr ⟨c, hc, beq_iff_eq.mpr hname⟩
    refine mem_entries.mpr ⟨c.upsertAll (added.map VectorDocument.record), ?_, ?_, ?_, hp⟩
    · unfold Client.withCollection
      rw [if_pos hany]
      refine List.mem_map.mpr ⟨c, hc, ?_⟩
      rw [if_pos (beq_iff_eq.mpr hname)]
    · rw [name_upsertAll, hname]
    · refine mem_upsertAll_of_mem hr ?_
      intro x hx hid
      obtain ⟨w, hw, rfl⟩ := List.mem_map.mp hx
      rw [eq_of_id_eq_of_nodup hnodup hv (hsome w hw) hid]

/-- **Adding all of the documents brings in an entry for each.** -/
theorem mem_publicEntries_added (hdocs : ∀ v ∈ docs, PublicKind v)
    (hnodup : (docs.map VectorDocument.chunkId).Nodup) {e : String × Record F} (hmem : e ∈ entriesOf docs) :
    e ∈ publicEntries (addDocuments client docs) := by
  obtain ⟨v, hv, rfl⟩ := List.mem_map.mp hmem
  rw [addDocuments_eq fun v hv => (hdocs v hv).collection, if_neg (List.ne_nil_of_mem hv)]
  have hkept : ∀ c : Collection F, v.record ∈ (c.upsertAll (docs.map VectorDocument.record)).records := by
    intro c
    refine mem_upsertAll_new (List.mem_map_of_mem hv) ?_
    intro x hx hid
    obtain ⟨w, hw, rfl⟩ := List.mem_map.mp hx
    rw [eq_of_id_eq_of_nodup hnodup hv hw hid]
  obtain ⟨c₀, hc₀, hname⟩ : ∃ c₀ : Collection F, c₀.upsertAll (docs.map VectorDocument.record) ∈
      (client.withCollection "financial_reports"
        (·.upsertAll (docs.map VectorDocument.record))).collections ∧
      c₀.name = "financial_reports" := exists_mem_withCollection
  exact mem_entries.mpr ⟨_, hc₀, (name_upsertAll c₀ _).trans hname, hkept c₀, (hdocs v hv).tenant⟩

end Adding

/-! ## The passages of a folder -/

/-- Where a passage is from. -/
def PublicChunk.key (chunk : PublicChunk) : String × Nat := (chunk.contentSha256, chunk.chunkId)

/-- The files of a folder differ in content, and the passages of each are numbered. -/
structure Distinct (folder : List PublicFile) : Prop where
  contents : (folder.map PublicFile.contentSha256).Nodup
  positions : ∀ file ∈ folder, ∀ chunks, file.chunks = .ok chunks →
    (chunks.map DocumentChunk.chunkIndex).Nodup

theorem keys_publicChunks {file : PublicFile} {part : List PublicChunk} (h : publicChunks T file = .ok part) :
    ∃ chunks, file.chunks = .ok chunks ∧
      part.map PublicChunk.key = (chunks.map DocumentChunk.chunkIndex).map (file.contentSha256, ·) := by
  unfold publicChunks at h
  cases hchunks : file.chunks with
  | error error =>
    rw [hchunks] at h
    cases h
  | ok chunks =>
    rw [hchunks] at h
    obtain rfl := Except.ok.inj h
    refine ⟨chunks, rfl, ?_⟩
    rw [List.map_map, List.map_map]
    rfl

/-- The keys of some files' passages are from these files. -/
theorem fst_mem_of_mem_keys {files : List PublicFile} {parts : List (List PublicChunk)}
    (h : List.Forall₂ (fun file part => publicChunks T file = .ok part) files parts)
    {key : String × Nat} (hkey : key ∈ parts.flatten.map PublicChunk.key) :
    key.1 ∈ files.map PublicFile.contentSha256 := by
  induction h with
  | nil => cases hkey
  | cons hpart _ ih =>
    obtain ⟨cs, _, hkeys⟩ := keys_publicChunks hpart
    rw [List.flatten_cons, List.map_append, hkeys] at hkey
    rcases List.mem_append.mp hkey with hkey | hkey
    · obtain ⟨_, _, rfl⟩ := List.mem_map.mp hkey
      exact List.mem_cons_self
    · exact List.mem_cons_of_mem _ (ih hkey)

/-- **Every passage of the folder has a name of its own.** -/
theorem nodup_keys {folder : List PublicFile} (hfolder : Distinct folder) {chunks : List PublicChunk}
    (h : loadDocuments T folder = .ok chunks) : (chunks.map PublicChunk.key).Nodup := by
  obtain ⟨parts, hparts, hflatten⟩ := PyList.bind_eq_ok.mp h
  obtain rfl := Except.ok.inj hflatten
  have hsorted : ((pdfFiles T folder).map PublicFile.contentSha256).Nodup := by
    have hperm := (PyList.sorted_perm (fun a b => decide (a.name < b.name)) (folder.filter fun file =>
      file.isFile && T.casefold (pathSuffix file.name) == ".pdf")).map PublicFile.contentSha256
    exact hperm.nodup_iff.mpr (hfolder.contents.sublist (List.filter_sublist.map _))
  have hfiles : ∀ file ∈ pdfFiles T folder, file ∈ folder := fun file hfile =>
    List.mem_of_mem_filter ((PyList.sorted_perm _ _).mem_iff.mp hfile)
  have hforall := PyList.forall₂_of_mapM_eq_ok hparts
  generalize pdfFiles T folder = files at hsorted hfiles hforall
  clear hparts h hflatten
  induction hforall with
  | nil => exact List.nodup_nil
  | @cons file part files parts hpart hrest ih =>
    obtain ⟨cs, hcs, hkeys⟩ := keys_publicChunks hpart
    rw [List.map_cons, List.nodup_cons] at hsorted
    rw [List.flatten_cons, List.map_append, hkeys]
    refine List.nodup_append.mpr ⟨?_, ih hsorted.2 fun f hf => hfiles f (List.mem_cons_of_mem _ hf), ?_⟩
    · exact (hfolder.positions file (hfiles file List.mem_cons_self) cs hcs).map
        fun i j hij => (Prod.mk.inj hij).2
    · rintro key hkey _ hkey' rfl
      obtain ⟨_, _, rfl⟩ := List.mem_map.mp hkey
      exact hsorted.1 (fst_mem_of_mem_keys hrest hkey')

/-- The documents made of them too. -/
theorem nodup_publicDocuments {chunks : List PublicChunk} (hkeys : (chunks.map PublicChunk.key).Nodup)
    (rows : List (List F)) :
    ((publicDocuments cfg chunks rows).map VectorDocument.chunkId).Nodup := by
  have hsublist : ((publicDocuments cfg chunks rows).map VectorDocument.chunkId).Sublist
      (chunks.map fun chunk => publicChunkId chunk.contentSha256 chunk.chunkId) := by
    unfold publicDocuments
    clear hkeys
    induction chunks generalizing rows with
    | nil => exact List.nil_sublist _
    | cons chunk chunks ih =>
      cases rows with
      | nil => exact List.nil_sublist _
      | cons row rows => exact (ih rows).cons_cons _
  refine List.Nodup.sublist hsublist ?_
  rw [show (chunks.map fun chunk => publicChunkId chunk.contentSha256 chunk.chunkId) =
    (chunks.map PublicChunk.key).map fun key => publicChunkId key.1 key.2 from by rw [List.map_map]; rfl]
  refine hkeys.map ?_
  intro key key' hname
  obtain ⟨hsha, hindex⟩ := publicChunkId_inj hname
  exact Prod.ext hsha hindex

/-! ## Refreshes of one folder -/

variable {folder : List PublicFile} {rows : List (List F)} {chunks : List PublicChunk}

/-- The refreshes find this folder, and compute these rows for its passages. -/
def OfFolder (folder : List PublicFile) (rows : List (List F)) (s : Shared ι κ F)
    (e : SharedEvent ι κ F) : Prop :=
  PrivateWork s e ∧
    match e with
    | .refresh _ (.lists found) => found = folder
    | .refresh _ (.embeds computed) => computed = rows
    | _ => True

/-- No refresh deletes. -/
def NoDelete (s : Shared ι κ F) : SharedEvent ι κ F → Prop
  | .refresh k _ => ∀ docs, s.refreshes k ≠ .deleting docs
  | _ => True

/-- What a refresh of the folder holds. -/
def RefreshPc.OfFolder (chunks : List PublicChunk) (docs : List (VectorDocument F)) : RefreshPc F → Prop
  | .embedding found => found = chunks
  | .opening held | .deleting held | .adding held | .refreshed held => held = docs
  | _ => True

/-- The delete is done. -/
def RefreshPc.cleared : RefreshPc F → Bool
  | .adding _ | .refreshed _ => true
  | _ => false

/-- What refreshes of one folder keep: they hold its documents, and once one of them has deleted, there are no
    public entries but those of the folder. -/
structure OneFolder (chunks : List PublicChunk) (docs : List (VectorDocument F)) (s : Shared ι κ F) :
    Prop where
  sound : Sound s
  names : s.client.names.Nodup
  held : ∀ k, (s.refreshes k).OfFolder chunks docs
  clean : ∀ k, (s.refreshes k).cleared = true → publicEntries s.client ⊆ entriesOf docs

theorem ofFolder_refreshStep {client : Client F} (hload : loadDocuments T folder = .ok chunks)
    {pc : RefreshPc F} {a : RefreshInput F} {next : RefreshPc F × Client F}
    (hlists : ∀ found, a = .lists found → found = folder)
    (hembeds : ∀ computed, a = .embeds computed → computed = rows)
    (hheld : pc.OfFolder chunks (publicDocuments cfg chunks rows))
    (h : refreshStep T cfg client pc a = some next) :
    next.1.OfFolder chunks (publicDocuments cfg chunks rows) := by
  cases pc <;> cases a <;> simp only [refreshStep, Option.some.injEq, reduceCtorEq] at h
  case loading.lists found =>
    rw [hlists found rfl, hload] at h
    obtain rfl := Option.some.inj h
    rfl
  case embedding.embeds found computed =>
    obtain rfl : found = chunks := hheld
    obtain rfl := hembeds computed rfl
    split at h
    · obtain rfl := Option.some.inj h
      rfl
    · obtain rfl := Option.some.inj h
      trivial
  all_goals
    subst h
    first
      | exact hheld
      | trivial

theorem nodup_names_apply {client : Client F} {change : StoreChange F} (hnames : client.names.Nodup)
    (hchange : change.IsPrivate ∨ change.IsPublic) : (change.apply client).names.Nodup := by
  cases change with
  | keep => exact hnames
  | «open» => exact nodup_names_withCollection (fun _ => rfl) hnames
  | clearDocument first documentId tenantId =>
    rw [apply_clearDocument, names_mapFirst]
    exact hnames
  | clearPublic first =>
    rw [apply_clearPublic, names_mapFirst]
    exact hnames
  | add docs =>
    have hcollection : ∀ v ∈ docs, v.collectionName = "financial_reports" := by
      intro v hv
      rcases hchange with hprivate | hpublic
      · exact (hprivate v hv).collection
      · exact (hpublic v hv).collection
    exact nodup_names_addDocuments hcollection hnames

/-- A refresh has deleted when it had, or when it does so now. -/
theorem cleared_refreshStep {client : Client F} {pc : RefreshPc F} {a : RefreshInput F}
    {next : RefreshPc F × Client F} (h : refreshStep T cfg client pc a = some next)
    (hcleared : next.1.cleared = true) : pc.cleared = true ∨ refreshChange pc a = .clearPublic none := by
  cases pc <;> cases a <;> simp only [refreshStep, Option.some.injEq, reduceCtorEq] at h
  case loading.lists found =>
    split at h
    all_goals
      obtain rfl := Option.some.inj h
      cases hcleared
  case embedding.embeds found computed =>
    split at h
    all_goals
      obtain rfl := Option.some.inj h
      cases hcleared
  all_goals
    subst h
    first
      | exact Or.inl rfl
      | exact Or.inr rfl
      | cases hcleared

/-- What a refresh writes is of the documents it holds. -/
theorem adds_refreshChange {docs written : List (VectorDocument F)} {pc : RefreshPc F} {a : RefreshInput F}
    (hheld : pc.OfFolder chunks docs) (h : refreshChange pc a = .add written) : ∀ v ∈ written, v ∈ docs := by
  unfold refreshChange at h
  split at h <;> cases h
  · exact fun v hv => hheld ▸ hv
  · exact fun v hv => hheld ▸ List.mem_of_mem_take hv

/-- It deletes where it stands before the delete. -/
theorem deleting_of_refreshChange {pc : RefreshPc F} {a : RefreshInput F} {first : Option Nat}
    (h : refreshChange pc a = .clearPublic first) : ∃ docs, pc = .deleting docs := by
  unfold refreshChange at h
  split at h <;> cases h
  · exact ⟨_, rfl⟩
  · exact ⟨_, rfl⟩

theorem publicEntries_attempt {s : Shared ι κ F} (hs : Sound s) {w : ι} {task : Task} {pc : DocPc F}
    {x : DocStores F} (hw : s.attempts w = some (task, pc, x)) (a : AttemptInput F) :
    publicEntries ((attemptChange T task pc a).apply s.client) = publicEntries s.client := by
  obtain ⟨htask, hholds⟩ := hs.attempts w task pc x hw
  refine publicEntries_apply_private hs.apart (isPrivate_attemptChange a hholds) ?_
  intro first documentId tenantId hchange
  unfold attemptChange at hchange
  split at hchange <;> cases hchange
  · exact htask
  · exact htask

variable {docs : List (VectorDocument F)} {s t : Shared ι κ F} {e : SharedEvent ι κ F}

/-- No refresh of the folder brings in an entry of another one. -/
theorem subset_refreshChange (h : OneFolder chunks docs s) (k : κ) (a : RefreshInput F)
    (hdocs : ∀ v ∈ docs, PublicKind v) (hsub : publicEntries s.client ⊆ entriesOf docs) :
    publicEntries ((refreshChange (s.refreshes k) a).apply s.client) ⊆ entriesOf docs := by
  have hpublic := isPublic_refreshChange a (h.sound.refreshes k)
  have hadds : ∀ written, refreshChange (s.refreshes k) a = .add written → ∀ v ∈ written, v ∈ docs :=
    fun _ => adds_refreshChange (h.held k)
  generalize refreshChange (s.refreshes k) a = change at hpublic hadds
  cases change with
  | keep => exact hsub
  | «open» =>
    rw [show publicEntries (StoreChange.open.apply s.client) = publicEntries s.client from
      entries_createCollection s.client _ _]
    exact hsub
  | clearDocument => exact hpublic.elim
  | clearPublic first => exact List.Subset.trans (publicEntries_clearPublic_subset s.client first) hsub
  | add written =>
    intro e he
    rcases publicEntries_add_subset hpublic he with he | he
    · exact hsub he
    · obtain ⟨v, hv, rfl⟩ := List.mem_map.mp he
      exact List.mem_map_of_mem (hadds written rfl v hv)

theorem oneFolder_step (hload : loadDocuments T folder = .ok chunks)
    (h : OneFolder chunks (publicDocuments cfg chunks rows) s) (hP : OfFolder folder rows s e)
    (hstep : sharedStep T cfg s e = some t) : OneFolder chunks (publicDocuments cfg chunks rows) t := by
  have hsound := sound_step h.sound hP.1 hstep
  rcases sharedStep_cases hstep with ⟨w, task, x, rfl, rfl⟩ |
    ⟨w, a, task, pc, x, next, rfl, hw, hnext, rfl⟩ | ⟨k, a, next, rfl, hnext, rfl⟩
  · exact ⟨hsound, h.names, h.held, h.clean⟩
  · obtain ⟨_, hholds⟩ := h.sound.attempts w task pc x hw
    refine ⟨hsound, nodup_names_apply h.names (Or.inl (isPrivate_attemptChange a hholds)), h.held, ?_⟩
    intro k hk
    show publicEntries ((attemptChange T task pc a).apply s.client) ⊆ _
    rw [publicEntries_attempt h.sound hw]
    exact h.clean k hk
  · have hpublic := isPublic_refreshChange a (h.sound.refreshes k)
    have hkept := subset_refreshChange h k a fun v hv => publicKind_of_mem hv
    refine ⟨hsound, nodup_names_apply h.names (Or.inr hpublic), ?_, ?_⟩
    · intro j
      refine update_of (p := RefreshPc.OfFolder chunks _) (fun hheld => ?_) (h.held j)
      refine ofFolder_refreshStep hload ?_ ?_ hheld hnext
      · rintro found rfl
        exact hP.2
      · rintro computed rfl
        exact hP.2
    · intro j hj
      by_cases hjk : j = k
      · subst hjk
        have hmoved : (Function.update s.refreshes j next.1 j).cleared = true := hj
        rw [Function.update_self] at hmoved
        rcases cleared_refreshStep hnext hmoved with hbefore | hdelete
        · exact hkept (h.clean j hbefore)
        · show publicEntries ((refreshChange (s.refreshes j) a).apply s.client) ⊆ _
          rw [hdelete, publicEntries_clearPublic]
          exact List.nil_subset _
      · have hstayed : (Function.update s.refreshes k next.1 j).cleared = true := hj
        rw [Function.update_of_ne hjk] at hstayed
        exact hkept (h.clean j hstayed)

/-- **All the entries stay until a refresh deletes.** -/
theorem full_step (h : OneFolder chunks docs s) (hdocs : ∀ v ∈ docs, PublicKind v)
    (hnodup : (docs.map VectorDocument.chunkId).Nodup) (hquiet : NoDelete s e)
    (hstep : sharedStep T cfg s e = some t) (hfull : entriesOf docs ⊆ publicEntries s.client) :
    entriesOf docs ⊆ publicEntries t.client := by
  rcases sharedStep_cases hstep with ⟨w, task, x, rfl, rfl⟩ |
    ⟨w, a, task, pc, x, next, rfl, hw, hnext, rfl⟩ | ⟨k, a, next, rfl, hnext, rfl⟩
  · exact hfull
  · show _ ⊆ publicEntries ((attemptChange T task pc a).apply s.client)
    rw [publicEntries_attempt h.sound hw]
    exact hfull
  · show _ ⊆ publicEntries ((refreshChange (s.refreshes k) a).apply s.client)
    have hpublic := isPublic_refreshChange a (h.sound.refreshes k)
    have hadds : ∀ written, refreshChange (s.refreshes k) a = .add written → ∀ v ∈ written, v ∈ docs :=
      fun _ => adds_refreshChange (h.held k)
    have hdeletes : ∀ first, refreshChange (s.refreshes k) a = .clearPublic first →
        ∃ held, s.refreshes k = .deleting held := fun _ => deleting_of_refreshChange
    generalize refreshChange (s.refreshes k) a = change at hpublic hadds hdeletes
    cases change with
    | keep => exact hfull
    | «open» =>
      rw [show publicEntries (StoreChange.open.apply s.client) = publicEntries s.client from
        entries_createCollection s.client _ _]
      exact hfull
    | clearDocument => exact hpublic.elim
    | clearPublic first =>
      obtain ⟨held, hpc⟩ := hdeletes first rfl
      exact absurd hpc (hquiet held)
    | add written =>
      exact fun e he => mem_publicEntries_add hdocs hnodup (hadds written rfl) he (hfull he)

/-- **A refresh makes the public base the folder's.**  In every run of workers on private documents and of
    refreshes of one folder, each stopped anywhere and interleaved in any way, from any store whose names are
    apart: from the moment at which one refresh completes its upsert, and until the next delete of a refresh,
    the public entries are one for each passage of the folder, and nothing else. -/
theorem refresh_exact {client : Client F} (hapart : Apart client) (hnames : client.names.Nodup)
    (hfolder : Distinct folder) (hload : loadDocuments T folder = .ok chunks)
    {es es' : List (SharedEvent ι κ F)} {m m' : Shared ι κ F} {k : κ} {held : List (VectorDocument F)}
    (hrun : Run (sharedStep T cfg) (OfFolder folder rows) (.init client) es m)
    (hk : m.refreshes k = .adding held) (hadd : sharedStep T cfg m (.refresh k .go) = some m')
    (hrest : Run (sharedStep T cfg) (fun s e => OfFolder folder rows s e ∧ NoDelete s e) m' es' t) :
    (publicEntries t.client).Perm (entriesOf (publicDocuments cfg chunks rows)) := by
  have hdocs : ∀ v ∈ publicDocuments cfg chunks rows, PublicKind v := fun v hv => publicKind_of_mem hv
  have hnodup : ((publicDocuments cfg chunks rows).map VectorDocument.chunkId).Nodup :=
    nodup_publicDocuments (nodup_keys hfolder hload) rows
  have hm : OneFolder chunks (publicDocuments cfg chunks rows) m := by
    refine hrun.invariant (fun s e t h hP hstep => oneFolder_step hload h hP hstep) ?_
    exact ⟨sound_init hapart, hnames, fun _ => trivial, fun _ hcleared => absurd hcleared Bool.false_ne_true⟩
  have hm' : OneFolder chunks (publicDocuments cfg chunks rows) m' :=
    oneFolder_step hload hm (show OfFolder folder rows m (.refresh k .go) from ⟨trivial, trivial⟩) hadd
  -- the upsert brings in all of them
  obtain rfl : held = publicDocuments cfg chunks rows := by
    have hheld := hm.held k
    rwa [hk] at hheld
  have hadded : m' = { m with
      client := addDocuments m.client (publicDocuments cfg chunks rows)
      refreshes := Function.update m.refreshes k (.refreshed (publicDocuments cfg chunks rows)) } := by
    simp only [sharedStep, hk, refreshStep, Option.map_some] at hadd
    exact (Option.some.inj hadd).symm
  have hfull' : entriesOf (publicDocuments cfg chunks rows) ⊆ publicEntries m'.client := by
    rw [hadded]
    exact fun e he => mem_publicEntries_added hdocs hnodup he
  have hcleared : (m'.refreshes k).cleared = true := by
    rw [hadded]
    show (Function.update m.refreshes k _ k).cleared = true
    rw [Function.update_self]
    rfl
  -- and they stay, alone
  have hend : OneFolder chunks (publicDocuments cfg chunks rows) t ∧
      entriesOf (publicDocuments cfg chunks rows) ⊆ publicEntries t.client ∧
      publicEntries t.client ⊆ entriesOf (publicDocuments cfg chunks rows) := by
    refine hrest.invariant (I := fun s => OneFolder chunks (publicDocuments cfg chunks rows) s ∧
      entriesOf (publicDocuments cfg chunks rows) ⊆ publicEntries s.client ∧
      publicEntries s.client ⊆ entriesOf (publicDocuments cfg chunks rows)) ?_
      ⟨hm', hfull', hm'.clean k hcleared⟩
    rintro s e u ⟨h, hfull, hsub⟩ ⟨hP, hquiet⟩ hstep
    refine ⟨oneFolder_step hload h hP hstep, full_step h hdocs hnodup hquiet hstep hfull, ?_⟩
    rcases sharedStep_cases hstep with ⟨w, task, x, rfl, rfl⟩ |
      ⟨w, a, task, pc, x, next, rfl, hw, hnext, rfl⟩ | ⟨j, a, next, rfl, hnext, rfl⟩
    · exact hsub
    · show publicEntries ((attemptChange T task pc a).apply s.client) ⊆ _
      rw [publicEntries_attempt h.sound hw]
      exact hsub
    · exact subset_refreshChange h j a hdocs hsub
  have hentries : (entriesOf (publicDocuments cfg chunks rows)).Nodup := by
    refine List.Nodup.map_on ?_ (List.Nodup.of_map _ hnodup)
    intro v hv w hw heq
    exact List.inj_on_of_nodup_map hnodup hv hw (congrArg Record.id (Prod.mk.inj heq).2)
  obtain ⟨h, hfull, hsub⟩ := hend
  exact (List.perm_ext_iff_of_nodup (nodup_entries h.names _) hentries).mpr fun e =>
    ⟨fun he => hsub he, fun he => hfull he⟩

end PublicEntries

/-! ## A schedule -/

theorem distinct_sampleFolder : Distinct sampleFolder where
  contents := by decide
  positions := by
    intro file hfile chunks hchunks
    rcases List.mem_pair.mp hfile with rfl | rfl
    · obtain rfl := Except.ok.inj hchunks
      decide
    · obtain rfl := Except.ok.inj hchunks
      decide

/-- One refresh stops in its upsert, the next completes; then a worker indexes a private document. -/
theorem stopped_then_completed_exact :
    ∃ chunks m m' t held,
      loadDocuments .ascii sampleFolder = .ok chunks ∧ chunks.length = 2 ∧
      exec sampleSharing (.init foundClient)
        (upToAdding 1 ++ [.refresh 1 (.addsPartly 1 "lost")] ++ upToAdding 0) = some m ∧
      m.refreshes 0 = .adding held ∧ sampleSharing m (.refresh 0 .go) = some m' ∧
      exec sampleSharing m' (attemptUpToUpsert ++ [.attempt 5 (.handler (.go 21))]) = some t ∧
      (publicEntries t.client).Perm (entriesOf (publicDocuments ⟨"m", ""⟩ chunks sampleRows)) := by
  have hsome : (loadDocuments .ascii sampleFolder).toOption.any (fun chunks => chunks.length == 2) = true := by
    decide +kernel
  obtain ⟨chunks, hload, hlength⟩ := PyList.exists_ok_of_any hsome
  obtain ⟨m, held, hm, hk⟩ : ∃ m held, exec sampleSharing (.init foundClient)
      (upToAdding 1 ++ [.refresh 1 (.addsPartly 1 "lost")] ++ upToAdding 0) = some m ∧
      m.refreshes 0 = .adding held := ⟨_, _, rfl, rfl⟩
  obtain ⟨m', hadd⟩ : ∃ m', sampleSharing m (.refresh 0 .go) = some m' := by
    obtain rfl := Option.some.inj hm
    exact ⟨_, rfl⟩
  obtain ⟨t, ht⟩ : ∃ t, exec sampleSharing m'
      (attemptUpToUpsert ++ [.attempt 5 (.handler (.go 21))]) = some t := by
    obtain rfl := Option.some.inj hm
    obtain rfl := Option.some.inj hadd
    exact ⟨_, rfl⟩
  have hfolder : ∀ e ∈ upToAdding 1 ++ [.refresh 1 (.addsPartly 1 "lost")] ++ upToAdding 0,
      ∀ s, OfFolder sampleFolder sampleRows s e := by
    intro e he s
    simp only [upToAdding, List.mem_append, List.mem_cons, List.not_mem_nil, or_false] at he
    rcases he with ((rfl | rfl | rfl | rfl) | rfl) | rfl | rfl | rfl | rfl
    all_goals exact ⟨trivial, by first | rfl | trivial⟩
  have hwork : ∀ e ∈ attemptUpToUpsert ++ [.attempt 5 (.handler (.go 21))],
      ∀ s, OfFolder sampleFolder sampleRows s e ∧ NoDelete s e := by
    intro e he s
    rcases List.mem_append.mp he with he | he
    · rcases List.mem_cons.mp he with rfl | he
      · exact ⟨⟨show sampleDocumentTask.tenantId ≠ publicTenantId by decide, trivial⟩, trivial⟩
      · obtain ⟨a, _, rfl⟩ := List.mem_map.mp he
        exact ⟨⟨trivial, trivial⟩, trivial⟩
    · obtain rfl := List.mem_singleton.mp he
      exact ⟨⟨trivial, trivial⟩, trivial⟩
  have hnames : foundClient.names.Nodup := List.nodup_singleton "financial_reports"
  exact ⟨chunks, m, m', t, held, hload, beq_iff_eq.mp hlength, hm, hk, hadd, ht,
    refresh_exact apart_foundClient hnames distinct_sampleFolder hload (run_of_exec hm hfolder) hk hadd
      (run_of_exec ht hwork)⟩

end FinancialRag.Tasks
