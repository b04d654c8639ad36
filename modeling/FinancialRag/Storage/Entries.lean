/-
  What the vector store holds, and what its writes leave alone.

  `Client.entries p` lists the records that pass a test, each under the name of its collection.  A
  delete, an upsert, a newly created collection: each has a lemma that says which entries stay, and one
  that says what it brings about.  `Client.AllIn` carries a fact about the records of one collection
  through every write.
-/
import FinancialRag.Storage.ChromaStore

set_option linter.unusedVariables false

namespace FinancialRag.Storage

variable {F : Type}

/-- The record is of this tenant AND this document. -/
def Record.isOf (tenantId : Int) (documentId : String) (r : Record F) : Bool :=
  r.ofTenant tenantId && r.ofDocument documentId

/-- The records of a collection that pass a test. -/
def Collection.entries (c : Collection F) (p : Record F → Bool) : List (String × Record F) :=
  (c.records.filter p).map fun r => (c.name, r)

/-- The records of a store that pass a test. -/
def Client.entries (client : Client F) (p : Record F → Bool) : List (String × Record F) :=
  client.collections.flatMap fun c => c.entries p

/-- Every record in the collections of this name satisfies `q`. -/
def Client.AllIn (client : Client F) (name : String) (q : Record F → Prop) : Prop :=
  ∀ c ∈ client.collections, c.name = name → ∀ r ∈ c.records, q r

def Client.names (client : Client F) : List String := client.collections.map Collection.name

theorem entries_eq_nil_iff {client : Client F} {p : Record F → Bool} :
    client.entries p = [] ↔ ∀ c ∈ client.collections, ∀ r ∈ c.records, p r = false := by
  unfold Client.entries Collection.entries
  rw [List.flatMap_eq_nil_iff]
  refine forall₂_congr fun c _ => ?_
  rw [List.map_eq_nil_iff, List.filter_eq_nil_iff]
  exact forall₂_congr fun r _ => Bool.not_eq_true _ ▸ Iff.rfl

/-- A record is of one tenant and document only. -/
theorem isOf_unique {r : Record F} {t t' : Int} {doc doc' : String} (h : r.isOf t doc = true)
    (h' : r.isOf t' doc' = true) : t = t' ∧ doc = doc' := by
  unfold Record.isOf at h h'
  rw [Bool.and_eq_true] at h h'
  constructor
  · have ht := h.1
    have ht' := h'.1
    unfold Record.ofTenant at ht ht'
    split at ht
    · rename_i n hn
      rw [hn] at ht'
      exact (beq_iff_eq.mp ht).symm.trans (beq_iff_eq.mp ht')
    · cases ht
  · have hdoc := h.2
    have hdoc' := h'.2
    unfold Record.ofDocument at hdoc hdoc'
    split at hdoc
    · rename_i s hs
      rw [hs] at hdoc'
      exact (beq_iff_eq.mp hdoc).symm.trans (beq_iff_eq.mp hdoc')
    · cases hdoc

/-- A stored document is of the tenant its metadata names, under its own document id. -/
theorem isOf_record {v : VectorDocument F} {tenantId : Int}
    (htenant : v.metadata.get "tenant_id" = some (.int tenantId))
    (hdocument : v.metadata.get "document_id" = none) :
    v.record.isOf tenantId v.documentId = true := by
  have ht : v.record.metadata.get "tenant_id" = some (.int tenantId) := by
    show (storedMetadata v).get "tenant_id" = _
    unfold storedMetadata
    rw [Dict.get_update, htenant]
    rfl
  have hdoc : v.record.metadata.get "document_id" = some (.str v.documentId) := by
    show (storedMetadata v).get "document_id" = _
    unfold storedMetadata
    rw [Dict.get_update, hdocument]
    rfl
  unfold Record.isOf Record.ofTenant Record.ofDocument
  rw [ht, hdoc]
  simp

/-! ## Deleting -/

@[simp] theorem names_deleteDocument (client : Client F) (documentId : String) (tenantId : Int) :
    (deleteDocument client documentId tenantId).names = client.names := by
  unfold Client.names deleteDocument
  rw [List.map_map]
  rfl

/-- **A delete leaves nothing of the document.** -/
theorem entries_deleteDocument (client : Client F) (documentId : String) (tenantId : Int) :
    (deleteDocument client documentId tenantId).entries (Record.isOf tenantId documentId) = [] := by
  refine List.flatMap_eq_nil_iff.mpr ?_
  intro c hc
  obtain ⟨c₀, _, rfl⟩ := List.mem_map.mp hc
  refine List.map_eq_nil_iff.mpr (List.filter_eq_nil_iff.mpr ?_)
  intro r hr habs
  have hkept : (!r.isOf tenantId documentId) = true := (List.mem_filter.mp hr).2
  rw [habs] at hkept
  cases hkept

/-- And leaves every other entry. -/
theorem entries_deleteDocument_of_disjoint {client : Client F} {documentId : String} {tenantId : Int}
    {p : Record F → Bool} (hp : ∀ r, p r = true → r.isOf tenantId documentId = false) :
    (deleteDocument client documentId tenantId).entries p = client.entries p := by
  unfold Client.entries deleteDocument
  rw [List.flatMap_map]
  refine List.flatMap_congr fun c _ => ?_
  show ((c.records.filter _).filter p).map _ = (c.records.filter p).map _
  rw [List.filter_filter]
  congr 1
  refine List.filter_congr fun r _ => ?_
  show (p r && !r.isOf tenantId documentId) = p r
  cases hpr : p r with
  | false => rfl
  | true =>
    rw [hp r hpr]
    rfl

theorem allIn_deleteDocument {client : Client F} {name documentId : String} {tenantId : Int}
    {q : Record F → Prop} (h : client.AllIn name q) :
    (deleteDocument client documentId tenantId).AllIn name q := by
  intro c hc hname r hr
  obtain ⟨c₀, hc₀, rfl⟩ := List.mem_map.mp hc
  exact h c₀ hc₀ hname r (List.mem_of_mem_filter hr)

/-! ## Opening a collection -/

theorem names_withCollection {client : Client F} {name : String} {f : Collection F → Collection F}
    (hf : ∀ c, (f c).name = c.name) :
    (client.withCollection name f).names =
      if client.names.contains name then client.names else client.names ++ [name] := by
  have hany : client.collections.any (·.name == name) = client.names.contains name := by
    refine Bool.eq_iff_iff.mpr ?_
    rw [List.any_eq_true, List.contains_iff_mem]
    unfold Client.names
    rw [List.mem_map]
    exact exists_congr fun c => and_congr_right fun _ => beq_iff_eq
  unfold Client.withCollection
  rw [hany]
  split
  · unfold Client.names
    rw [List.map_map]
    refine List.map_congr_left fun c _ => ?_
    show (if c.name == name then f c else c).name = c.name
    split
    · exact hf c
    · rfl
  · unfold Client.names
    rw [List.map_append, List.map_singleton, hf]

theorem nodup_names_withCollection {client : Client F} {name : String}
    {f : Collection F → Collection F} (hf : ∀ c, (f c).name = c.name) (h : client.names.Nodup) :
    (client.withCollection name f).names.Nodup := by
  rw [names_withCollection hf]
  split
  · exact h
  · rename_i hname
    refine List.nodup_append.mpr ⟨h, List.nodup_singleton _, ?_⟩
    rintro a ha b hb rfl
    obtain rfl := List.mem_singleton.mp hb
    exact hname (by simpa using ha)

/-- The entries that `f` leaves in the collection are left in the store. -/
theorem entries_withCollection {client : Client F} {name : String} {f : Collection F → Collection F}
    {p : Record F → Bool}
    (hf : ∀ c ∈ client.collections, c.name = name → (f c).entries p = c.entries p)
    (hnew : (f ⟨name, [], List.nodup_nil⟩).entries p = []) :
    (client.withCollection name f).entries p = client.entries p := by
  unfold Client.withCollection Client.entries
  split
  · rw [List.flatMap_map]
    refine List.flatMap_congr fun c hc => ?_
    split
    · rename_i hname
      exact hf c hc (by simpa using hname)
    · rfl
  · rw [List.flatMap_append, List.flatMap_singleton, hnew, List.append_nil]

/-- Where no entry is left, the entries are those that `f` brings into the one collection. -/
theorem perm_entries_withCollection {client : Client F} {name : String}
    {f : Collection F → Collection F} {p : Record F → Bool} {es : List (String × Record F)}
    (hnames : client.names.Nodup) (hnil : client.entries p = [])
    (hf : ∀ c ∈ client.collections, c.name = name → ((f c).entries p).Perm es)
    (hnew : ((f ⟨name, [], List.nodup_nil⟩).entries p).Perm es) :
    ((client.withCollection name f).entries p).Perm es := by
  unfold Client.withCollection
  split
  · rename_i hany
    obtain ⟨c, hc, hname⟩ := List.any_eq_true.mp hany
    obtain rfl : c.name = name := by simpa using hname
    obtain ⟨pre, suf, hsplit⟩ := List.append_of_mem hc
    unfold Client.names at hnames
    unfold Client.entries at hnil ⊢
    rw [hsplit] at hnames hnil ⊢
    rw [List.map_append, List.map_cons, List.nodup_append, List.nodup_cons] at hnames
    obtain ⟨_, ⟨hsuf, _⟩, hpre⟩ := hnames
    have hother : ∀ d ∈ pre ++ suf, d.name ≠ c.name := by
      intro d hd heq
      rcases List.mem_append.mp hd with hd | hd
      · exact hpre d.name (List.mem_map_of_mem hd) c.name List.mem_cons_self heq
      · exact hsuf (heq ▸ List.mem_map_of_mem hd)
    have hkeep : ∀ ds : List (Collection F), (∀ d ∈ ds, d ∈ pre ++ suf) →
        (ds.map fun d => if d.name == c.name then f d else d) = ds := by
      intro ds hds
      refine (List.map_congr_left fun d hd => ?_).trans (List.map_id _)
      rw [if_neg (by simpa using hother d (hds d hd))]
      rfl
    rw [List.flatMap_append, List.flatMap_cons, List.append_eq_nil_iff, List.append_eq_nil_iff] at hnil
    rw [List.map_append, List.map_cons, hkeep pre fun d hd => List.mem_append_left _ hd,
      hkeep suf fun d hd => List.mem_append_right _ hd, List.flatMap_append, List.flatMap_cons,
      hnil.1, hnil.2.2]
    simpa using hf c hc rfl
  · unfold Client.entries at hnil ⊢
    rw [List.flatMap_append, hnil, List.flatMap_singleton, List.nil_append]
    exact hnew

theorem allIn_withCollection {client : Client F} {name : String} {f : Collection F → Collection F}
    {q : Record F → Prop} (h : client.AllIn name q)
    (hf : ∀ c : Collection F, (∀ r ∈ c.records, q r) → ∀ r ∈ (f c).records, q r) :
    (client.withCollection name f).AllIn name q := by
  unfold Client.withCollection
  split
  · intro c hc hname r hr
    obtain ⟨c₀, hc₀, rfl⟩ := List.mem_map.mp hc
    split at hr
    · rename_i hname₀
      exact hf c₀ (h c₀ hc₀ (by simpa using hname₀)) r hr
    · rename_i hname₀
      rw [if_neg hname₀] at hname
      exact h c₀ hc₀ hname r hr
  · intro c hc hname r hr
    rcases List.mem_append.mp hc with hold | hnew
    · exact h c hold hname r hr
    · obtain rfl := List.mem_singleton.mp hnew
      exact hf _ (fun r hr => absurd hr List.not_mem_nil) r hr

@[simp] theorem entries_createCollection (client : Client F) (name : String) (p : Record F → Bool) :
    (createCollection client name).entries p = client.entries p :=
  entries_withCollection (fun _ _ _ => rfl) rfl

/-! ## Upserting -/

theorem mem_upsertRecord {new r : Record F} {rs : List (Record F)} (h : r ∈ upsertRecord new rs) :
    r = new ∨ r ∈ rs := by
  induction rs with
  | nil => exact Or.inl (List.mem_singleton.mp h)
  | cons x rs ih =>
    rw [upsertRecord] at h
    split at h
    · exact (List.mem_cons.mp h).imp id (List.mem_cons_of_mem x)
    · rcases List.mem_cons.mp h with rfl | h
      · exact Or.inr List.mem_cons_self
      · exact (ih h).imp id (List.mem_cons_of_mem x)

/-- An upsert leaves the records that it does not replace. -/
theorem filter_upsertRecord {p : Record F → Bool} {new : Record F} {rs : List (Record F)}
    (hnew : p new = false) (hclash : ∀ r ∈ rs, r.id = new.id → p r = false) :
    (upsertRecord new rs).filter p = rs.filter p := by
  induction rs with
  | nil => simp [upsertRecord, hnew]
  | cons x rs ih =>
    have hrest := ih fun r hr => hclash r (List.mem_cons_of_mem x hr)
    rw [upsertRecord]
    split
    · rename_i hid
      have hx := hclash x List.mem_cons_self hid
      simp [hnew, hx]
    · rw [List.filter_cons, List.filter_cons, hrest]

@[simp] theorem name_upsertAll (c : Collection F) (new : List (Record F)) :
    (c.upsertAll new).name = c.name := by
  induction new generalizing c with
  | nil => rfl
  | cons x new ih => exact ih (c.upsert x)

theorem mem_upsertAll {c : Collection F} {new : List (Record F)} {r : Record F}
    (h : r ∈ (c.upsertAll new).records) : r ∈ new ∨ r ∈ c.records := by
  induction new generalizing c with
  | nil => exact Or.inr h
  | cons x new ih =>
    rcases ih (c := c.upsert x) h with hnew | hold
    · exact Or.inl (List.mem_cons_of_mem x hnew)
    · rcases mem_upsertRecord hold with rfl | hold
      · exact Or.inl List.mem_cons_self
      · exact Or.inr hold

/-- **An upsert leaves every entry whose id it does not write.** -/
theorem entries_upsertAll {p : Record F → Bool} {c : Collection F} {new : List (Record F)}
    (hnew : ∀ x ∈ new, p x = false)
    (hclash : ∀ r ∈ c.records, ∀ x ∈ new, r.id = x.id → p r = false) :
    (c.upsertAll new).entries p = c.entries p := by
  induction new generalizing c with
  | nil => rfl
  | cons x new ih =>
    have hx := hnew x List.mem_cons_self
    have hkeep : (c.upsert x).entries p = c.entries p := by
      show ((upsertRecord x c.records).filter p).map _ = (c.records.filter p).map _
      rw [filter_upsertRecord hx fun r hr => hclash r hr x List.mem_cons_self]
      rfl
    rw [← hkeep]
    refine ih (c := c.upsert x) (fun y hy => hnew y (List.mem_cons_of_mem x hy)) ?_
    intro r hr y hy hid
    rcases mem_upsertRecord hr with rfl | hr
    · exact hx
    · exact hclash r hr y (List.mem_cons_of_mem x hy) hid

theorem perm_filter_upsertRecord {p : Record F → Bool} {new : Record F} {rs : List (Record F)}
    (hnew : p new = true) (hfresh : ∀ r ∈ rs, p r = true → r.id ≠ new.id) :
    ((upsertRecord new rs).filter p).Perm (rs.filter p ++ [new]) := by
  induction rs with
  | nil => simp [upsertRecord, hnew]
  | cons x rs ih =>
    rw [upsertRecord]
    split
    · -- the record that gives way does not pass the test
      rename_i hid
      have hx : p x = false := by
        rw [Bool.eq_false_iff]
        exact fun hpx => hfresh x List.mem_cons_self hpx hid
      rw [List.filter_cons_of_pos hnew, List.filter_cons_of_neg (by simp [hx])]
      exact (List.perm_append_singleton new (rs.filter p)).symm
    · have hrest := ih fun r hr => hfresh r (List.mem_cons_of_mem x hr)
      rw [List.filter_cons, List.filter_cons]
      split
      · exact hrest.cons x
      · exact hrest

/-- **An upsert of pairwise different ids brings in one entry for each record**, if no entry that counts
    has one of the ids. -/
theorem perm_filter_upsertAll {p : Record F → Bool} {c : Collection F} {new : List (Record F)}
    (hnodup : (new.map Record.id).Nodup) (hnew : ∀ x ∈ new, p x = true)
    (hfresh : ∀ r ∈ c.records, p r = true → ∀ x ∈ new, r.id ≠ x.id) :
    ((c.upsertAll new).records.filter p).Perm (c.records.filter p ++ new) := by
  induction new generalizing c with
  | nil =>
    rw [List.append_nil]
    exact List.Perm.refl _
  | cons x new ih =>
    rw [List.map_cons, List.nodup_cons] at hnodup
    have hx : ((c.upsert x).records.filter p).Perm (c.records.filter p ++ [x]) :=
      perm_filter_upsertRecord (hnew x List.mem_cons_self)
        fun r hr hpr => hfresh r hr hpr x List.mem_cons_self
    have hrest : (((c.upsert x).upsertAll new).records.filter p).Perm
        ((c.upsert x).records.filter p ++ new) := by
      refine ih hnodup.2 (fun y hy => hnew y (List.mem_cons_of_mem x hy)) ?_
      intro r hr hpr y hy hid
      rcases mem_upsertRecord hr with rfl | hold
      · exact hnodup.1 (hid ▸ List.mem_map_of_mem hy)
      · exact hfresh r hold hpr y (List.mem_cons_of_mem x hy) hid
    refine hrest.trans ((hx.append_right new).trans ?_)
    rw [List.append_assoc]
    exact List.Perm.refl _

/-! ## Adding documents -/

section Adding

variable [PyFloat F]

theorem documentsByCollection_single {name : String} {docs : List (VectorDocument F)}
    (hname : ∀ d ∈ docs, d.collectionName = name) (hne : docs ≠ []) :
    (documentsByCollection docs).entries = [(name, docs)] := by
  have hloop : ∀ (rest seen : List (VectorDocument F)) (acc : Dict String (List (VectorDocument F))),
      (∀ d ∈ rest, d.collectionName = name) → acc.entries = [(name, seen)] →
      (rest.foldl (fun by_ d => by_.set d.collectionName (((by_.get d.collectionName).getD []) ++ [d]))
        acc).entries = [(name, seen ++ rest)] := by
    intro rest
    induction rest with
    | nil =>
      intro seen acc _ hacc
      rw [List.append_nil]
      exact hacc
    | cons d rest ih =>
      intro seen acc hrest hacc
      have hd := hrest d List.mem_cons_self
      have hget : (acc.get name).getD [] = seen := by
        unfold Dict.get
        rw [hacc, List.lookup_cons_self]
        rfl
      have hset : (acc.set name (seen ++ [d])).entries = [(name, seen ++ [d])] := by
        show setEntry name (seen ++ [d]) acc.entries = _
        rw [hacc, setEntry, if_pos rfl]
      rw [List.foldl_cons, hd, hget, ih (seen ++ [d]) _
        (fun x hx => hrest x (List.mem_cons_of_mem d hx)) hset, List.append_assoc]
      rfl
  cases docs with
  | nil => exact absurd rfl hne
  | cons d docs =>
    have hd := hname d List.mem_cons_self
    unfold documentsByCollection
    rw [List.foldl_cons, hd]
    exact hloop docs [d] _ (fun x hx => hname x (List.mem_cons_of_mem d hx)) rfl

/-- Documents of one collection are added by one upsert. -/
theorem addDocuments_eq {client : Client F} {name : String} {docs : List (VectorDocument F)}
    (hname : ∀ d ∈ docs, d.collectionName = name) :
    addDocuments client docs =
      if docs = [] then client
      else client.withCollection name (·.upsertAll (docs.map VectorDocument.record)) := by
  unfold addDocuments
  split
  · rename_i hnil
    subst hnil
    rfl
  · rename_i hne
    rw [documentsByCollection_single hname hne]
    rfl

/-- **After an add into a store without entries, the entries are the documents added.** -/
theorem perm_entries_addDocuments {client : Client F} {name : String} {docs : List (VectorDocument F)}
    {p : Record F → Bool} (hnames : client.names.Nodup) (hnil : client.entries p = [])
    (hname : ∀ d ∈ docs, d.collectionName = name)
    (hnodup : (docs.map VectorDocument.chunkId).Nodup) (hp : ∀ d ∈ docs, p d.record = true) :
    ((addDocuments client docs).entries p).Perm (docs.map fun d => (name, d.record)) := by
  rw [addDocuments_eq hname]
  split
  · rename_i hempty
    rw [hempty, hnil]
    exact List.Perm.refl _
  · have hids : ((docs.map VectorDocument.record).map Record.id).Nodup := by
      rw [List.map_map]
      exact hnodup
    have hnew : ∀ x ∈ docs.map VectorDocument.record, p x = true := by
      intro x hx
      obtain ⟨d, hd, rfl⟩ := List.mem_map.mp hx
      exact hp d hd
    have hbring : ∀ c : Collection F, c.name = name → c.records.filter p = [] →
        ((c.upsertAll (docs.map VectorDocument.record)).entries p).Perm
          (docs.map fun d => (name, d.record)) := by
      intro c hc hnone
      have hperm := perm_filter_upsertAll (c := c) hids hnew
        fun r hr hpr => absurd (List.mem_filter.mpr ⟨hr, hpr⟩) (by rw [hnone]; exact List.not_mem_nil)
      rw [hnone, List.nil_append] at hperm
      have hmap := hperm.map fun r => (name, r)
      rw [List.map_map] at hmap
      unfold Collection.entries
      rw [name_upsertAll, hc]
      exact hmap
    refine perm_entries_withCollection hnames hnil ?_ ?_
    · intro c hc hcname
      refine hbring c hcname ?_
      exact List.map_eq_nil_iff.mp (List.flatMap_eq_nil_iff.mp hnil c hc)
    · exact hbring ⟨name, [], List.nodup_nil⟩ rfl rfl

/-- An add leaves the entries whose ids it does not write. -/
theorem entries_addDocuments {client : Client F} {name : String} {docs : List (VectorDocument F)}
    {p : Record F → Bool} (hname : ∀ d ∈ docs, d.collectionName = name)
    (hp : ∀ d ∈ docs, p d.record = false)
    (hclash : client.AllIn name fun r => ∀ d ∈ docs, r.id = d.chunkId → p r = false) :
    (addDocuments client docs).entries p = client.entries p := by
  rw [addDocuments_eq hname]
  split
  · rfl
  · have hnew : ∀ x ∈ docs.map VectorDocument.record, p x = false := by
      intro x hx
      obtain ⟨d, hd, rfl⟩ := List.mem_map.mp hx
      exact hp d hd
    refine entries_withCollection ?_ ?_
    · intro c hc hcname
      refine entries_upsertAll hnew ?_
      intro r hr x hx hid
      obtain ⟨d, hd, rfl⟩ := List.mem_map.mp hx
      exact hclash c hc hcname r hr d hd hid
    · refine (entries_upsertAll hnew ?_).trans rfl
      intro r hr
      exact absurd hr List.not_mem_nil

theorem allIn_addDocuments {client : Client F} {name : String} {docs : List (VectorDocument F)}
    {q : Record F → Prop} (hname : ∀ d ∈ docs, d.collectionName = name)
    (h : client.AllIn name q) (hq : ∀ d ∈ docs, q d.record) :
    (addDocuments client docs).AllIn name q := by
  rw [addDocuments_eq hname]
  split
  · exact h
  · refine allIn_withCollection h ?_
    intro c hc r hr
    rcases mem_upsertAll hr with hnew | hold
    · obtain ⟨d, hd, rfl⟩ := List.mem_map.mp hnew
      exact hq d hd
    · exact hc r hold

theorem nodup_names_addDocuments {client : Client F} {name : String} {docs : List (VectorDocument F)}
    (hname : ∀ d ∈ docs, d.collectionName = name) (h : client.names.Nodup) :
    (addDocuments client docs).names.Nodup := by
  rw [addDocuments_eq hname]
  split
  · exact h
  · exact nodup_names_withCollection (fun c => name_upsertAll c _) h

end Adding

end FinancialRag.Storage
