/-
  The evidence side of `retrieval/hybrid_retriever.py`: each result becomes one `Evidence`, whose
  text is the neighbourhood of the first sentence that holds the question's keyword.
-/
import FinancialRag.Retrieval.HybridRetriever

set_option linter.unusedVariables false

namespace FinancialRag.Retrieval

open FinancialRag.Storage

/-! ## The local context -/

/-- `extract_keyword`: the first of the longest words of more than three characters. -/
def extractKeyword (T : PyText) (query : String) : String :=
  match (PyText.runs T.isWord (T.lower query)).filter fun w => decide (3 < w.length) with
  | [] => T.lower query
  | w :: ws => ws.foldl (fun best w => if best.length < w.length then w else best) w

/-- `re.split(r'(?<=[.!?])\s+', text)`: a separator is a run of blanks that follows a full stop.
    `gap` says that the last character belonged to one, `sentence` is what was read since, reversed. -/
def splitSentencesFrom (T : PyText) (gap : Bool) (prev : Option Char) (sentence : List Char) :
    List Char → List String
  | [] => [String.ofList sentence.reverse]
  | c :: cs =>
    if T.isSpace c && gap then splitSentencesFrom T true (some c) sentence cs
    else if T.isSpace c && prev.any fun p => p == '.' || p == '!' || p == '?' then
      String.ofList sentence.reverse :: splitSentencesFrom T true (some c) [] cs
    else splitSentencesFrom T false (some c) (c :: sentence) cs

def splitSentences (T : PyText) (text : String) : List String :=
  splitSentencesFrom T false none [] text.toList

/-- `extract_local_context`. -/
def extractLocalContext (T : PyText) (chunk query : String) (window : Nat) : String :=
  let keyword := extractKeyword T query
  let sentences := splitSentences T chunk
  match sentences.findIdx? fun s => PyText.isIn keyword (T.lower s) with
  | none => chunk
  | some hit => " ".intercalate ((sentences.take (hit + window + 1)).drop (hit - window))

example : extractLocalContext .ascii "A b. C? Net margin rose! D.  E f. G h." "the margins of" 1 =
    "A b. C? Net margin rose! D.  E f. G h." := by decide +kernel

example : extractLocalContext .ascii "A b. C? Net margin rose! D.  E f. G h." "the margin" 1 =
    "C? Net margin rose! D." := by decide +kernel

/-- A mark that ends a sentence is not white space, and was read into the sentence. -/
theorem mem_of_stop {T : PyText} (hT : T.Punctuated) {prev : Option Char} {sentence : List Char}
    (hprev : ∀ p ∈ prev, T.isSpace p = false → p ∈ sentence)
    (hstop : prev.any (fun p => p == '.' || p == '!' || p == '?') = true) :
    ∃ p ∈ sentence, T.isSpace p = false := by
  cases prev with
  | none => cases hstop
  | some p =>
    have hink : T.isSpace p = false := by
      rw [Option.any_some, Bool.or_eq_true, Bool.or_eq_true, beq_iff_eq, beq_iff_eq, beq_iff_eq] at hstop
      rcases hstop with (rfl | rfl) | rfl
      · exact hT.dot
      · exact hT.exclamation
      · exact hT.question
    exact ⟨p, hprev p rfl hink, hink⟩

/-- **Only the last sentence may be blank**, and a single one has all the text.  The invariant: the
    character before, where it is no white space, belongs to the sentence being read. -/
theorem splitSentencesFrom_inked {T : PyText} (hT : T.Punctuated) (gap : Bool) {prev : Option Char}
    {sentence : List Char} (cs : List Char) (hprev : ∀ p ∈ prev, T.isSpace p = false → p ∈ sentence) :
    ∃ front last, splitSentencesFrom T gap prev sentence cs = front ++ [last] ∧
      (∀ s ∈ front, T.Inked s) ∧
      (front = [] → ∀ c ∈ sentence.reverse ++ cs, T.isSpace c = false → T.Inked last) := by
  induction cs generalizing gap prev sentence with
  | nil =>
    refine ⟨[], String.ofList sentence.reverse, rfl, by simp, ?_⟩
    intro _ c hc hink
    rw [List.append_nil] at hc
    exact ⟨c, by rwa [String.toList_ofList], hink⟩
  | cons c cs ih =>
    have hblank : T.isSpace c = true → ∀ sentence : List Char, ∀ p ∈ some c, T.isSpace p = false →
        p ∈ sentence := by
      intro hspace sentence p hp hink
      obtain rfl := Option.some.inj hp
      rw [hspace] at hink
      cases hink
    rw [splitSentencesFrom]
    split
    · -- one more blank of a separator
      rename_i hgap
      have hspace : T.isSpace c = true := ((Bool.and_eq_true _ _).mp hgap).1
      obtain ⟨front, last, hsplit, hfront, hlast⟩ := ih true (hblank hspace sentence)
      refine ⟨front, last, hsplit, hfront, ?_⟩
      intro hnil x hx hink
      refine hlast hnil x ?_ hink
      rcases List.mem_append.mp hx with hx | hx
      · exact List.mem_append_left _ hx
      · rcases List.mem_cons.mp hx with rfl | hx
        · rw [hspace] at hink
          cases hink
        · exact List.mem_append_right _ hx
    · split
      · -- the sentence that was read ends in its mark
        rename_i hend
        obtain ⟨hspace, hstop⟩ := (Bool.and_eq_true _ _).mp hend
        obtain ⟨front, last, hsplit, hfront, -⟩ := ih true (hblank hspace [])
        obtain ⟨p, hp, hink⟩ := mem_of_stop hT hprev hstop
        refine ⟨String.ofList sentence.reverse :: front, last, by rw [hsplit]; rfl, ?_, by simp⟩
        intro s hs
        rcases List.mem_cons.mp hs with rfl | hs
        · exact ⟨p, by rwa [String.toList_ofList, List.mem_reverse], hink⟩
        · exact hfront s hs
      · have hread : ∀ p ∈ some c, T.isSpace p = false → p ∈ c :: sentence := by
          intro p hp _
          obtain rfl := Option.some.inj hp
          exact List.mem_cons_self
        obtain ⟨front, last, hsplit, hfront, hlast⟩ := ih false hread
        refine ⟨front, last, hsplit, hfront, ?_⟩
        intro hnil x hx hink
        refine hlast hnil x ?_ hink
        rw [List.reverse_cons, List.append_assoc]
        exact hx

/-- An element near `hit` is in the window around it. -/
theorem mem_window {sentences : List String} {hit window i : Nat} {s : String}
    (hs : sentences[i]? = some s) (hlow : hit - window ≤ i) (hhigh : i < hit + window + 1) :
    s ∈ (sentences.take (hit + window + 1)).drop (hit - window) := by
  have hin : ((sentences.take (hit + window + 1)).drop (hit - window))[i - (hit - window)]? = some s := by
    rw [List.getElem?_drop, List.getElem?_take, Nat.add_sub_cancel' hlow, if_pos hhigh]
    exact hs
  exact List.mem_of_getElem? hin

/-- **The local context of a text that is not blank is not blank.** -/
theorem inked_extractLocalContext {T : PyText} (hT : T.Punctuated) {chunk : String}
    (hchunk : T.Inked chunk) (query : String) {window : Nat} (hwindow : 0 < window) :
    T.Inked (extractLocalContext T chunk query window) := by
  have hstart : ∀ p ∈ (none : Option Char), T.isSpace p = false → p ∈ ([] : List Char) := by simp
  obtain ⟨front, last, hsplit, hfront, hlast⟩ := splitSentencesFrom_inked hT false chunk.toList hstart
  unfold extractLocalContext splitSentences
  dsimp only
  split
  · exact hchunk
  · rename_i hit hfound
    rw [hsplit] at hfound ⊢
    obtain ⟨hhit, -⟩ := List.findIdx?_eq_some_iff_getElem.mp hfound
    rw [List.length_append, List.length_singleton] at hhit
    -- the sentence that was hit, or the one before where it is the last
    have hnear : ∃ s, T.Inked s ∧
        s ∈ ((front ++ [last]).take (hit + window + 1)).drop (hit - window) := by
      by_cases hfirst : front = []
      · obtain ⟨c, hc, hink⟩ := hchunk
        subst hfirst
        have hhere : ([] ++ [last])[0]? = some last := rfl
        exact ⟨last, hlast rfl c hc hink, mem_window hhere (by simp at hhit; omega) (by omega)⟩
      · have hpos : 0 < front.length := List.length_pos_iff.mpr hfirst
        have hi : min hit (front.length - 1) < front.length := by omega
        have hthere : (front ++ [last])[min hit (front.length - 1)]? =
            some front[min hit (front.length - 1)] := by
          rw [List.getElem?_append_left hi, List.getElem?_eq_getElem hi]
        exact ⟨_, hfront _ (List.getElem_mem hi), mem_window hthere (by omega) (by omega)⟩
    obtain ⟨s, ⟨c, hc, hink⟩, hs⟩ := hnear
    exact ⟨c, PyText.mem_intercalate hs hc, hink⟩

/-! ## Evidence -/

structure Evidence (F : Type) where
  content : String
  source : Value F
  company : Value F
  confidence : F
  metadata : Metadata F

variable {F : Type}

/-- The fields an evidence takes over from its result. -/
def evidenceFields : List String :=
  ["retrieval_strategy", "rrf_score", "vector_rank", "bm25_rank", "bm25_score", "page", "section",
    "ocr_used", "parser_version", "chunker_version", "embedding_model", "embedding_revision",
    "content_sha256"]

/-- One turn of the loop over the fields: `None` is not copied. -/
def copyField (r : SearchResult F) (m : Metadata F) (field : String) : Metadata F :=
  match r.metadata.read field with
  | .none => m
  | value => m.set field value

/-- `evidence_metadata`, for the result at position `index`. -/
def evidenceMetadata (r : SearchResult F) (index : Nat) : Metadata F :=
  evidenceFields.foldl (copyField r)
    (Dict.ofList [("rank", .int (index + 1 : Nat)), ("chunk_id", .str r.chunkId),
      ("document_id", .str r.documentId)])

/-- Copying a list of fields leaves the keys that are not among them. -/
theorem get_foldl_copyField (r : SearchResult F) (fields : List String) (m : Metadata F)
    (key : String) (hkey : key ∉ fields) : (fields.foldl (copyField r) m).get key = m.get key := by
  induction fields generalizing m with
  | nil => rfl
  | cons field fields ih =>
    have hne : key ≠ field := fun h => hkey (h ▸ List.mem_cons_self)
    have hrest : key ∉ fields := fun h => hkey (List.mem_cons_of_mem _ h)
    rw [List.foldl_cons, ih _ hrest]
    unfold copyField
    split
    · rfl
    · rw [Dict.get_set, if_neg hne]

/-- **Rank and identity of an evidence are its result's**, whatever the copied fields hold. -/
theorem evidenceMetadata_identity (r : SearchResult F) (index : Nat) :
    (evidenceMetadata r index).get "rank" = some (.int (index + 1 : Nat)) ∧
    (evidenceMetadata r index).get "chunk_id" = some (.str r.chunkId) ∧
    (evidenceMetadata r index).get "document_id" = some (.str r.documentId) := by
  refine ⟨?_, ?_, ?_⟩
  · rw [evidenceMetadata, get_foldl_copyField _ _ _ _ (by decide)]
    rfl
  · rw [evidenceMetadata, get_foldl_copyField _ _ _ _ (by decide)]
    rfl
  · rw [evidenceMetadata, get_foldl_copyField _ _ _ _ (by decide)]
    rfl

variable [PyFloat F]

/-- `_evidence_confidence`. -/
def evidenceConfidence (r : SearchResult F) : F :=
  let relevance :=
    match explicitScore r with
    | some x => x
    | none =>
      if (r.metadata.read "score_semantics").eq (.str "distance") then distanceRelevance r.score
      else r.score
  PyFloat.round (atMostOne (atLeastZero relevance)) 4

/-- The evidence of one result. -/
def evidenceOf (T : PyText) (ctx : RetrievalContext F) (r : SearchResult F) (index : Nat) :
    Evidence F where
  content := extractLocalContext T r.content ctx.question 2
  source := (r.metadata.get "source").getD (.str "")
  company := (r.metadata.get "company").getD (.str (ctx.company.getD ""))
  confidence := evidenceConfidence r
  metadata := evidenceMetadata r index

/-- `retrieve_evidence`. -/
def retrieveEvidence (R : HybridRetriever F) (ctx : RetrievalContext F) (store : EmbeddingStore F) :
    Except String (List (Evidence F)) := do
  let results ← retrieve R ctx store
  return results.zipIdx.map fun item => evidenceOf R.text ctx item.1 item.2

end FinancialRag.Retrieval
