/-
  What OCR text is worth keeping (`document_loader.py`).

  The alphanumeric characters of a text are cut into tokens in ONE PASS, with a buffer and the class of what is in
  it.  The class is forgotten where a gap empties the buffer but not where a character of the other class does, so
  it is right exactly as long as the buffer holds something (`TokenState.Flagged`), which is when it is asked for.
  The tokens are the maximal runs of one class (`cuts_ocrAlphanumericTokens`).

  A block is judged by shares of characters and of tokens.  None of the divisions is by zero, and the shares are
  shares (`ocr_tokens_exact`).
-/
import FinancialRag.Lib.ClassRuns
import FinancialRag.Lib.Dict
import FinancialRag.Lib.FloatFormat
import FinancialRag.Lib.PyList
import FinancialRag.Lib.PyStr

set_option linter.unusedVariables false

namespace FinancialRag.Ingestion.Ocr

open ClassRuns

/-! ## Tokens -/

/-- What the interpreter knows about characters. -/
structure UnicodeTables where
  /-- `unicodedata.normalize("NFKC", ·)` -/
  nfkc : PyStr → PyStr
  /-- `str.isalnum` -/
  isAlnum : CodePoint → Bool
  /-- `unicodedata.category` -/
  category : CodePoint → String
  /-- `str.casefold` -/
  casefold : CodePoint → PyStr
  isAlnum_not_space : ∀ c, isAlnum c = true → PyStr.isSpace c = false

/-- `_CJK.fullmatch`. -/
def isCjk (c : CodePoint) : Bool := decide (0x3400 ≤ c.val) && decide (c.val ≤ 0x9fff)

structure TokenState where
  tokens : List PyStr
  current : PyStr
  currentIsCjk : Option Bool

variable (U : UnicodeTables)

/-- One character. -/
def tokenStep (s : TokenState) (c : CodePoint) : TokenState :=
  if !U.isAlnum c then
    if s.current ≠ [] then ⟨s.tokens ++ [s.current], [], none⟩ else s
  else if s.current ≠ [] ∧ some (isCjk c) ≠ s.currentIsCjk then
    ⟨s.tokens ++ [s.current], [c], some (isCjk c)⟩
  else ⟨s.tokens, s.current ++ [c], some (isCjk c)⟩

/-- What is in the buffer at the end is a token too. -/
def TokenState.finish (s : TokenState) : List PyStr :=
  if s.current ≠ [] then s.tokens ++ [s.current] else s.tokens

/-- `_ocr_alphanumeric_tokens`. -/
def ocrAlphanumericTokens (text : PyStr) : List PyStr := (text.foldl (tokenStep U) ⟨[], [], none⟩).finish

/-- The class is that of what the buffer holds. -/
def TokenState.Flagged (s : TokenState) : Prop :=
  ∀ c ∈ s.current, U.isAlnum c = true ∧ s.currentIsCjk = some (isCjk c)

variable {U}

theorem TokenState.Flagged.isRun {s : TokenState} (h : s.Flagged U) (hne : s.current ≠ []) :
    ∃ k, s.currentIsCjk = some k ∧ IsRun U.isAlnum isCjk k s.current := by
  obtain ⟨c, rest, hcurrent⟩ := List.exists_cons_of_ne_nil hne
  have hflag := (h c (by rw [hcurrent]; exact List.mem_cons_self)).2
  refine ⟨isCjk c, hflag, hne, fun d hd => (h d hd).1, fun d hd => ?_⟩
  exact (Option.some.inj (hflag.symm.trans (h d hd).2)).symm

/-- **The pass over the rest of a text** cuts the buffer and the rest. -/
theorem cuts_foldl {s : TokenState} (h : s.Flagged U) (rest : PyStr) :
    ∃ tokens, (rest.foldl (tokenStep U) s).finish = s.tokens ++ tokens ∧
      Cuts U.isAlnum isCjk (s.current ++ rest) tokens := by
  induction rest generalizing s with
  | nil =>
    by_cases hne : s.current = []
    · refine ⟨[], ?_, ?_⟩
      · rw [List.foldl_nil, TokenState.finish, if_neg (not_not.mpr hne), List.append_nil]
      · rw [hne]
        exact .nil
    · obtain ⟨k, -, hrun⟩ := h.isRun hne
      refine ⟨[s.current], ?_, .run hrun ?_ .nil⟩
      · rw [List.foldl_nil, TokenState.finish, if_pos hne]
      · intro c hc
        cases hc
  | cons c rest ih =>
    rw [List.foldl_cons]
    cases halnum : U.isAlnum c with
    | false =>
      have hstep : tokenStep U s c = if s.current ≠ [] then ⟨s.tokens ++ [s.current], [], none⟩ else s := by
        rw [tokenStep, halnum]
        rfl
      by_cases hne : s.current = []
      · rw [hstep, if_neg (not_not.mpr hne)]
        obtain ⟨tokens, hfinish, hcuts⟩ := ih h
        refine ⟨tokens, hfinish, ?_⟩
        rw [hne] at hcuts ⊢
        exact .skip halnum hcuts
      · rw [hstep, if_pos hne]
        obtain ⟨k, -, hrun⟩ := h.isRun hne
        obtain ⟨tokens, hfinish, hcuts⟩ := ih (s := ⟨s.tokens ++ [s.current], [], none⟩) fun d hd => by cases hd
        refine ⟨s.current :: tokens, ?_, .run hrun ?_ (.skip halnum hcuts)⟩
        · rw [hfinish, List.append_assoc]
          rfl
        · rintro d hd hkept
          obtain rfl := Option.some.inj hd
          rw [halnum] at hkept
          cases hkept
    | true =>
      have hstep : tokenStep U s c = if s.current ≠ [] ∧ some (isCjk c) ≠ s.currentIsCjk
          then ⟨s.tokens ++ [s.current], [c], some (isCjk c)⟩
          else ⟨s.tokens, s.current ++ [c], some (isCjk c)⟩ := by
        rw [tokenStep, halnum]
        rfl
      by_cases hcut : s.current ≠ [] ∧ some (isCjk c) ≠ s.currentIsCjk
      · rw [hstep, if_pos hcut]
        obtain ⟨k, hflag, hrun⟩ := h.isRun hcut.1
        obtain ⟨tokens, hfinish, hcuts⟩ := ih (s := ⟨s.tokens ++ [s.current], [c], some (isCjk c)⟩) fun d hd => by
          rw [List.mem_singleton.mp hd]
          exact ⟨halnum, rfl⟩
        refine ⟨s.current :: tokens, ?_, .run hrun ?_ hcuts⟩
        · rw [hfinish, List.append_assoc]
          rfl
        · rintro d hd - rfl
          obtain rfl := Option.some.inj hd
          exact hcut.2 hflag.symm
      · rw [hstep, if_neg hcut]
        -- the buffer was empty, or its class is that of the character
        obtain ⟨tokens, hfinish, hcuts⟩ := ih (s := ⟨s.tokens, s.current ++ [c], some (isCjk c)⟩) fun d hd => by
          rcases List.mem_append.mp hd with hd | hd
          · have hflag : some (isCjk c) = s.currentIsCjk :=
              not_not.mp fun habs => hcut ⟨List.ne_nil_of_mem hd, habs⟩
            exact ⟨(h d hd).1, hflag.trans (h d hd).2⟩
          · rw [List.mem_singleton.mp hd]
            exact ⟨halnum, rfl⟩
        refine ⟨tokens, hfinish, ?_⟩
        rw [List.append_assoc] at hcuts
        exact hcuts

/-- **The tokens are the maximal runs of one class.** -/
theorem cuts_ocrAlphanumericTokens (U : UnicodeTables) (text : PyStr) :
    Cuts U.isAlnum isCjk text (ocrAlphanumericTokens U text) := by
  obtain ⟨tokens, hfinish, hcuts⟩ := cuts_foldl (U := U) (s := ⟨[], [], none⟩) (fun d hd => by cases hd) text
  rw [ocrAlphanumericTokens, hfinish]
  exact hcuts

/-- The tables restricted to ASCII and the CJK characters. -/
def UnicodeTables.plain : UnicodeTables where
  nfkc := id
  isAlnum c := ((decide (48 ≤ c.val) && decide (c.val ≤ 57)) || (decide (65 ≤ c.val) && decide (c.val ≤ 90)) ||
    (decide (97 ≤ c.val) && decide (c.val ≤ 122)) || isCjk c) && !PyStr.isSpace c
  category _ := "Lo"
  casefold c := [if 65 ≤ c.val ∧ c.val ≤ 90 then Fin.ofNat _ (c.val + 32) else c]
  isAlnum_not_space c h := by
    rw [Bool.and_eq_true, Bool.not_eq_true'] at h
    exact h.2

example : ocrAlphanumericTokens .plain (PyStr.ofString "ab, 中文c") =
    [PyStr.ofString "ab", PyStr.ofString "中文", PyStr.ofString "c"] := by decide

/-! ## Shares -/

inductive OcrFailure where
  | zeroDivisionError
  /-- `max` of nothing -/
  | valueError

/-- The `float` nearest to a number. -/
def float (q : ℚ) : ℚ := FloatFormat.binary64.round q

/-- `part / whole` -/
def share (part whole : Nat) : Except OcrFailure ℚ :=
  if whole = 0 then .error .zeroDivisionError else .ok (float ((part : ℚ) / whole))

theorem share_ok {part whole : Nat} (h : whole ≠ 0) (hle : part ≤ whole) :
    ∃ r, share part whole = .ok r ∧ 0 ≤ r ∧ r ≤ 1 := by
  have hpos : (0 : ℚ) < whole := by exact_mod_cast Nat.pos_of_ne_zero h
  refine ⟨_, if_neg h, FloatFormat.round_mem_unit (by decide) ?_ ?_⟩
  · exact div_nonneg (Nat.cast_nonneg part) hpos.le
  · exact (div_le_one hpos).mpr (by exact_mod_cast hle)

/-! ## `_is_usable_ocr_block` -/

section Usable

variable (U : UnicodeTables)

def isBad (c : CodePoint) : Bool :=
  c.val == 0xfffd || ["Cc", "Cf", "Cs", "Co", "Cn"].contains (U.category c)

/-- `_has_consecutive_bad_characters`, with the number of bad characters before. -/
def hasConsecutiveBadCharacters : Nat → PyStr → Bool
  | _, [] => false
  | consecutive, c :: rest =>
    let consecutive := if isBad U c then consecutive + 1 else 0
    if 3 ≤ consecutive then true else hasConsecutiveBadCharacters consecutive rest

def visible (normalized : PyStr) : PyStr := normalized.filter fun c => !PyStr.isSpace c

def alphanumeric (normalized : PyStr) : PyStr := (visible normalized).filter U.isAlnum

/-- How often each character is there, whatever its case. -/
def characterCounts (characters : PyStr) : Dict PyStr Nat :=
  characters.foldl (fun counts c => counts.set (U.casefold c) ((counts.get (U.casefold c)).getD 0 + 1)) .empty

/-- `max(character_counts.values())` -/
def greatestCount (characters : PyStr) : Except OcrFailure Nat :=
  match (characterCounts U characters).values.max? with
  | none => .error .valueError
  | some count => .ok count

/-- `sum(len(token) for token in tokens if len(token) >= 2)` -/
def usefulAlphanumeric (tokens : List PyStr) : Nat :=
  (tokens.filter fun token => decide (2 ≤ token.length)).flatten.length

/-- `useful_alphanumeric_ratio` -/
def usefulAlphanumericRatio (normalized : PyStr) : Except OcrFailure ℚ :=
  share (usefulAlphanumeric (ocrAlphanumericTokens U normalized)) (alphanumeric U normalized).length

/-- Two bad characters or more, and too many. -/
def hasTooManyBadCharacters (normalized : PyStr) : Except OcrFailure Bool :=
  let badCharacters := (visible normalized).filter (isBad U)
  if 2 ≤ badCharacters.length then
    (share badCharacters.length (visible normalized).length).map fun r => decide (float (5 / 100) < r)
  else .ok false

/-- One character is most of the block. -/
def isDominated (normalized : PyStr) : Except OcrFailure Bool :=
  if 12 ≤ (visible normalized).length then do
    let count ← greatestCount U (visible normalized)
    let r ← share count (visible normalized).length
    return decide (float (60 / 100) ≤ r)
  else .ok false

/-- A long block with too few letters and digits. -/
def lacksAlphanumeric (normalized : PyStr) : Except OcrFailure Bool :=
  if 40 ≤ (visible normalized).length then
    (share (alphanumeric U normalized).length (visible normalized).length).map fun r => decide (r < float (65 / 100))
  else .ok false

/-- What is asked of six tokens or more. -/
def hasUsableTokens (normalized : PyStr) : Except OcrFailure Bool := do
  let tokens := ocrAlphanumericTokens U normalized
  if tokens.length < 6 then return true
  let cjk ← share ((alphanumeric U normalized).filter isCjk).length (alphanumeric U normalized).length
  if float (20 / 100) ≤ cjk then return true
  let single ← share (tokens.filter fun token => decide (token.length = 1)).length tokens.length
  let useful ← usefulAlphanumericRatio U normalized
  return if 200 ≤ (visible normalized).length then
      decide (single ≤ float (25 / 100)) && decide (float (90 / 100) ≤ useful)
    else decide (single ≤ float (40 / 100)) && decide (float (85 / 100) ≤ useful)

/-- `_is_usable_ocr_block`. -/
def isUsableOcrBlock (text : PyStr) : Except OcrFailure Bool := do
  let normalized := U.nfkc text
  if (visible normalized).isEmpty then return false
  if (alphanumeric U normalized).isEmpty then return false
  if hasConsecutiveBadCharacters U 0 (visible normalized) then return false
  if ← hasTooManyBadCharacters U normalized then return false
  if ← isDominated U normalized then return false
  if ← lacksAlphanumeric U normalized then return false
  hasUsableTokens U normalized

end Usable

/-! ## No division is by zero -/

/-- A letter or digit is visible. -/
theorem alphanumeric_eq (normalized : PyStr) : alphanumeric U normalized = normalized.filter U.isAlnum := by
  rw [alphanumeric, visible, List.filter_filter]
  refine List.filter_congr fun c _ => ?_
  cases halnum : U.isAlnum c with
  | false => rfl
  | true =>
    rw [U.isAlnum_not_space c halnum]
    rfl

/-- **The tokens have as many characters as there are letters and digits.** -/
theorem usefulAlphanumeric_le (normalized : PyStr) :
    usefulAlphanumeric (ocrAlphanumericTokens U normalized) ≤ (alphanumeric U normalized).length := by
  rw [alphanumeric_eq, ← (cuts_ocrAlphanumericTokens U normalized).flatten_eq]
  exact (List.filter_sublist.flatten).length_le

theorem usefulAlphanumericRatio_ok {normalized : PyStr} (h : alphanumeric U normalized ≠ []) :
    ∃ r, usefulAlphanumericRatio U normalized = .ok r ∧ 0 ≤ r ∧ r ≤ 1 :=
  share_ok (mt List.length_eq_zero_iff.mp h) (usefulAlphanumeric_le normalized)

/-- A step that returns, before steps that do. -/
theorem bind_ok {α β : Type} {x : Except OcrFailure α} {f : α → Except OcrFailure β} (hx : ∃ a, x = .ok a)
    (hf : ∀ a, ∃ b, f a = .ok b) : ∃ b, (x >>= f) = .ok b := by
  obtain ⟨a, rfl⟩ := hx
  exact hf a

theorem map_ok {α β : Type} {x : Except OcrFailure α} {f : α → β} (hx : ∃ a, x = .ok a) :
    ∃ b, x.map f = .ok b := by
  obtain ⟨a, rfl⟩ := hx
  exact ⟨f a, rfl⟩

theorem share_returns {part whole : Nat} (h : whole ≠ 0) : ∃ r, share part whole = .ok r := ⟨_, if_neg h⟩

theorem greatestCount_ok {characters : PyStr} (h : characters ≠ []) :
    ∃ count, greatestCount U characters = .ok count := by
  -- the last character is counted
  obtain ⟨before, c, rfl⟩ : ∃ before c, characters = before ++ [c] :=
    ⟨_, _, (List.dropLast_append_getLast h).symm⟩
  obtain ⟨count, hcount⟩ : ∃ count, (characterCounts U (before ++ [c])).get (U.casefold c) = some count := by
    rw [characterCounts, List.foldl_append]
    exact ⟨_, by rw [List.foldl_cons, List.foldl_nil, Dict.get_set, if_pos rfl]⟩
  have hmem : count ∈ (characterCounts U (before ++ [c])).values :=
    List.mem_map_of_mem (f := Prod.snd) (Dict.mem_entries_of_get hcount)
  unfold greatestCount
  cases hmax : (characterCounts U (before ++ [c])).values.max? with
  | none =>
    rw [List.max?_eq_none_iff] at hmax
    rw [hmax] at hmem
    cases hmem
  | some greatest => exact ⟨greatest, rfl⟩

section Returns

variable {normalized : PyStr}

theorem hasTooManyBadCharacters_ok (h : visible normalized ≠ []) :
    ∃ b, hasTooManyBadCharacters U normalized = .ok b := by
  unfold hasTooManyBadCharacters
  dsimp only
  split
  · exact map_ok (share_returns (mt List.length_eq_zero_iff.mp h))
  · exact ⟨false, rfl⟩

theorem isDominated_ok (h : visible normalized ≠ []) : ∃ b, isDominated U normalized = .ok b := by
  unfold isDominated
  split
  · refine bind_ok (greatestCount_ok h) fun count => ?_
    exact bind_ok (share_returns (mt List.length_eq_zero_iff.mp h)) fun r => ⟨_, rfl⟩
  · exact ⟨false, rfl⟩

theorem lacksAlphanumeric_ok (h : visible normalized ≠ []) : ∃ b, lacksAlphanumeric U normalized = .ok b := by
  unfold lacksAlphanumeric
  split
  · exact map_ok (share_returns (mt List.length_eq_zero_iff.mp h))
  · exact ⟨false, rfl⟩

theorem hasUsableTokens_ok (h : alphanumeric U normalized ≠ []) : ∃ b, hasUsableTokens U normalized = .ok b := by
  have hlength : (alphanumeric U normalized).length ≠ 0 := mt List.length_eq_zero_iff.mp h
  unfold hasUsableTokens
  dsimp only
  split
  · exact ⟨true, rfl⟩
  · rename_i hsix
    refine bind_ok (share_returns hlength) fun cjk => ?_
    split
    · exact ⟨true, rfl⟩
    · refine bind_ok (share_returns (by omega)) fun single => ?_
      obtain ⟨useful, huseful, -⟩ := usefulAlphanumericRatio_ok h
      exact bind_ok ⟨useful, huseful⟩ fun r => ⟨_, rfl⟩

end Returns

/-- **The gate decides**, whatever the text. -/
theorem isUsableOcrBlock_ok (U : UnicodeTables) (text : PyStr) : ∃ b, isUsableOcrBlock U text = .ok b := by
  unfold isUsableOcrBlock
  dsimp only
  split
  · exact ⟨false, rfl⟩
  rename_i hvisible
  split
  · exact ⟨false, rfl⟩
  rename_i halphanumeric
  have hvisible' : visible (U.nfkc text) ≠ [] := fun heq => hvisible (by rw [heq]; rfl)
  have halphanumeric' : alphanumeric U (U.nfkc text) ≠ [] := fun heq => halphanumeric (by rw [heq]; rfl)
  split
  · exact ⟨false, rfl⟩
  refine bind_ok (hasTooManyBadCharacters_ok hvisible') fun bad => ?_
  split
  · exact ⟨false, rfl⟩
  refine bind_ok (isDominated_ok hvisible') fun dominated => ?_
  split
  · exact ⟨false, rfl⟩
  refine bind_ok (lacksAlphanumeric_ok hvisible') fun lacks => ?_
  split
  · exact ⟨false, rfl⟩
  · exact hasUsableTokens_ok halphanumeric'

/-- **The tokens are exact, and the shares are shares.** -/
theorem ocr_tokens_exact (U : UnicodeTables) (text : PyStr) :
    (∀ token ∈ ocrAlphanumericTokens U text, token ≠ []) ∧
    (ocrAlphanumericTokens U text).flatten = text.filter U.isAlnum ∧
    (∀ token ∈ ocrAlphanumericTokens U text,
      (∀ c ∈ token, isCjk c = true) ∨ (∀ c ∈ token, isCjk c = false)) ∧
    (∀ tokensBefore first second tokensAfter,
      ocrAlphanumericTokens U text = tokensBefore ++ first :: second :: tokensAfter →
        ∃ before gap after, text = before ++ first ++ gap ++ second ++ after ∧
          tokensBefore.flatten = before.filter U.isAlnum ∧ (∀ c ∈ gap, U.isAlnum c = false) ∧
          (gap = [] → ∀ c ∈ first, ∀ d ∈ second, isCjk c ≠ isCjk d)) ∧
    (∃ usable, isUsableOcrBlock U text = .ok usable) ∧
    (alphanumeric U (U.nfkc text) ≠ [] →
      ∃ ratio, usefulAlphanumericRatio U (U.nfkc text) = .ok ratio ∧ 0 ≤ ratio ∧ ratio ≤ 1) := by
  have hcuts := cuts_ocrAlphanumericTokens U text
  refine ⟨?_, hcuts.flatten_eq, ?_, ?_, isUsableOcrBlock_ok U text, usefulAlphanumericRatio_ok⟩
  · intro token htoken
    obtain ⟨_, hrun⟩ := hcuts.isRun htoken
    exact hrun.nonempty
  · intro token htoken
    obtain ⟨k, hrun⟩ := hcuts.isRun htoken
    cases k with
    | true => exact Or.inl hrun.kind
    | false => exact Or.inr hrun.kind
  · intro tokensBefore first second tokensAfter htokens
    obtain ⟨before, gap, after, htext, hbefore, hgap, hkind⟩ := hcuts.adjacent htokens
    exact ⟨before, gap, after, htext, hbefore.flatten_eq, hgap, hkind⟩

end FinancialRag.Ingestion.Ocr
