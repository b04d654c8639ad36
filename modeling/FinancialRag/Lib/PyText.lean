/-
  **Text as Python code uses it** — a small library of its own.

  A `str` is a sequence of code points, so the operations are functions on `List Char`.  What depends
  on the Unicode tables of the interpreter (case folding, normalization, the character classes of
  `re`) is collected in `PyText` and left arbitrary: a result proved for every `PyText` holds for
  every version of those tables.  `PyText.ascii` agrees with all of them on ASCII text and is what
  concrete texts are evaluated with.
-/
import Mathlib.Data.List.DropRight

set_option linter.unusedVariables false

/-- The Unicode-dependent operations. -/
structure PyText where
  /-- `str.casefold` -/
  casefold : String → String
  /-- `str.lower` -/
  lower : String → String
  /-- `unicodedata.normalize("NFKC", ·)` -/
  nfkc : String → String
  /-- `\s`, and what `str.strip` strips -/
  isSpace : Char → Bool
  /-- `\w` -/
  isWord : Char → Bool
  /-- `\d` -/
  isDecimal : Char → Bool
  /-- two characters match each other under `re.IGNORECASE` -/
  sameCaseless : Char → Char → Bool

namespace PyText

def asciiLower (s : String) : String := String.ofList (s.toList.map Char.toLower)

/-- The tables restricted to ASCII. -/
def ascii : PyText where
  casefold := asciiLower
  lower := asciiLower
  nfkc := id
  isSpace c := c == ' ' || (9 ≤ c.toNat && c.toNat ≤ 13) || (28 ≤ c.toNat && c.toNat ≤ 31)
  isWord c := c.isAlphanum || c == '_'
  isDecimal := Char.isDigit
  sameCaseless a b := a.toLower == b.toLower

/-- `re.findall` of a class with `+`: the maximal runs of characters in the class, left to right. -/
def runs (p : Char → Bool) (s : String) : List String :=
  ((s.toList.splitOnP fun c => !p c).filter fun run => !run.isEmpty).map String.ofList

/-- `re.sub` of a class with `+` by one character: each maximal run becomes `r`. -/
def squeeze (p : Char → Bool) (r : Char) : List Char → List Char
  | [] => []
  | c :: cs =>
    if p c then
      -- the replacement is written at the LAST character of the run
      if (cs.head?.any p) then squeeze p r cs else r :: squeeze p r cs
    else c :: squeeze p r cs

/-- `str.strip`. -/
def strip (T : PyText) (s : String) : String :=
  String.ofList ((s.toList.dropWhile T.isSpace).rdropWhile T.isSpace)

/-- `needle in hay`. -/
def isIn (needle hay : String) : Bool := hay.toList.tails.any needle.toList.isPrefixOf

/-- `s.replace(old, new)`, for a nonempty `old`: left to right, without overlaps. -/
def replaceList (old new : List Char) : List Char → List Char
  | [] => []
  | c :: cs =>
    if h : old ≠ [] ∧ old.isPrefixOf (c :: cs) then
      new ++ replaceList old new ((c :: cs).drop old.length)
    else c :: replaceList old new cs
  termination_by s => s.length
  decreasing_by
    · have hpos : 0 < old.length := List.length_pos_iff.mpr h.1
      rw [List.length_drop, List.length_cons]
      omega
    · simp

def replace (s old new : String) : String := String.ofList (replaceList old.toList new.toList s.toList)

/-- `str.lstrip`. -/
def lstrip (T : PyText) (s : String) : String := String.ofList (s.toList.dropWhile T.isSpace)

/-- `sep.join(parts)`. -/
def join (sep : String) (parts : List String) : String :=
  String.ofList (sep.toList.intercalate (parts.map String.toList))

/-- The parts of a text between the separators; the next `skip` characters belong to one, and `part` is
    the part being read, backwards. -/
def splitFrom (sep : List Char) : Nat → List Char → List Char → List (List Char)
  | _, part, [] => [part.reverse]
  | skip + 1, part, _ :: cs => splitFrom sep skip part cs
  | 0, part, c :: cs =>
    if sep.isPrefixOf (c :: cs) then part.reverse :: splitFrom sep (sep.length - 1) [] cs
    else splitFrom sep 0 (c :: part) cs

/-- `s.split(sep)`, for a nonempty `sep`. -/
def split (sep s : String) : List String := (splitFrom sep.toList 0 [] s.toList).map String.ofList

/-- `os.path.basename`. -/
def basename (path : String) : String := String.ofList (path.toList.rtakeWhile (· != '/'))

/-! ## Stripping -/

theorem head_dropWhile {p : Char → Bool} {l : List Char} (hl : 0 < (l.dropWhile p).length) :
    p (l.dropWhile p)[0] = false := by
  have h := List.dropWhile_get_zero_not p l hl
  simpa using h

/-- A stripped text has nothing to strip. -/
theorem strip_strip (T : PyText) (s : String) : T.strip (T.strip s) = T.strip s := by
  unfold strip
  rw [String.toList_ofList]
  congr 1
  have hpre := List.rdropWhile_prefix T.isSpace (s.toList.dropWhile T.isSpace)
  have hleft : ((s.toList.dropWhile T.isSpace).rdropWhile T.isSpace).dropWhile T.isSpace =
      (s.toList.dropWhile T.isSpace).rdropWhile T.isSpace := by
    rw [List.dropWhile_eq_self_iff]
    intro hl
    rw [hpre.getElem hl, head_dropWhile (hl.trans_le hpre.length_le)]
    exact Bool.false_ne_true
  rw [hleft, List.rdropWhile_idempotent]

theorem mem_of_mem_strip {T : PyText} {s : String} {c : Char} (h : c ∈ (T.strip s).toList) :
    c ∈ s.toList := by
  unfold strip at h
  rw [String.toList_ofList] at h
  exact (List.dropWhile_sublist _).mem ((List.rdropWhile_prefix _ _).mem h)

theorem mem_of_mem_lstrip {T : PyText} {s : String} {c : Char} (h : c ∈ (T.lstrip s).toList) :
    c ∈ s.toList := by
  unfold lstrip at h
  rw [String.toList_ofList] at h
  exact (List.dropWhile_sublist _).mem h

theorem mem_dropWhile {p : Char → Bool} {l : List Char} {c : Char} (hc : c ∈ l) (hp : p c = false) :
    c ∈ l.dropWhile p := by
  rw [← List.takeWhile_append_dropWhile (p := p) (l := l)] at hc
  rcases List.mem_append.mp hc with htake | hdrop
  · rw [List.mem_takeWhile_imp htake] at hp
    cases hp
  · exact hdrop

/-- A text with something to see in it. -/
def Inked (T : PyText) (s : String) : Prop := ∃ c ∈ s.toList, T.isSpace c = false

theorem inked_strip {T : PyText} {s : String} (h : T.Inked s) : T.Inked (T.strip s) := by
  obtain ⟨c, hc, hspace⟩ := h
  refine ⟨c, ?_, hspace⟩
  unfold strip
  rw [String.toList_ofList, List.rdropWhile, List.mem_reverse]
  exact mem_dropWhile (List.mem_reverse.mpr (mem_dropWhile hc hspace)) hspace

theorem Inked.ne_empty {T : PyText} {s : String} (h : T.Inked s) : s ≠ "" := by
  rintro rfl
  obtain ⟨c, hc, _⟩ := h
  simp at hc

theorem inked_of_strip_ne_empty {T : PyText} {s : String} (h : T.strip s ≠ "") : T.Inked s := by
  by_contra hnone
  have hall : ∀ c ∈ s.toList, T.isSpace c = true := by
    intro c hc
    by_contra hspace
    exact hnone ⟨c, hc, by simpa using hspace⟩
  have hdrop : s.toList.dropWhile T.isSpace = [] := List.dropWhile_eq_nil_iff.mpr hall
  apply h
  unfold strip
  rw [hdrop]
  rfl

/-- Every part is in what is joined of the parts. -/
theorem mem_intercalate {sep part : String} {parts : List String} (hpart : part ∈ parts) {c : Char}
    (hc : c ∈ part.toList) : c ∈ (sep.intercalate parts).toList := by
  induction parts with
  | nil => cases hpart
  | cons first rest ih =>
    cases rest with
    | nil =>
      obtain rfl := List.mem_singleton.mp hpart
      rwa [String.intercalate_singleton]
    | cons second rest =>
      rw [String.intercalate_cons_cons, String.toList_append, String.toList_append]
      rcases List.mem_cons.mp hpart with rfl | hrest
      · exact List.mem_append_left _ (List.mem_append_left _ hc)
      · exact List.mem_append_right _ (ih hrest)

theorem mem_squeeze {p : Char → Bool} {r c : Char} {l : List Char} (hc : c ∈ l) (hp : p c = false) :
    c ∈ squeeze p r l := by
  induction l with
  | nil => cases hc
  | cons x l ih =>
    rw [squeeze]
    rcases List.mem_cons.mp hc with rfl | htail
    · rw [hp]
      exact List.mem_cons_self
    · split
      · split
        · exact ih htail
        · exact List.mem_cons_of_mem _ (ih htail)
      · exact List.mem_cons_of_mem _ (ih htail)

/-- What every version of the tables promises about white space: it has the blank and the line break, and
    normalizing and case folding leave it white space and do not look across it. -/
structure Spaced (T : PyText) : Prop where
  blank : T.isSpace ' ' = true
  newline : T.isSpace '\n' = true
  nfkc_empty : T.nfkc "" = ""
  casefold_empty : T.casefold "" = ""
  nfkc_around : ∀ left s right : String, (∀ c ∈ left.toList, T.isSpace c = true) →
    (∀ c ∈ right.toList, T.isSpace c = true) →
    ∃ left' right' : String, T.nfkc (left ++ s ++ right) = left' ++ T.nfkc s ++ right' ∧
      (∀ c ∈ left'.toList, T.isSpace c = true) ∧ ∀ c ∈ right'.toList, T.isSpace c = true

theorem spaced_ascii : Spaced ascii where
  blank := rfl
  newline := rfl
  nfkc_empty := rfl
  casefold_empty := rfl
  nfkc_around left s right hleft hright := ⟨left, right, rfl, hleft, hright⟩

/-- What every version of the tables promises about the marks that end a sentence: none is white space. -/
structure Punctuated (T : PyText) : Prop where
  dot : T.isSpace '.' = false
  exclamation : T.isSpace '!' = false
  question : T.isSpace '?' = false

theorem punctuated_ascii : Punctuated ascii where
  dot := rfl
  exclamation := rfl
  question := rfl

/-- What every version of the tables promises about numbers: digits are word characters, white space and the
    punctuation of numbers are not, and no punctuation is white space. -/
structure Numeric (T : PyText) : Prop where
  decimal_word : ∀ c, T.isDecimal c = true → T.isWord c = true
  space_word : ∀ c, T.isSpace c = true → T.isWord c = false
  punctuation_word : ∀ c, "-+,.".toList.contains c = true → T.isWord c = false
  punctuation_space : ∀ c, "-+,.".toList.contains c = true → T.isSpace c = false
  particle_decimal : ∀ c, "从到增长".toList.contains c = true → T.isDecimal c = false

theorem numeric_ascii : Numeric ascii where
  decimal_word c h := by
    unfold ascii Char.isAlphanum
    dsimp only
    rw [show c.isDigit = true from h]
    simp
  space_word c h := by
    have hsmall : c.toNat ≤ 32 := by
      unfold ascii at h
      simp only [Bool.or_eq_true, Bool.and_eq_true, decide_eq_true_eq, beq_iff_eq] at h
      rcases h with (rfl | h) | h
      · exact Nat.le_refl 32
      · omega
      · omega
    -- letters, digits and the underscore stand behind the blank
    unfold ascii Char.isAlphanum Char.isAlpha Char.isUpper Char.isLower Char.isDigit
    have hne : c ≠ '_' := by
      rintro rfl
      exact absurd hsmall (by decide)
    have hval : c.val.toNat ≤ 32 := hsmall
    have hupper : 'A'.val.toNat = 65 := rfl
    have hlower : 'a'.val.toNat = 97 := rfl
    have hdigit : '0'.val.toNat = 48 := rfl
    simp only [Bool.or_eq_false_iff, Bool.and_eq_false_iff, decide_eq_false_iff_not,
      beq_eq_false_iff_ne, ne_eq, hne, not_false_eq_true, and_true, UInt32.le_iff_toNat_le, ge_iff_le]
    omega
  punctuation_word c h := by
    have hc : c = '-' ∨ c = '+' ∨ c = ',' ∨ c = '.' := by simpa using h
    rcases hc with rfl | rfl | rfl | rfl <;> rfl
  punctuation_space c h := by
    have hc : c = '-' ∨ c = '+' ∨ c = ',' ∨ c = '.' := by simpa using h
    rcases hc with rfl | rfl | rfl | rfl <;> rfl
  particle_decimal c h := by
    have hc : c = '从' ∨ c = '到' ∨ c = '增' ∨ c = '长' := by simpa using h
    rcases hc with rfl | rfl | rfl | rfl <;> rfl

/-- What every version of the tables promises: normalizing and case folding leave something to see. -/
structure Lawful (T : PyText) : Prop where
  nfkc : ∀ s, T.Inked s → T.Inked (T.nfkc s)
  casefold : ∀ s, s ≠ "" → T.casefold s ≠ ""

theorem lawful_ascii : Lawful ascii where
  nfkc _ h := h
  casefold s h := by
    intro hempty
    have hlist := congrArg String.toList hempty
    unfold ascii asciiLower at hlist
    rw [String.toList_ofList] at hlist
    exact h (String.toList_injective (List.map_eq_nil_iff.mp hlist))

/-! ## Texts with nothing to strip -/

/-- A text without white space at either end. -/
structure Trimmed (T : PyText) (l : List Char) : Prop where
  first : ∀ c ∈ l.head?, T.isSpace c = false
  last : ∀ c ∈ l.getLast?, T.isSpace c = false

section Trimmed

variable {T : PyText} {l l' : List Char}

theorem toList_strip (s : String) :
    (T.strip s).toList = (s.toList.dropWhile T.isSpace).rdropWhile T.isSpace := by
  unfold strip
  rw [String.toList_ofList]

theorem toList_lstrip (s : String) : (T.lstrip s).toList = s.toList.dropWhile T.isSpace := by
  unfold lstrip
  rw [String.toList_ofList]

/-- A text is what stripping leaves, with white space on both sides. -/
theorem exists_strip (T : PyText) (s : String) :
    ∃ right, s.toList = s.toList.takeWhile T.isSpace ++ (T.strip s).toList ++ right ∧
      ∀ c ∈ right, T.isSpace c = true := by
  refine ⟨(s.toList.dropWhile T.isSpace).rtakeWhile T.isSpace, ?_, ?_⟩
  · rw [toList_strip, List.append_assoc, List.rdropWhile_append_rtakeWhile,
      List.takeWhile_append_dropWhile]
  · exact fun c hc => List.mem_rtakeWhile_imp hc

theorem getLast?_of_suffix (h : l' <:+ l) (hne : l' ≠ []) : l.getLast? = l'.getLast? := by
  obtain ⟨before, rfl⟩ := h
  rw [List.getLast?_append_of_ne_nil before hne]

/-- Stripping on the left trims a text that does not end in white space. -/
theorem trimmed_dropWhile (hlast : ∀ c ∈ l.getLast?, T.isSpace c = false) :
    Trimmed T (l.dropWhile T.isSpace) where
  first c hc := by
    have hnot := List.head?_dropWhile_not T.isSpace l
    rw [hc] at hnot
    simpa using hnot
  last c hc := by
    have hne : l.dropWhile T.isSpace ≠ [] := by
      intro hnil
      rw [hnil] at hc
      cases hc
    rw [← getLast?_of_suffix (List.dropWhile_suffix T.isSpace) hne] at hc
    exact hlast c hc

theorem trimmed_strip (s : String) : Trimmed T (T.strip s).toList where
  first c hc := by
    rw [toList_strip] at hc
    obtain ⟨after, hafter⟩ := List.rdropWhile_prefix T.isSpace (s.toList.dropWhile T.isSpace)
    have hnot := List.head?_dropWhile_not T.isSpace s.toList
    rw [← hafter, List.mem_head?_append_of_mem_head? hc] at hnot
    simpa using hnot
  last c hc := by
    rw [toList_strip] at hc
    have hne : (s.toList.dropWhile T.isSpace).rdropWhile T.isSpace ≠ [] := by
      intro hnil
      rw [hnil] at hc
      cases hc
    rw [List.getLast?_eq_some_getLast hne] at hc
    obtain rfl := Option.some.inj hc
    have hnot := List.rdropWhile_last_not T.isSpace _ hne
    simpa using hnot

theorem Trimmed.dropWhile_eq (h : Trimmed T l) : l.dropWhile T.isSpace = l := by
  cases l with
  | nil => rfl
  | cons c l => exact List.dropWhile_cons_of_neg (by simp [h.first c rfl])

theorem Trimmed.rdropWhile_eq (h : Trimmed T l) : l.rdropWhile T.isSpace = l := by
  rw [List.rdropWhile_eq_self_iff]
  intro hne hspace
  rw [h.last _ (List.getLast?_eq_some_getLast hne)] at hspace
  cases hspace

theorem Trimmed.strip_eq {s : String} (h : Trimmed T s.toList) : T.strip s = s := by
  apply String.toList_injective
  rw [toList_strip, h.dropWhile_eq, h.rdropWhile_eq]

/-- White space in front of a trimmed text is all that is stripped. -/
theorem Trimmed.strip_append_space {space s : String} (h : Trimmed T s.toList)
    (hspace : ∀ c ∈ space.toList, T.isSpace c = true) : T.strip (space ++ s) = s := by
  apply String.toList_injective
  rw [toList_strip, String.toList_append, List.dropWhile_append_of_pos hspace, h.dropWhile_eq,
    h.rdropWhile_eq]

/-- What stands between two trimmed texts is not stripped. -/
theorem Trimmed.append (h : Trimmed T l) (h' : Trimmed T l') (hne : l ≠ []) (hne' : l' ≠ [])
    (middle : List Char) : Trimmed T (l ++ middle ++ l') where
  first c hc := by
    rw [List.append_assoc, List.head?_append_of_ne_nil _ hne] at hc
    exact h.first c hc
  last c hc := by
    rw [List.getLast?_append_of_ne_nil _ hne'] at hc
    exact h'.last c hc

/-- The end of a trimmed text has nothing to strip on its right. -/
theorem Trimmed.suffix (h : Trimmed T l) (hl : l' <:+ l) : ∀ c ∈ l'.getLast?, T.isSpace c = false := by
  intro c hc
  have hne : l' ≠ [] := by
    rintro rfl
    cases hc
  rw [← getLast?_of_suffix hl hne] at hc
  exact h.last c hc

/-- A text that does not end in white space has something to see in it. -/
theorem dropWhile_ne_nil (hne : l ≠ []) (hlast : ∀ c ∈ l.getLast?, T.isSpace c = false) :
    l.dropWhile T.isSpace ≠ [] := by
  intro hnil
  have hspace := List.dropWhile_eq_nil_iff.mp hnil _ (List.getLast_mem hne)
  rw [hlast _ (List.getLast?_eq_some_getLast hne)] at hspace
  cases hspace

/-- The visible characters of a text. -/
def ink (T : PyText) (l : List Char) : List Char := l.filter fun c => !T.isSpace c

@[simp] theorem ink_nil : T.ink [] = [] := rfl

@[simp] theorem ink_append (l l' : List Char) : T.ink (l ++ l') = T.ink l ++ T.ink l' :=
  List.filter_append l l'

theorem ink_space (h : ∀ c ∈ l, T.isSpace c = true) : T.ink l = [] := by
  refine List.filter_eq_nil_iff.mpr ?_
  intro c hc
  simp [h c hc]

theorem ink_dropWhile (l : List Char) : T.ink (l.dropWhile T.isSpace) = T.ink l := by
  calc T.ink (l.dropWhile T.isSpace)
      = T.ink (l.takeWhile T.isSpace) ++ T.ink (l.dropWhile T.isSpace) := by
        rw [ink_space (l := l.takeWhile T.isSpace) fun c hc => List.mem_takeWhile_imp hc,
          List.nil_append]
    _ = T.ink l := by rw [← ink_append, List.takeWhile_append_dropWhile]

theorem ink_strip (s : String) : T.ink (T.strip s).toList = T.ink s.toList := by
  rw [toList_strip, List.rdropWhile, ink, List.filter_reverse, ← ink, ink_dropWhile, ink,
    List.filter_reverse, List.reverse_reverse]
  exact ink_dropWhile s.toList

end Trimmed
/-! ## Squeezing and stripping -/

section Squeeze

variable {p : Char → Bool} {r : Char}

theorem squeeze_run {run : List Char} (hrun : ∀ c ∈ run, p c = true) (hne : run ≠ []) :
    squeeze p r run = [r] := by
  induction run with
  | nil => exact absurd rfl hne
  | cons c run ih =>
    rw [squeeze, if_pos (hrun c List.mem_cons_self)]
    cases run with
    | nil => rfl
    | cons d run =>
      have hd : p d = true := hrun d (by simp)
      rw [if_pos (by simpa using hd)]
      exact ih (fun x hx => hrun x (List.mem_cons_of_mem _ hx)) (List.cons_ne_nil d run)

/-- A run at the end becomes one character, or belongs to the run before it. -/
theorem squeeze_append_run {run : List Char} (hrun : ∀ c ∈ run, p c = true) (l : List Char) :
    ∃ tail, (tail = [] ∨ tail = [r]) ∧ squeeze p r (l ++ run) = squeeze p r l ++ tail := by
  by_cases hne : run = []
  · subst hne
    exact ⟨[], Or.inl rfl, by rw [List.append_nil, List.append_nil]⟩
  · induction l with
    | nil => exact ⟨[r], Or.inr rfl, squeeze_run hrun hne⟩
    | cons c l ih =>
      obtain ⟨tail, htail, hsqueeze⟩ := ih
      rw [List.cons_append, squeeze, squeeze]
      by_cases hc : p c = true
      · rw [if_pos hc, if_pos hc]
        cases l with
        | nil =>
          have hhead : (run.head?.any p) = true := by
            rw [List.head?_eq_some_head hne]
            exact hrun _ (List.head_mem hne)
          rw [List.nil_append, if_pos hhead, squeeze_run hrun hne]
          exact ⟨[], Or.inl rfl, rfl⟩
        | cons d l =>
          rw [List.cons_append, List.head?_cons, List.head?_cons]
          rw [List.cons_append] at hsqueeze
          rw [hsqueeze]
          refine ⟨tail, htail, ?_⟩
          split <;> rfl
      · rw [if_neg hc, if_neg hc, hsqueeze]
        exact ⟨tail, htail, rfl⟩

theorem dropWhile_squeeze_run {run : List Char} (hrun : ∀ c ∈ run, p c = true) (hr : p r = true)
    (l : List Char) : (squeeze p r (run ++ l)).dropWhile p = (squeeze p r l).dropWhile p := by
  induction run with
  | nil => rfl
  | cons c run ih =>
    have hrest := ih fun x hx => hrun x (List.mem_cons_of_mem _ hx)
    rw [List.cons_append, squeeze, if_pos (hrun c List.mem_cons_self)]
    split
    · exact hrest
    · rw [List.dropWhile_cons_of_pos hr, hrest]

theorem rdropWhile_dropWhile_append {tail : List Char} (htail : ∀ c ∈ tail, p c = true)
    (l : List Char) :
    ((l ++ tail).dropWhile p).rdropWhile p = (l.dropWhile p).rdropWhile p := by
  rw [List.dropWhile_append]
  split
  · rename_i hnil
    rw [List.isEmpty_iff.mp hnil, List.dropWhile_eq_nil_iff.mpr htail]
  · have hreverse : ∀ c ∈ tail.reverse, p c = true := fun c hc => htail c (List.mem_reverse.mp hc)
    rw [List.rdropWhile, List.reverse_append, List.dropWhile_append_of_pos hreverse, ← List.rdropWhile]

/-- White space around a text makes no difference once it is squeezed and stripped. -/
theorem strip_squeeze_around {T : PyText} (hblank : T.isSpace ' ' = true) {left right : List Char}
    (hleft : ∀ c ∈ left, T.isSpace c = true) (hright : ∀ c ∈ right, T.isSpace c = true)
    (l : List Char) :
    T.strip (String.ofList (squeeze T.isSpace ' ' (left ++ l ++ right))) =
      T.strip (String.ofList (squeeze T.isSpace ' ' l)) := by
  obtain ⟨tail, htail, hsqueeze⟩ := squeeze_append_run (r := ' ') hright l
  have hspace : ∀ c ∈ tail, T.isSpace c = true := by
    intro c hc
    rcases htail with rfl | rfl
    · cases hc
    · obtain rfl := List.mem_singleton.mp hc
      exact hblank
  apply String.toList_injective
  rw [toList_strip, toList_strip, String.toList_ofList, String.toList_ofList, List.append_assoc,
    dropWhile_squeeze_run hleft hblank, hsqueeze, rdropWhile_dropWhile_append hspace]

end Squeeze

/-! ## Splitting and joining -/

section Split

variable {sep : List Char}

/-- In a part followed by the separator, the separator occurs at the end only. -/
def SepFree (sep part : List Char) : Prop := ∀ i < part.length, ¬ sep <+: (part ++ sep).drop i

theorem sepFree_of_notMem {c : Char} {part : List Char} (h : c ∉ part) : SepFree (c :: sep) part := by
  intro i hi hsep
  rw [List.drop_append_of_le_length hi.le, List.drop_eq_getElem_cons hi] at hsep
  obtain ⟨rfl, _⟩ := List.cons_prefix_cons.mp hsep
  exact h (List.getElem_mem hi)

/-- A part without a doubled `c`, and without one at its end, is free of doubled `c`s. -/
theorem sepFree_double {c : Char} {part : List Char} (h : ¬ [c, c] <:+: part)
    (hlast : c ∉ part.getLast?) : SepFree [c, c] part := by
  intro i hi hsep
  rw [List.drop_append_of_le_length hi.le, List.drop_eq_getElem_cons hi, List.cons_append,
    List.cons_prefix_cons] at hsep
  obtain ⟨hc, hrest⟩ := hsep
  by_cases hnext : i + 1 < part.length
  · rw [List.drop_eq_getElem_cons hnext, List.cons_append, List.cons_prefix_cons] at hrest
    refine h (List.IsInfix.trans ?_ (List.drop_suffix i part).isInfix)
    rw [List.drop_eq_getElem_cons hi, List.drop_eq_getElem_cons hnext, ← hc, ← hrest.1]
    exact (List.prefix_append [c, c] (part.drop (i + 1 + 1))).isInfix
  · have hend : part.length - 1 = i := by omega
    refine hlast ?_
    rw [List.getLast?_eq_getElem?, hend, List.getElem?_eq_getElem hi, ← hc]
    rfl

theorem SepFree.tail {c : Char} {part : List Char} (h : SepFree sep (c :: part)) : SepFree sep part := by
  intro i hi
  exact h (i + 1) (Nat.succ_lt_succ hi)

theorem splitFrom_nil (skip : Nat) (part : List Char) : splitFrom sep skip part [] = [part.reverse] := by
  cases skip with
  | zero => rfl
  | succ skip => rfl

theorem splitFrom_cons (part : List Char) (c : Char) (cs : List Char) :
    splitFrom sep 0 part (c :: cs) =
      if sep.isPrefixOf (c :: cs) then part.reverse :: splitFrom sep (sep.length - 1) [] cs
      else splitFrom sep 0 (c :: part) cs := rfl

/-- Such a part is read to its end. -/
theorem splitFrom_append {read part : List Char} (hpart : SepFree sep part) (rest : List Char) :
    splitFrom sep 0 read (part ++ sep ++ rest) = splitFrom sep 0 (part.reverse ++ read) (sep ++ rest) := by
  induction part generalizing read with
  | nil => rfl
  | cons c part ih =>
    have hnot : ¬ sep <+: c :: (part ++ sep ++ rest) := by
      intro hsep
      have hle : sep.length ≤ (c :: (part ++ sep)).length := by
        rw [List.length_cons, List.length_append]
        omega
      refine hpart 0 (Nat.zero_lt_succ _) ?_
      exact List.prefix_of_prefix_length_le hsep (List.prefix_append (c :: (part ++ sep)) rest) hle
    rw [List.cons_append, List.cons_append, splitFrom_cons, if_neg (by simpa using hnot), ih hpart.tail,
      List.reverse_cons, List.append_assoc]
    rfl

theorem splitFrom_skip {skipped read : List Char} (rest : List Char) :
    splitFrom sep skipped.length read (skipped ++ rest) = splitFrom sep 0 read rest := by
  induction skipped with
  | nil => rfl
  | cons c skipped ih => exact ih

/-- A separator ends the part. -/
theorem splitFrom_sep (hsep : sep ≠ []) (read rest : List Char) :
    splitFrom sep 0 read (sep ++ rest) = read.reverse :: splitFrom sep 0 [] rest := by
  cases sep with
  | nil => exact absurd rfl hsep
  | cons c sep =>
    rw [List.cons_append, splitFrom_cons, if_pos]
    · rw [List.length_cons, Nat.add_sub_cancel, splitFrom_skip]
    · rw [List.isPrefixOf_iff_prefix]
      exact ⟨rest, rfl⟩

/-- The last part has no separator behind it. -/
theorem splitFrom_last {read part : List Char} (hpart : SepFree sep part) :
    splitFrom sep 0 read part = [read.reverse ++ part] := by
  induction part generalizing read with
  | nil => rw [splitFrom_nil, List.append_nil]
  | cons c part ih =>
    have hnot : ¬ sep <+: c :: part := by
      intro hsep
      exact hpart 0 (Nat.zero_lt_succ _) (hsep.trans (List.prefix_append _ _))
    rw [splitFrom_cons, if_neg (by simpa using hnot), ih hpart.tail, List.reverse_cons, List.append_assoc]
    rfl

theorem splitFrom_intercalate (hsep : sep ≠ []) {l : List Char} {ls : List (List Char)}
    (hl : SepFree sep l) (hls : ∀ l ∈ ls, SepFree sep l) :
    splitFrom sep 0 [] (sep.intercalate (l :: ls)) = l :: ls := by
  induction ls generalizing l with
  | nil => rw [List.intercalate_singleton, splitFrom_last hl, List.reverse_nil, List.nil_append]
  | cons l' ls ih =>
    rw [List.intercalate_cons_cons, splitFrom_append hl, splitFrom_sep hsep,
      ih (hls l' List.mem_cons_self) fun x hx => hls x (List.mem_cons_of_mem _ hx)]
    simp

/-- What is read has no separator in it, if none begins there. -/
theorem not_infix_of_not_begins (read cs : List Char) (hsep : sep ≠ [])
    (hread : ∀ i < read.length, ¬ sep <+: (read ++ cs).drop i) : ¬ sep <:+: read := by
  rintro ⟨before, after, hparts⟩
  have hpos : 0 < sep.length := List.length_pos_iff.mpr hsep
  have hlength := congrArg List.length hparts
  rw [List.length_append, List.length_append] at hlength
  refine hread before.length (by omega) ?_
  rw [← hparts, List.append_assoc, List.append_assoc, List.drop_left]
  exact List.prefix_append _ _

/-- **No part has a separator in it.** -/
theorem not_infix_of_mem_splitFrom (hsep : sep ≠ []) {skip : Nat} {read cs l : List Char}
    (hskip : 0 < skip → read = []) (hread : ∀ i < read.length, ¬ sep <+: (read.reverse ++ cs).drop i)
    (hl : l ∈ splitFrom sep skip read cs) : ¬ sep <:+: l := by
  have hhere : ¬ sep <:+: read.reverse :=
    not_infix_of_not_begins read.reverse cs hsep (by simpa only [List.length_reverse] using hread)
  induction cs generalizing skip read with
  | nil =>
    rw [splitFrom_nil] at hl
    obtain rfl := List.mem_singleton.mp hl
    exact hhere
  | cons c cs ih =>
    have hnil : ¬ sep <:+: ([] : List Char).reverse := by simpa using hsep
    cases skip with
    | succ skip =>
      obtain rfl := hskip (Nat.zero_lt_succ skip)
      exact ih (fun _ => rfl) (by simp) hl hnil
    | zero =>
      rw [splitFrom_cons] at hl
      split at hl
      · rcases List.mem_cons.mp hl with rfl | hl
        · exact hhere
        · exact ih (fun _ => rfl) (by simp) hl hnil
      · rename_i hnot
        have hmore : ∀ i < (c :: read).length, ¬ sep <+: ((c :: read).reverse ++ cs).drop i := by
          intro i hi
          rw [List.reverse_cons, List.append_assoc, List.singleton_append]
          rw [List.length_cons] at hi
          by_cases hold : i < read.length
          · exact hread i hold
          · have hi' : i = read.reverse.length := by
              rw [List.length_reverse]
              omega
            rw [hi', List.drop_left]
            simpa using hnot
        refine ih (by simp) hmore hl (not_infix_of_not_begins (c :: read).reverse cs hsep ?_)
        simpa only [List.length_reverse] using hmore

end Split

theorem splitFrom_ne_nil (sep : List Char) (skip : Nat) (part cs : List Char) :
    splitFrom sep skip part cs ≠ [] := by
  induction cs generalizing skip part with
  | nil => exact List.cons_ne_nil _ _
  | cons c cs ih =>
    cases skip with
    | succ skip => exact ih skip part
    | zero =>
      rw [splitFrom_cons]
      split
      · exact List.cons_ne_nil _ _
      · exact ih 0 (c :: part)

theorem not_infix_of_mem_split {sep s part : String} (hsep : sep.toList ≠ []) (h : part ∈ split sep s) :
    ¬ sep.toList <:+: part.toList := by
  obtain ⟨l, hl, rfl⟩ := List.mem_map.mp h
  rw [String.toList_ofList]
  exact not_infix_of_mem_splitFrom hsep (fun h => by cases h) (by simp) hl

theorem split_ne_nil (sep s : String) : split sep s ≠ [] := by
  intro hnil
  exact splitFrom_ne_nil _ _ _ _ (List.map_eq_nil_iff.mp hnil)

/-- **Splitting undoes joining**, where no part has or completes a separator. -/
theorem split_join_of_free (sep : String) (hsep : sep.toList ≠ []) {parts : List String}
    (hne : parts ≠ []) (hparts : ∀ s ∈ parts, SepFree sep.toList s.toList) :
    split sep (join sep parts) = parts := by
  unfold split join
  rw [String.toList_ofList]
  cases parts with
  | nil => exact absurd rfl hne
  | cons s parts =>
    rw [List.map_cons, splitFrom_intercalate hsep (hparts s List.mem_cons_self)]
    · simp [List.map_map, Function.comp_def]
    · intro l hl
      obtain ⟨s', hs', rfl⟩ := List.mem_map.mp hl
      exact hparts s' (List.mem_cons_of_mem _ hs')

/-- That is so where no part contains the separator's first character. -/
theorem split_join (sep : String) {c : Char} {rest : List Char} (hsep : sep.toList = c :: rest)
    {parts : List String} (hne : parts ≠ []) (hparts : ∀ s ∈ parts, c ∉ s.toList) :
    split sep (join sep parts) = parts := by
  refine split_join_of_free sep (by simp [hsep]) hne ?_
  intro s hs
  rw [hsep]
  exact sepFree_of_notMem (hparts s hs)

theorem intercalate_append {sep : List Char} {xs ys : List (List Char)} (hx : xs ≠ [])
    (hy : ys ≠ []) :
    sep.intercalate (xs ++ ys) = sep.intercalate xs ++ sep ++ sep.intercalate ys := by
  induction xs with
  | nil => exact absurd rfl hx
  | cons x xs ih =>
    cases xs with
    | nil =>
      rw [List.singleton_append, List.intercalate_cons_of_ne_nil hy, List.intercalate_singleton]
    | cons x' xs =>
      have hmore := ih (List.cons_ne_nil x' xs)
      rw [List.cons_append, List.intercalate_cons_of_ne_nil (by simp), hmore,
        List.intercalate_cons_cons]
      simp only [List.append_assoc]

/-- One more part at the end. -/
theorem join_concat (sep : String) {parts : List String} (h : parts ≠ []) (part : String) :
    join sep (parts ++ [part]) = join sep parts ++ sep ++ part := by
  have hne : parts.map String.toList ≠ [] := mt List.map_eq_nil_iff.mp h
  apply String.toList_injective
  unfold join
  rw [String.toList_append, String.toList_append, String.toList_ofList, String.toList_ofList,
    List.map_append, intercalate_append hne (by simp)]
  simp

/-! ## Numbers as text -/

theorem repr_injective {m n : Nat} (h : m.repr = n.repr) : m = n := by
  have hdigits : Nat.toDigits 10 m = Nat.toDigits 10 n := by
    rw [← Nat.toList_repr, ← Nat.toList_repr, h]
  simpa using congrArg (fun digits => Nat.ofDigitChars 10 digits 0) hdigits

theorem isDigit_of_mem_repr {n : Nat} {c : Char} (h : c ∈ n.repr.toList) : c.isDigit = true := by
  rw [Nat.toList_repr] at h
  exact Nat.isDigit_of_mem_toDigits (by decide) (by decide) h

theorem int_toString_injective {a b : Int} (h : toString a = toString b) : a = b := by
  have hminus : ∀ n m : Nat, n.repr ≠ "-" ++ m.repr := by
    intro n m heq
    have hmem : '-' ∈ n.repr.toList := by
      rw [heq, String.toList_append]
      simp
    exact absurd (isDigit_of_mem_repr hmem) (by decide)
  cases a with
  | ofNat m =>
    cases b with
    | ofNat n => exact congrArg Int.ofNat (repr_injective h)
    | negSucc n => exact absurd h (hminus _ _)
  | negSucc m =>
    cases b with
    | ofNat n => exact absurd h.symm (hminus _ _)
    | negSucc n =>
      have hrest : (m + 1).repr = (n + 1).repr := String.append_right_inj "-" |>.mp h
      have hsucc := repr_injective hrest
      obtain rfl : m = n := by omega
      rfl

/-- No number has an underscore in it. -/
theorem underscore_notMem_toString (a : Int) : '_' ∉ (toString a).toList := by
  intro hmem
  cases a with
  | ofNat n => exact absurd (isDigit_of_mem_repr hmem) (by decide)
  | negSucc n =>
    have hchars : '_' ∈ ("-" ++ (n + 1).repr).toList := hmem
    rw [String.toList_append] at hchars
    rcases List.mem_append.mp hchars with hminus | hdigits
    · simp at hminus
    · exact absurd (isDigit_of_mem_repr hdigits) (by decide)

/-- A text is read up to the first separator in one way. -/
theorem append_cons_inj {α : Type} {x : α} {a a' b b' : List α} (ha : x ∉ a) (ha' : x ∉ a')
    (h : a ++ x :: b = a' ++ x :: b') : a = a' ∧ b = b' := by
  induction a generalizing a' with
  | nil =>
    cases a' with
    | nil => exact ⟨rfl, (List.cons.inj h).2⟩
    | cons y a' =>
      obtain rfl := (List.cons.inj h).1
      exact absurd List.mem_cons_self ha'
  | cons y a ih =>
    cases a' with
    | nil =>
      obtain rfl := (List.cons.inj h).1
      exact absurd List.mem_cons_self ha
    | cons z a' =>
      obtain ⟨rfl, hrest⟩ := List.cons.inj h
      obtain ⟨rfl, rfl⟩ := ih (fun hm => ha (List.mem_cons_of_mem _ hm))
        (fun hm => ha' (List.mem_cons_of_mem _ hm)) hrest
      exact ⟨rfl, rfl⟩

/-- And back to the last separator in one way. -/
theorem append_cons_inj_right {x : Char} {a a' b b' : List Char} (hb : x ∉ b) (hb' : x ∉ b')
    (h : a ++ x :: b = a' ++ x :: b') : a = a' ∧ b = b' := by
  have hreverse : b.reverse ++ x :: a.reverse = b'.reverse ++ x :: a'.reverse := by
    simpa using congrArg List.reverse h
  obtain ⟨hb, ha⟩ := append_cons_inj (mt List.mem_reverse.mp hb) (mt List.mem_reverse.mp hb') hreverse
  exact ⟨List.reverse_injective ha, List.reverse_injective hb⟩

end PyText
