/-
  **JavaScript's strings** — a small library of its own.

  A string is a sequence of UTF-16 CODE UNITS; regular expressions without the `u` flag read it unit by
  unit.  The white space of `trim` and `\s` and the line terminators that `.` does not match are fixed by
  the language; `toLowerCase` depends on Unicode tables, so it is left arbitrary where it is used, with
  `LowersPlain` for what the tables promise of plain text.
-/
import FinancialRag.Lib.PyStr
import FinancialRag.Lib.Strip

set_option linter.unusedVariables false

abbrev CodeUnit : Type := Fin 0x10000

instance instNeZeroCodeUnits : @NeZero Nat Zero.ofOfNat0 0x10000 := ⟨Nat.succ_ne_zero 0xFFFF⟩

abbrev JsString : Type := List CodeUnit

/-- A text as another program sends it: code points beyond the first plane become two code units. -/
def CodePoint.units (c : CodePoint) : JsString :=
  if h : c.val < 0x10000 then [⟨c.val, h⟩]
  else
    [⟨0xD800 + (c.val - 0x10000) / 0x400, by omega⟩, ⟨0xDC00 + (c.val - 0x10000) % 0x400, by omega⟩]

namespace JsString

def ofPyStr (s : PyStr) : JsString := s.flatMap CodePoint.units

def ofString (s : String) : JsString := ofPyStr (PyStr.ofString s)

@[simp] theorem ofPyStr_append (s t : PyStr) : ofPyStr (s ++ t) = ofPyStr s ++ ofPyStr t := by
  unfold ofPyStr
  rw [List.flatMap_append]

def lf : CodeUnit := 10
def cr : CodeUnit := 13

/-- `\s`, and what `trim` trims. -/
def isSpace (c : CodeUnit) : Bool :=
  (decide (9 ≤ c.val) && decide (c.val ≤ 13)) || c.val == 0x20 || c.val == 0xA0 || c.val == 0x1680 ||
    (decide (0x2000 ≤ c.val) && decide (c.val ≤ 0x200A)) || c.val == 0x2028 || c.val == 0x2029 ||
    c.val == 0x202F || c.val == 0x205F || c.val == 0x3000 || c.val == 0xFEFF

/-- What `.` does not match. -/
def isLineTerminator (c : CodeUnit) : Bool :=
  c.val == 10 || c.val == 13 || c.val == 0x2028 || c.val == 0x2029

/-- `.`. -/
def isDot (c : CodeUnit) : Bool := !isLineTerminator c

/-- `trim`. -/
def trim (s : JsString) : JsString := Strip.strip isSpace s

/-- `replace(/\r\n?/g, '\n')`; `afterCr`: a line feed belongs to the break that was just written. -/
def normalizeBreaks (afterCr : Bool) : JsString → JsString
  | [] => []
  | c :: cs =>
    if afterCr && c == lf then normalizeBreaks false cs
    else if c = cr then lf :: normalizeBreaks true cs
    else c :: normalizeBreaks false cs

/-- The lines of a text: `replace(/\r\n?/g, '\n').split('\n')`. -/
def lines (s : JsString) : List JsString := (normalizeBreaks false s).splitOn lf

/-- `join('\n')`. -/
def unlines (ls : List JsString) : JsString := [lf].intercalate ls

/-- `/[A-Z]/` to `/[a-z]/`. -/
def asciiLower (s : JsString) : JsString :=
  s.map fun c => if h : 65 ≤ c.val ∧ c.val ≤ 90 then ⟨c.val + 32, by omega⟩ else c

/-- A code unit of ASCII, or of the scripts without case that the headings use. -/
def isPlain (c : CodeUnit) : Bool :=
  decide (c.val < 128) || (decide (0x3000 ≤ c.val) && decide (c.val ≤ 0x9FFF)) ||
    c.val == 0xFF08 || c.val == 0xFF09

/-- What `toLowerCase` does to such a text. -/
def LowersPlain (lower : JsString → JsString) : Prop :=
  ∀ s : JsString, s.all isPlain = true → lower s = asciiLower s

theorem lowersPlain_asciiLower : LowersPlain asciiLower := fun _ _ => rfl

theorem mem_of_mem_trim {s : JsString} {c : CodeUnit} (h : c ∈ trim s) : c ∈ s :=
  (List.dropWhile_sublist _).mem ((List.rdropWhile_prefix _ _).mem h)

/-! ## Regular expressions -/

/-- `/^#{lo,hi}/` before white space, which no mark is: the number of marks and the text behind them. -/
def hashes (lo hi : Nat) (s : JsString) : Option (Nat × JsString) :=
  let marks := (s.takeWhile (· == 35)).length
  if lo ≤ marks ∧ marks ≤ hi then some (marks, s.drop marks) else none

/-- What `(.+)` matches in `/^\s+(.+)$/`: the white space is cut as late as possible. -/
def spacedRest (s : JsString) : Option JsString :=
  (((List.range' 1 (s.takeWhile isSpace).length).reverse).map fun n => s.drop n).find? fun rest =>
    !rest.isEmpty && rest.all isDot

/-- `/^\s+\S/`. -/
def spacedStart (s : JsString) : Bool := s.head?.any isSpace && !(s.dropWhile isSpace).isEmpty

/-- `/^[-*+]/`: the text behind. -/
def afterBullet : JsString → Option JsString
  | [] => none
  | c :: cs => if c = 45 ∨ c = 42 ∨ c = 43 then some cs else none

/-- `/^\d+[.)]/`: the text behind. -/
def afterNumber (s : JsString) : Option JsString :=
  let isDigit : CodeUnit → Bool := fun c => decide (48 ≤ c.val) && decide (c.val ≤ 57)
  match s.takeWhile isDigit, s.dropWhile isDigit with
  | _ :: _, c :: cs => if c = 46 ∨ c = 41 then some cs else none
  | _, _ => none

/-- `/^>/`: the text behind. -/
def afterQuote : JsString → Option JsString
  | [] => none
  | c :: cs => if c = 62 then some cs else none

/-- What `(.*)` matches in `/^\s?(.*)$/`. -/
def quotedRest (s : JsString) : Option JsString :=
  match s with
  | c :: cs =>
    if isSpace c && cs.all isDot then some cs
    else if s.all isDot then some s
    else none
  | [] => some []

/-- `/^(?:-{3,}|\*{3,}|_{3,})$/`. -/
def isRule (s : JsString) : Bool :=
  decide (3 ≤ s.length) && ([45, 42, 95] : List CodeUnit).any fun mark => s.all (· == mark)

/-! ## Lines -/

/-- What is to be seen of a text. -/
abbrev ink (s : JsString) : JsString := Strip.ink isSpace s

theorem ink_trim (s : JsString) : ink (trim s) = ink s := Strip.ink_strip isSpace s

theorem ink_append (s t : JsString) : ink (s ++ t) = ink s ++ ink t := Strip.ink_append s t

/-- Whether a text ends in a carriage return, or, empty, stands behind one. -/
def endsInCr (afterCr : Bool) (s : JsString) : Bool := (s.getLast?.map (· == cr)).getD afterCr

theorem endsInCr_cons (afterCr : Bool) (c : CodeUnit) (s : JsString) :
    endsInCr afterCr (c :: s) = endsInCr (c == cr) s := by
  unfold endsInCr
  cases s with
  | nil => rfl
  | cons d s => rw [List.getLast?_cons_cons, List.getLast?_cons]; rfl

theorem normalizeBreaks_cons (afterCr : Bool) (c : CodeUnit) (cs : JsString) :
    normalizeBreaks afterCr (c :: cs) =
      if afterCr && c == lf then normalizeBreaks false cs
      else if c = cr then lf :: normalizeBreaks true cs
      else c :: normalizeBreaks false cs := rfl

theorem normalizeBreaks_append (afterCr : Bool) (s t : JsString) :
    normalizeBreaks afterCr (s ++ t) =
      normalizeBreaks afterCr s ++ normalizeBreaks (endsInCr afterCr s) t := by
  induction s generalizing afterCr with
  | nil => rfl
  | cons c s ih =>
    have hlf : (lf == cr) = false := by decide
    rw [List.cons_append, normalizeBreaks_cons, normalizeBreaks_cons, endsInCr_cons, ih, ih]
    by_cases hskip : (afterCr && c == lf) = true
    · have hc : c = lf := by simpa using (Bool.and_eq_true_iff.mp hskip).2
      rw [if_pos hskip, if_pos hskip, hc, hlf]
    · rw [if_neg hskip, if_neg hskip]
      by_cases hcr : c = cr
      · rw [if_pos hcr, if_pos hcr, hcr, beq_self_eq_true, List.cons_append]
      · rw [if_neg hcr, if_neg hcr, beq_eq_false_iff_ne.mpr hcr, List.cons_append]

/-- Normalizing adds and removes white space only. -/
theorem ink_normalizeBreaks (afterCr : Bool) (s : JsString) : ink (normalizeBreaks afterCr s) = ink s := by
  have hspace : isSpace lf = true ∧ isSpace cr = true := by decide
  induction s generalizing afterCr with
  | nil => rfl
  | cons c s ih =>
    have hcons : ∀ (d : CodeUnit) (t : JsString), ink (d :: t) = ink [d] ++ ink t := fun d t =>
      ink_append [d] t
    have hnone : ∀ d : CodeUnit, isSpace d = true → ink [d] = [] := fun d hd =>
      Strip.ink_eq_nil_iff.mpr (List.forall_mem_singleton.mpr hd)
    rw [normalizeBreaks_cons, hcons c s]
    by_cases hskip : (afterCr && c == lf) = true
    · have hc : c = lf := by simpa using (Bool.and_eq_true_iff.mp hskip).2
      rw [if_pos hskip, ih, hc, hnone lf hspace.1, List.nil_append]
    · rw [if_neg hskip]
      by_cases hcr : c = cr
      · rw [if_pos hcr, hcons lf, ih, hcr, hnone lf hspace.1, hnone cr hspace.2]
      · rw [if_neg hcr, hcons c, ih]

theorem cr_notMem_normalizeBreaks (afterCr : Bool) (s : JsString) : cr ∉ normalizeBreaks afterCr s := by
  induction s generalizing afterCr with
  | nil => exact List.not_mem_nil
  | cons c s ih =>
    rw [normalizeBreaks_cons]
    split
    · exact ih false
    · split
      · exact List.not_mem_cons_of_ne_of_not_mem (by decide) (ih true)
      · rename_i hcr
        exact List.not_mem_cons_of_ne_of_not_mem (fun h => hcr h.symm) (ih false)

theorem normalizeBreaks_of_notMem {s : JsString} (h : cr ∉ s) : normalizeBreaks false s = s := by
  induction s with
  | nil => rfl
  | cons c s ih =>
    obtain ⟨hc, hs⟩ := not_or.mp (mt List.mem_cons.mpr h)
    rw [normalizeBreaks_cons, Bool.false_and, if_neg Bool.false_ne_true, if_neg fun heq => hc heq.symm, ih hs]

/-- What starts with ink and has no carriage return stays as it is, also behind a carriage return. -/
theorem normalizeBreaks_of_head {s : JsString} (hhead : ∀ c ∈ s.head?, isSpace c = false) (h : cr ∉ s)
    (afterCr : Bool) : normalizeBreaks afterCr s = s := by
  cases s with
  | nil => rfl
  | cons c s =>
    have hc : (c == lf) = false := by
      refine beq_eq_false_iff_ne.mpr fun heq => ?_
      have hspace := hhead c rfl
      rw [heq] at hspace
      exact absurd hspace (by decide)
    rw [normalizeBreaks_cons, hc, Bool.and_false, ← normalizeBreaks_of_notMem h, normalizeBreaks_cons,
      Bool.false_and, normalizeBreaks_of_notMem fun hmem => h (List.mem_cons_of_mem c hmem)]

/-- A text without its last unit, if that is a carriage return. -/
def dropLastCr (s : JsString) : JsString := if s.getLast? = some cr then s.dropLast else s

/-- **A line feed divides the lines**; a carriage return before it belongs to the same break. -/
theorem lines_append_lf (s t : JsString) : lines (s ++ lf :: t) = lines (dropLastCr s) ++ lines t := by
  unfold lines dropLastCr
  by_cases hlast : s.getLast? = some cr
  · obtain ⟨init, rfl⟩ := List.getLast?_eq_some_iff.mp hlast
    have hends : endsInCr false (init ++ [cr]) = true := by simp [endsInCr]
    have hbreak : normalizeBreaks (endsInCr false init) [cr] = [lf] := by
      cases endsInCr false init <;> rfl
    rw [if_pos hlast, List.dropLast_concat, normalizeBreaks_append, hends, normalizeBreaks_append, hbreak,
      normalizeBreaks_cons, if_pos (by decide), List.append_assoc, List.singleton_append,
      List.splitOn_append_cons_self]
  · have hends : endsInCr false s = false := by
      cases hs : s.getLast? with
      | none => simp [endsInCr, hs]
      | some c =>
        have hc : c ≠ cr := fun heq => hlast (heq ▸ hs)
        simp [endsInCr, hs, hc]
    rw [if_neg hlast, normalizeBreaks_append, hends, normalizeBreaks_cons, Bool.false_and,
      if_neg Bool.false_ne_true, if_neg (by decide), List.splitOn_append_cons_self]

@[simp] theorem lines_nil : lines [] = [[]] := rfl

/-- A part that is split off has no separator. -/
theorem of_mem_splitOnP {α : Type} {p : α → Bool} {xs part : List α} (h : part ∈ xs.splitOnP p) {x : α}
    (hx : x ∈ part) : x ∈ xs ∧ p x = false := by
  induction xs generalizing part with
  | nil =>
    rw [List.splitOnP_nil, List.mem_singleton] at h
    subst h
    cases hx
  | cons y ys ih =>
    have hlater : ∀ {part}, part ∈ ys.splitOnP p → x ∈ part → x ∈ y :: ys ∧ p x = false := fun hpart hx' =>
      (ih hpart hx').imp_left (List.mem_cons_of_mem y)
    rw [List.splitOnP_cons_eq_if_modifyHead] at h
    split at h
    · rcases List.mem_cons.mp h with rfl | hpart
      · cases hx
      · exact hlater hpart hx
    · rename_i hy
      obtain ⟨first, rest, hsplit⟩ := List.exists_cons_of_ne_nil (List.splitOnP_ne_nil p ys)
      rw [hsplit] at hlater h
      rcases List.mem_cons.mp h with rfl | hpart
      · rcases List.mem_cons.mp hx with rfl | hfirst
        · exact ⟨List.mem_cons_self, Bool.not_eq_true _ ▸ hy⟩
        · exact hlater List.mem_cons_self hfirst
      · exact hlater (List.mem_cons_of_mem first hpart) hx

/-- A line has no break inside. -/
theorem of_mem_lines {s line : JsString} (h : line ∈ lines s) {c : CodeUnit} (hc : c ∈ line) : c ≠ lf ∧ c ≠ cr := by
  obtain ⟨hmem, hnot⟩ := of_mem_splitOnP h hc
  refine ⟨fun heq => ?_, fun heq => cr_notMem_normalizeBreaks false s (heq ▸ hmem)⟩
  rw [heq] at hnot
  cases hnot

theorem unlines_lines (s : JsString) : unlines (lines s) = normalizeBreaks false s :=
  List.intercalate_splitOn lf

theorem ink_unlines (ls : List JsString) : ink (unlines ls) = ls.flatMap ink := by
  have hlf : ink [lf] = [] := by decide
  unfold unlines
  induction ls with
  | nil => rfl
  | cons l ls ih =>
    cases ls with
    | nil => simp
    | cons l' ls =>
      rw [List.intercalate_cons_cons, ink_append, ink_append, hlf, ih, List.append_nil]
      rfl

theorem flatMap_ink_lines (s : JsString) : (lines s).flatMap ink = ink s := by
  rw [← ink_unlines, unlines_lines, ink_normalizeBreaks]

theorem dropLastCr_concat (s : JsString) : dropLastCr (s ++ [cr]) = s := by
  unfold dropLastCr
  rw [if_pos List.getLast?_concat, List.dropLast_concat]

/-- A carriage return at the end makes one line more, an empty one. -/
theorem lines_eq_dropLastCr (s : JsString) :
    lines s = lines (dropLastCr s) ∨ lines s = lines (dropLastCr s) ++ [[]] := by
  by_cases hlast : s.getLast? = some cr
  · right
    obtain ⟨init, rfl⟩ := List.getLast?_eq_some_iff.mp hlast
    rw [dropLastCr_concat]
    have hbreak : normalizeBreaks (endsInCr false init) [cr] = [lf] := by
      cases endsInCr false init <;> rfl
    unfold lines
    rw [normalizeBreaks_append, hbreak, List.splitOn_append_cons_self, List.splitOn_nil]
  · left
    unfold dropLastCr
    rw [if_neg hlast]

theorem unlines_concat_nil (l : JsString) (ls : List JsString) :
    unlines (l :: ls ++ [[]]) = unlines (l :: ls) ++ [lf] := by
  unfold unlines
  induction ls generalizing l with
  | nil => simp
  | cons l' ls ih =>
    rw [List.cons_append, List.cons_append, List.intercalate_cons_cons, ← List.cons_append, ih,
      List.intercalate_cons_cons]
    simp only [List.append_assoc]

theorem trim_unlines_concat_nil (ls : List JsString) : trim (unlines (ls ++ [[]])) = trim (unlines ls) := by
  cases ls with
  | nil => rfl
  | cons l ls =>
    rw [unlines_concat_nil]
    exact Strip.strip_append (List.forall_mem_singleton.mpr (by decide)) _

/-- The trimmed text comes back through its lines exactly if it has no carriage return. -/
theorem trim_unlines_lines_eq_iff (s : JsString) : trim (unlines (lines s)) = trim s ↔ cr ∉ trim s := by
  rw [unlines_lines]
  constructor
  · intro h hcr
    rw [← h] at hcr
    exact cr_notMem_normalizeBreaks false s (mem_of_mem_trim hcr)
  · intro hcr
    obtain ⟨left, right, hs, hleft, hright⟩ := Strip.exists_strip isSpace s
    have hspaces : ∀ (afterCr : Bool) (t : JsString), (∀ c ∈ t, isSpace c = true) →
        ∀ c ∈ normalizeBreaks afterCr t, isSpace c = true := fun afterCr t ht =>
      Strip.ink_eq_nil_iff.mp ((ink_normalizeBreaks afterCr t).trans (Strip.ink_eq_nil_iff.mpr ht))
    have hkept : ∀ afterCr, normalizeBreaks afterCr (trim s) = trim s := fun afterCr =>
      normalizeBreaks_of_head (fun c hc => Strip.head_strip hc) hcr afterCr
    calc trim (normalizeBreaks false s)
        = trim (normalizeBreaks false (left ++ trim s ++ right)) := by rw [show left ++ trim s ++ right = s from hs.symm]
      _ = trim (trim s) := by
          rw [normalizeBreaks_append, normalizeBreaks_append, hkept]
          exact Strip.strip_around (hspaces _ left hleft) (hspaces _ right hright) _
      _ = trim s := Strip.strip_strip isSpace s

end JsString
