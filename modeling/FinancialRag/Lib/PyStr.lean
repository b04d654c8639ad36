/-
  **Python's `str`, lone surrogates included** — a small library of its own.

  A Python text is a sequence of CODE POINTS.  Unlike a `String`, it may hold a lone surrogate: no
  Unicode text has one, but a JSON escape writes one, and UTF-8 has no encoding for it.  So wherever a
  text comes from a client and goes out over a wire, it is a `PyStr`, and `encodable` says whether
  `encode("utf-8")` succeeds.
-/
import Mathlib.Data.List.DropRight
import FinancialRag.Lib.PyText

set_option linter.unusedVariables false

abbrev CodePoint : Type := Fin 0x110000

instance instNeZeroCodePoints : @NeZero Nat Zero.ofOfNat0 0x110000 := ⟨Nat.succ_ne_zero 0x10FFFF⟩

/-- A `str`. -/
abbrev PyStr : Type := List CodePoint

/-- `s in texts`. -/
instance (s : PyStr) (texts : List PyStr) : Decidable (s ∈ texts) := inferInstance

theorem codePoint_of_char (c : Char) : c.toNat < 0x110000 := by
  rcases c.valid with h | ⟨_, h⟩
  · exact h.trans (by decide)
  · exact h

def Char.codePoint (c : Char) : CodePoint := ⟨c.toNat, codePoint_of_char c⟩

namespace PyStr

/-- A text without lone surrogates. -/
def ofString (s : String) : PyStr := s.toList.map Char.codePoint

/-- `str(n)`. -/
def ofInt (n : Int) : PyStr := ofString (toString n)

def isSurrogate (c : CodePoint) : Bool := decide (0xD800 ≤ c.val) && decide (c.val < 0xE000)

/-- `s.encode("utf-8")` succeeds. -/
def encodable (s : PyStr) : Bool := s.all fun c => !isSurrogate c

/-- What `str.strip` strips and `str.isspace` accepts. -/
def isSpace (c : CodePoint) : Bool :=
  (decide (9 ≤ c.val) && decide (c.val ≤ 13)) || (decide (28 ≤ c.val) && decide (c.val ≤ 32)) ||
    c.val == 0x85 || c.val == 0xA0 || c.val == 0x1680 ||
    (decide (0x2000 ≤ c.val) && decide (c.val ≤ 0x200A)) ||
    c.val == 0x2028 || c.val == 0x2029 || c.val == 0x202F || c.val == 0x205F || c.val == 0x3000

/-- `str.strip`. -/
def strip (s : PyStr) : PyStr := (s.dropWhile isSpace).rdropWhile isSpace

/-- `s.startswith(start)`. -/
def startsWith (s start : PyStr) : Bool := start.isPrefixOf s

/-- `s.replace(old, new)` of a single character. -/
def replaceChar (old : CodePoint) (new : PyStr) (s : PyStr) : PyStr :=
  s.flatMap fun c => if c = old then new else [c]

@[simp] theorem startsWith_iff {s start : PyStr} : startsWith s start = true ↔ start <+: s :=
  List.isPrefixOf_iff_prefix

theorem replaceChar_append (old : CodePoint) (new s t : PyStr) :
    replaceChar old new (s ++ t) = replaceChar old new s ++ replaceChar old new t := by
  unfold replaceChar
  rw [List.flatMap_append]

/-! ## Encoding -/

@[simp] theorem encodable_nil : encodable [] = true := rfl

@[simp] theorem encodable_append (s t : PyStr) :
    encodable (s ++ t) = (encodable s && encodable t) := by
  unfold encodable
  rw [List.all_append]

theorem not_isSurrogate_codePoint (c : Char) : isSurrogate c.codePoint = false := by
  rcases c.valid with h | ⟨h, _⟩
  · have hlow : ¬ 0xD800 ≤ c.toNat := not_le.mpr h
    simp [isSurrogate, Char.codePoint, hlow]
  · have hhigh : ¬ c.toNat < 0xE000 := by
      have hle : 0xDFFF < c.toNat := h
      omega
    simp [isSurrogate, Char.codePoint, hhigh]

/-- A Unicode text is encodable. -/
@[simp] theorem encodable_ofString (s : String) : encodable (ofString s) = true := by
  unfold encodable ofString
  rw [List.all_map, List.all_eq_true]
  intro c _
  simp [not_isSurrogate_codePoint]

@[simp] theorem encodable_ofInt (n : Int) : encodable (ofInt n) = true := encodable_ofString _

/-! ## Numbers as text -/

theorem codePoint_injective : Function.Injective Char.codePoint := by
  intro a b h
  have hval : a.codePoint.val = b.codePoint.val := by rw [h]
  exact Char.ext (UInt32.toNat_inj.mp hval)

theorem ofString_injective : Function.Injective ofString := by
  intro a b h
  exact String.toList_injective (List.map_injective_iff.mpr codePoint_injective h)

theorem ofInt_injective : Function.Injective ofInt := by
  intro a b h
  exact PyText.int_toString_injective (ofString_injective h)

/-- A number is written with digits and a sign. -/
theorem mem_ofInt {n : Int} {c : CodePoint} (h : c ∈ ofInt n) :
    ∃ d : Char, c = d.codePoint ∧ (d.isDigit = true ∨ d = '-') := by
  obtain ⟨d, hd, rfl⟩ := List.mem_map.mp h
  refine ⟨d, rfl, ?_⟩
  cases n with
  | ofNat n => exact Or.inl (PyText.isDigit_of_mem_repr hd)
  | negSucc n =>
    have hchars : d ∈ ("-" ++ (n + 1).repr).toList := hd
    rw [String.toList_append] at hchars
    rcases List.mem_append.mp hchars with hminus | hdigits
    · exact Or.inr (by simpa using hminus)
    · exact Or.inl (PyText.isDigit_of_mem_repr hdigits)

/-- No number holds a character that is neither a digit nor the sign. -/
theorem notMem_ofInt {d : Char} (hdigit : d.isDigit = false) (hminus : d ≠ '-') (n : Int) :
    d.codePoint ∉ ofInt n := by
  intro hmem
  obtain ⟨d', heq, hd'⟩ := mem_ofInt hmem
  obtain rfl := codePoint_injective heq
  rcases hd' with h | h
  · rw [hdigit] at h
    cases h
  · exact hminus h

end PyStr
