/-
  **UTF-8** — a small library of its own.

  A byte is written as the code point of its number, so encoded texts are texts too, and what is defined on texts
  is defined on bytes.  The encoding of a character can be read off the front (`encodeChar_prefixCode`), so bytes
  that begin with the bytes of a text are those of a text that begins with it (`encode_prefix_iff`).
-/
import FinancialRag.Lib.PrefixCode
import FinancialRag.Lib.PyStr

set_option linter.unusedVariables false

namespace Utf8

def byte (n : Nat) : CodePoint := Fin.ofNat 0x110000 n

theorem byte_val {n : Nat} (h : n < 0x110000) : (byte n).val = n := Nat.mod_eq_of_lt h

/-- A byte behind the first one, with six bits of the number. -/
def tail (n : Nat) : CodePoint := byte (0x80 + n % 64)

theorem tail_val (n : Nat) : (tail n).val = 0x80 + n % 64 := byte_val (by omega)

def encodeChar (c : CodePoint) : PyStr :=
  if c.val < 0x80 then [c]
  else if c.val < 0x800 then [byte (0xC0 + c.val / 64), tail c.val]
  else if c.val < 0x10000 then [byte (0xE0 + c.val / 4096), tail (c.val / 64), tail c.val]
  else [byte (0xF0 + c.val / 262144), tail (c.val / 4096), tail (c.val / 64), tail c.val]

def encode (s : PyStr) : PyStr := s.flatMap encodeChar

/-- The six bits of a byte behind the first one. -/
def bits (c : CodePoint) : Nat := c.val - 0x80

/-- The first character, and the bytes behind it. -/
def decodeChar : PyStr → Option (CodePoint × PyStr)
  | [] => none
  | a :: rest =>
    if a.val < 0x80 then some (a, rest)
    else if a.val < 0xE0 then some (byte ((a.val - 0xC0) * 64 + bits (rest.getD 0 0)), rest.drop 1)
    else if a.val < 0xF0 then
      some (byte ((a.val - 0xE0) * 4096 + bits (rest.getD 0 0) * 64 + bits (rest.getD 1 0)), rest.drop 2)
    else
      some (byte ((a.val - 0xF0) * 262144 + bits (rest.getD 0 0) * 4096 + bits (rest.getD 1 0) * 64 +
        bits (rest.getD 2 0)), rest.drop 3)

theorem bits_tail (n : Nat) : bits (tail n) = n % 64 := by
  have htail := tail_val n
  unfold bits
  omega

theorem decodeChar_encodeChar (c : CodePoint) (rest : PyStr) :
    decodeChar (encodeChar c ++ rest) = some (c, rest) := by
  have hc := c.isLt
  have hchar : ∀ n, n = c.val → byte n = c := by
    rintro n rfl
    exact Fin.ext (byte_val hc)
  unfold encodeChar
  split
  · rename_i h1
    exact if_pos h1
  split
  · rename_i h1 h2
    have hfirst : (byte (0xC0 + c.val / 64)).val = 0xC0 + c.val / 64 := byte_val (by omega)
    show (if (byte (0xC0 + c.val / 64)).val < 0x80 then _ else _) = _
    rw [hfirst, if_neg (by omega), if_pos (by omega)]
    refine congrArg some (Prod.ext (hchar _ ?_) rfl)
    show (0xC0 + c.val / 64 - 0xC0) * 64 + bits (tail c.val) = c.val
    rw [bits_tail]
    omega
  split
  · rename_i h1 h2 h3
    have hfirst : (byte (0xE0 + c.val / 4096)).val = 0xE0 + c.val / 4096 := byte_val (by omega)
    show (if (byte (0xE0 + c.val / 4096)).val < 0x80 then _ else _) = _
    rw [hfirst, if_neg (by omega), if_neg (by omega), if_pos (by omega)]
    refine congrArg some (Prod.ext (hchar _ ?_) rfl)
    show (0xE0 + c.val / 4096 - 0xE0) * 4096 + bits (tail (c.val / 64)) * 64 + bits (tail c.val) = c.val
    rw [bits_tail, bits_tail]
    omega
  · rename_i h1 h2 h3
    have hfirst : (byte (0xF0 + c.val / 262144)).val = 0xF0 + c.val / 262144 := byte_val (by omega)
    show (if (byte (0xF0 + c.val / 262144)).val < 0x80 then _ else _) = _
    rw [hfirst, if_neg (by omega), if_neg (by omega), if_neg (by omega)]
    refine congrArg some (Prod.ext (hchar _ ?_) rfl)
    show (0xF0 + c.val / 262144 - 0xF0) * 262144 + bits (tail (c.val / 4096)) * 4096 + bits (tail (c.val / 64)) * 64 +
      bits (tail c.val) = c.val
    rw [bits_tail, bits_tail, bits_tail]
    omega

/-- **The encoding of a character can be read off the front.** -/
theorem encodeChar_prefixCode : PrefixCode encodeChar := .of_decoder decodeChar decodeChar_encodeChar

theorem encodeChar_of_ascii {c : CodePoint} (h : c.val < 0x80) : encodeChar c = [c] := if_pos h

/-- No byte of another character is ASCII. -/
theorem le_of_mem_encodeChar {c b : CodePoint} (h : 0x80 ≤ c.val) (hb : b ∈ encodeChar c) : 0x80 ≤ b.val := by
  have hc := c.isLt
  have htail : ∀ n, 0x80 ≤ (tail n).val := fun n => by rw [tail_val]; omega
  have hfirst : ∀ n, 0x80 ≤ n → n < 0x110000 → 0x80 ≤ (byte n).val := fun n hn hlt => by rwa [byte_val hlt]
  unfold encodeChar at hb
  rw [if_neg (by omega)] at hb
  split at hb
  · rcases List.mem_cons.mp hb with rfl | hb
    · exact hfirst _ (by omega) (by omega)
    · rw [List.mem_singleton.mp hb]
      exact htail _
  split at hb
  · rcases List.mem_cons.mp hb with rfl | hb
    · exact hfirst _ (by omega) (by omega)
    rcases List.mem_cons.mp hb with rfl | hb
    · exact htail _
    · rw [List.mem_singleton.mp hb]
      exact htail _
  · rcases List.mem_cons.mp hb with rfl | hb
    · exact hfirst _ (by omega) (by omega)
    rcases List.mem_cons.mp hb with rfl | hb
    · exact htail _
    rcases List.mem_cons.mp hb with rfl | hb
    · exact htail _
    · rw [List.mem_singleton.mp hb]
      exact htail _

theorem encodeChar_ne_nil (c : CodePoint) : encodeChar c ≠ [] := by
  intro h
  have hdecode := decodeChar_encodeChar c []
  rw [h] at hdecode
  cases hdecode

theorem encode_append (s t : PyStr) : encode (s ++ t) = encode s ++ encode t := List.flatMap_append

/-- **Bytes that begin with those of a text** are, if of a text, of one that begins with it. -/
theorem encode_prefix_iff (s t : PyStr) : encode s <+: encode t ↔ s <+: t := by
  constructor
  · rintro ⟨rest, h⟩
    induction s generalizing t with
    | nil => exact List.nil_prefix
    | cons c s ih =>
      cases t with
      | nil =>
        have hnil := (List.append_eq_nil_iff.mp h).1
        exact absurd (List.append_eq_nil_iff.mp hnil).1 (encodeChar_ne_nil c)
      | cons d t =>
        have hparts : encodeChar c ++ (encode s ++ rest) = encodeChar d ++ encode t := by
          rw [← List.append_assoc]
          exact h
        obtain ⟨rfl, hrest⟩ := encodeChar_prefixCode c d _ _ hparts
        exact List.cons_prefix_cons.mpr ⟨rfl, ih t hrest⟩
  · rintro ⟨rest, rfl⟩
    exact ⟨encode rest, (encode_append s rest).symm⟩

end Utf8
