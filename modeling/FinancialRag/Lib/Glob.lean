/-
  **Glob patterns as a Redis server matches them** — a small library of its own.

  `*` stands for any text, `?` for one character, `[...]` for one character of a class, and a backslash
  takes the next character literally.  A pattern is read into tokens once (`tokens`, an automaton over
  its characters), and matching is by recursion over the tokens.

  `glob_escaped` is what a client relies on: a pattern that consists of escaped text and a final `*`
  matches exactly the texts with that prefix.  The server works on the bytes of the UTF-8 encoding; for such
  a pattern that is the same as working on characters (`glob_encoded`).
-/
import Mathlib.Data.List.Infix
import FinancialRag.Lib.Utf8

set_option linter.unusedVariables false

namespace Glob

/-- A part of a class. -/
inductive ClassItem where
  | one (c : CodePoint)
  | range (first last : CodePoint)

def ClassItem.admits : ClassItem → CodePoint → Bool
  | .one c, d => c == d
  -- the ends of a range may stand in either order
  | .range first last, d =>
    (decide (first ≤ d) && decide (d ≤ last)) || (decide (last ≤ d) && decide (d ≤ first))

inductive Token where
  | star
  | any
  | literal (c : CodePoint)
  | oneOf (negated : Bool) (items : List ClassItem)

def backslash : CodePoint := '\\'.codePoint

def asterisk : CodePoint := '*'.codePoint

def question : CodePoint := '?'.codePoint

def bracket : CodePoint := '['.codePoint

/-- What the reader of a pattern is in the middle of. -/
inductive Mode where
  | plain
  | escaped
  | classStart
  | inClass (negated : Bool) (items : List ClassItem)
  | classEscaped (negated : Bool) (items : List ClassItem)
  | classDash (negated : Bool) (items : List ClassItem) (first : CodePoint)
  | classRange (negated : Bool) (items : List ClassItem) (first : CodePoint)

/-- One character inside a class, `rest` being what follows it. -/
def classMode (negated : Bool) (items : List ClassItem) (c : CodePoint) (rest : PyStr) :
    Option Mode :=
  if c = backslash ∧ rest ≠ [] then some (.classEscaped negated items)
  else if c = ']'.codePoint then none
  else if rest.head? = some '-'.codePoint ∧ 2 ≤ rest.length then some (.classDash negated items c)
  else some (.inClass negated (items ++ [.one c]))

/-- The tokens of a pattern.  A backslash at its end is itself; a class that is not closed ends there. -/
def tokens : Mode → PyStr → List Token
  | .plain, [] => []
  | .escaped, [] => [.literal backslash]
  | .classStart, [] => [.oneOf false []]
  | .inClass negated items, [] => [.oneOf negated items]
  | .classEscaped negated items, [] => [.oneOf negated items]
  | .classDash negated items _, [] => [.oneOf negated items]
  | .classRange negated items _, [] => [.oneOf negated items]
  | .plain, c :: rest =>
    if c = asterisk then .star :: tokens .plain rest
    else if c = question then .any :: tokens .plain rest
    else if c = bracket then tokens .classStart rest
    else if c = backslash then tokens .escaped rest
    else .literal c :: tokens .plain rest
  | .escaped, c :: rest => .literal c :: tokens .plain rest
  | .classStart, c :: rest =>
    if c = '^'.codePoint then tokens (.inClass true []) rest
    else
      match classMode false [] c rest with
      | some mode => tokens mode rest
      | none => .oneOf false [] :: tokens .plain rest
  | .inClass negated items, c :: rest =>
    match classMode negated items c rest with
    | some mode => tokens mode rest
    | none => .oneOf negated items :: tokens .plain rest
  | .classEscaped negated items, c :: rest => tokens (.inClass negated (items ++ [.one c])) rest
  | .classDash negated items first, _ :: rest => tokens (.classRange negated items first) rest
  | .classRange negated items first, c :: rest =>
    tokens (.inClass negated (items ++ [.range first c])) rest

def Token.admits : Token → CodePoint → Bool
  | .star, _ => false
  | .any, _ => true
  | .literal c, d => c == d
  | .oneOf negated items, d => items.any (fun item => item.admits d) != negated

/-- The tokens match the whole text. -/
def accepts : List Token → PyStr → Bool
  | [], s => s.isEmpty
  | .star :: ts, s => s.tails.any fun rest => accepts ts rest
  | t :: ts, s =>
    match s with
    | [] => false
    | c :: s => t.admits c && accepts ts s

/-- `KEYS pattern` and `SCAN ... MATCH pattern`. -/
def glob (pattern s : PyStr) : Bool := accepts (tokens .plain pattern) s

/-! ## Escaped text -/

def isSpecial (c : CodePoint) : Bool :=
  c == backslash || c == asterisk || c == question || c == bracket

/-- Every special character behind a backslash. -/
def escape (s : PyStr) : PyStr := s.flatMap fun c => if isSpecial c then [backslash, c] else [c]

theorem escape_cons (c : CodePoint) (s : PyStr) :
    escape (c :: s) = (if isSpecial c then [backslash, c] else [c]) ++ escape s := rfl

theorem not_special {c : CodePoint} (h : isSpecial c = false) :
    c ≠ asterisk ∧ c ≠ question ∧ c ≠ bracket ∧ c ≠ backslash := by
  simp only [isSpecial, Bool.or_eq_false_iff, beq_eq_false_iff_ne] at h
  exact ⟨h.1.1.2, h.1.2, h.2, h.1.1.1⟩

/-- Escaped text is read as itself. -/
theorem tokens_escape (s rest : PyStr) :
    tokens .plain (escape s ++ rest) = s.map Token.literal ++ tokens .plain rest := by
  induction s with
  | nil => rfl
  | cons c s ih =>
    rw [escape_cons, List.map_cons, List.cons_append, ← ih]
    cases hspecial : isSpecial c with
    | true =>
      have hplain : tokens .plain (backslash :: c :: (escape s ++ rest)) =
          tokens .escaped (c :: (escape s ++ rest)) := by
        rw [tokens, if_neg (by decide), if_neg (by decide), if_neg (by decide), if_pos rfl]
      exact hplain
    | false =>
      obtain ⟨hstar, hquestion, hbracket, hbackslash⟩ := not_special hspecial
      show tokens .plain (c :: (escape s ++ rest)) = _
      rw [tokens, if_neg hstar, if_neg hquestion, if_neg hbracket, if_neg hbackslash]

/-- Literals match themselves. -/
theorem accepts_literals (s : PyStr) (ts : List Token) (text : PyStr) :
    accepts (s.map Token.literal ++ ts) text = true ↔ ∃ rest, text = s ++ rest ∧ accepts ts rest = true := by
  induction s generalizing text with
  | nil =>
    constructor
    · intro h
      exact ⟨text, rfl, h⟩
    · rintro ⟨rest, rfl, h⟩
      exact h
  | cons c s ih =>
    cases text with
    | nil =>
      constructor
      · intro h
        cases h
      · rintro ⟨rest, habs, _⟩
        cases habs
    | cons d text =>
      show ((c == d) && accepts (s.map Token.literal ++ ts) text) = true ↔ _
      rw [Bool.and_eq_true, ih, beq_iff_eq]
      constructor
      · rintro ⟨rfl, rest, rfl, h⟩
        exact ⟨rest, rfl, h⟩
      · rintro ⟨rest, heq, h⟩
        obtain ⟨rfl, rfl⟩ := List.cons.inj heq
        exact ⟨rfl, rest, rfl, h⟩

/-- A final star matches whatever is left. -/
theorem accepts_star (s : PyStr) : accepts [.star] s = true := by
  show (s.tails.any fun rest => accepts [] rest) = true
  rw [List.any_eq_true]
  exact ⟨[], (List.mem_tails _ _).mpr List.nil_suffix, rfl⟩

/-- **Escaped text and a final star match exactly the texts with that prefix.** -/
theorem glob_escaped (s text : PyStr) : glob (escape s ++ [asterisk]) text = true ↔ s <+: text := by
  unfold glob
  have hstar : tokens .plain [asterisk] = [.star] := by
    rw [tokens, if_pos rfl, tokens]
  rw [tokens_escape, hstar, accepts_literals]
  constructor
  · rintro ⟨rest, rfl, _⟩
    exact List.prefix_append _ _
  · rintro ⟨rest, rfl⟩
    exact ⟨rest, rfl, accepts_star rest⟩

/-! ## Bytes -/

/-- Special characters are ASCII. -/
theorem lt_of_isSpecial {c : CodePoint} (h : isSpecial c = true) : c.val < 0x80 := by
  simp only [isSpecial, Bool.or_eq_true, beq_iff_eq] at h
  rcases h with ((rfl | rfl) | rfl) | rfl
  · decide
  · decide
  · decide
  · decide

theorem escape_of_plain {s : PyStr} (h : ∀ c ∈ s, isSpecial c = false) : escape s = s := by
  induction s with
  | nil => rfl
  | cons c s ih =>
    rw [escape_cons, h c List.mem_cons_self, ih fun d hd => h d (List.mem_cons_of_mem _ hd)]
    rfl

theorem escape_append (s t : PyStr) : escape (s ++ t) = escape s ++ escape t := List.flatMap_append

/-- Escaping a text and escaping its bytes is the same. -/
theorem encode_escape (s : PyStr) : Utf8.encode (escape s) = escape (Utf8.encode s) := by
  induction s with
  | nil => rfl
  | cons c s ih =>
    have hbytes : Utf8.encode (c :: s) = Utf8.encodeChar c ++ Utf8.encode s := rfl
    rw [escape_cons, Utf8.encode_append, ih, hbytes, escape_append]
    congr 1
    cases hspecial : isSpecial c with
    | true =>
      have hone := Utf8.encodeChar_of_ascii (lt_of_isSpecial hspecial)
      have hslash : Utf8.encodeChar backslash = [backslash] := Utf8.encodeChar_of_ascii (by decide)
      show Utf8.encodeChar backslash ++ (Utf8.encodeChar c ++ []) = _
      rw [hslash, hone, escape_cons, hspecial]
      rfl
    | false =>
      show Utf8.encodeChar c ++ [] = _
      rw [List.append_nil, escape_of_plain]
      intro b hb
      by_cases hascii : c.val < 0x80
      · rw [Utf8.encodeChar_of_ascii hascii] at hb
        rwa [List.mem_singleton.mp hb]
      · -- no byte of a character beyond ASCII is ASCII
        have hle := Utf8.le_of_mem_encodeChar (Nat.le_of_not_lt hascii) hb
        by_contra habs
        exact absurd (lt_of_isSpecial (Bool.not_eq_false _ ▸ habs)) (Nat.not_lt.mpr hle)

/-- **Matching bytes is matching characters**, for escaped text and a final star. -/
theorem glob_encoded (s text : PyStr) :
    glob (Utf8.encode (escape s ++ [asterisk])) (Utf8.encode text) = true ↔ s <+: text := by
  have hstar : Utf8.encode [asterisk] = [asterisk] := by decide
  rw [Utf8.encode_append, encode_escape, hstar, glob_escaped, Utf8.encode_prefix_iff]

end Glob
