/-
  **Reading JSON texts back** — a small library of its own.

  A quoted string can be read off the front of a text, whatever stands behind it, so texts put together
  from quoted strings and fixed words determine what was written (`quote_prefixCode`).

  With `ensure_ascii`, the default of `json.dumps`, what is not printable ASCII is escaped as well.

  `code` is a text for every value from which the value can be read back (`code_prefixCode`).
-/
import FinancialRag.Lib.JsonText
import FinancialRag.Lib.PrefixCode

set_option linter.unusedVariables false

namespace Json

/-! ## Quoted strings -/

/-- The value of a hexadecimal digit. -/
def hexValue (c : CodePoint) : Nat := ("0123456789abcdef".toList.map Char.codePoint).idxOf c

/-- What a backslash and the text behind it stand for. -/
def unescapeBehind : PyStr → Option (CodePoint × PyStr)
  | [] => none
  | c :: rest =>
    if c = 'u'.codePoint then
      some (Fin.ofNat 0x110000 (16 * hexValue (rest.getD 2 0) + hexValue (rest.getD 3 0)), rest.drop 4)
    else if c = 'n'.codePoint then some ('\n'.codePoint, rest)
    else if c = 'r'.codePoint then some ('\r'.codePoint, rest)
    else if c = 't'.codePoint then some ('\t'.codePoint, rest)
    else if c = 'b'.codePoint then some (8, rest)
    else if c = 'f'.codePoint then some (12, rest)
    else some (c, rest)

/-- The first character of an escaped text, and the text behind it. -/
def unescape : PyStr → Option (CodePoint × PyStr)
  | [] => none
  | c :: rest => if c = '\\'.codePoint then unescapeBehind rest else some (c, rest)

theorem unescape_control {c : CodePoint} (hc : c.val < 0x20) (rest : PyStr) :
    unescape (escapeControl c ++ rest) = some (c, rest) := by
  have hall : ∀ n < 0x20, 16 * hexValue (hexDigit (n / 16)) + hexValue (hexDigit n) = n := by decide
  have htext : escapeControl c ++ rest = '\\'.codePoint :: 'u'.codePoint :: '0'.codePoint ::
      '0'.codePoint :: hexDigit (c.val / 16) :: hexDigit c.val :: rest := rfl
  have hvalue : Fin.ofNat 0x110000 (16 * hexValue (hexDigit (c.val / 16)) + hexValue (hexDigit c.val)) = c :=
    Fin.ext (by rw [hall _ hc]; exact Nat.mod_eq_of_lt c.isLt)
  rw [htext, unescape, if_pos rfl]
  exact congrArg some (Prod.ext hvalue rfl)

theorem unescape_escapeChar (c : CodePoint) (rest : PyStr) :
    unescape (escapeChar c ++ rest) = some (c, rest) := by
  unfold escapeChar
  split
  · rename_i h
    rw [h]
    rfl
  split
  · rename_i h
    rw [h]
    rfl
  split
  · rename_i h
    rw [h]
    rfl
  split
  · rename_i h
    rw [h]
    rfl
  split
  · rename_i h
    rw [h]
    rfl
  split
  · rename_i h
    rw [show c = 8 from Fin.ext h]
    rfl
  split
  · rename_i h
    rw [show c = 12 from Fin.ext h]
    rfl
  split
  · rename_i h
    exact unescape_control h rest
  · rename_i hbackslash _ _ _ _ _ _
    rw [List.singleton_append, unescape, if_neg hbackslash]

theorem escapeChar_prefixCode : PrefixCode escapeChar := .of_decoder unescape unescape_escapeChar

/-- No escaped character starts with a quotation mark. -/
theorem head_escapeChar (c : CodePoint) (rest : PyStr) :
    (escapeChar c ++ rest).head? ≠ some '"'.codePoint := by
  intro hhead
  obtain ⟨more, hmore⟩ := List.head?_eq_some_iff.mp hhead
  have h := unescape_escapeChar c rest
  rw [hmore, unescape, if_neg (by decide)] at h
  obtain ⟨rfl, -⟩ := Prod.mk.inj (Option.some.inj h)
  have hbackslash : (escapeChar '"'.codePoint ++ rest).head? = some '\\'.codePoint := rfl
  rw [hbackslash] at hhead
  exact absurd (Option.some.inj hhead) (by decide)

/-- **A quoted string can be read off the front.** -/
theorem quote_prefixCode : PrefixCode quote :=
  .word_append ['"'.codePoint] (escapeChar_prefixCode.flatMap head_escapeChar)

/-! ## `ensure_ascii` -/

/-- `\\uXXXX`. -/
def escapeUnit (n : Nat) : PyStr :=
  PyStr.ofString "\\u" ++ [hexDigit (n / 0x1000), hexDigit (n / 0x100), hexDigit (n / 0x10), hexDigit n]

/-- What is not printable ASCII, escaped as one unit of UTF-16 or two. -/
def escapeNonAscii (c : CodePoint) : PyStr :=
  if printableAscii c then [c]
  else if c.val < 0x10000 then escapeUnit c.val
  else escapeUnit (0xD800 + (c.val - 0x10000) / 0x400) ++ escapeUnit (0xDC00 + (c.val - 0x10000) % 0x400)

/-- `json.dumps(v, …)`: nothing but strings holds characters that are not printable. -/
def dumpsAscii (py : PyRuntime) (style : JsonStyle) (v : Json) : Except DumpsError PyStr :=
  (dumps py style v).map fun s => s.flatMap escapeNonAscii

theorem flatMap_escapeNonAscii {s : PyStr} (h : s.all printableAscii = true) :
    s.flatMap escapeNonAscii = s := by
  induction s with
  | nil => rfl
  | cons c s ih =>
    rw [List.all_cons, Bool.and_eq_true] at h
    rw [List.flatMap_cons, ih h.2, escapeNonAscii, if_pos h.1]
    rfl

/-! ## Values -/

/-- A number up to a semicolon. -/
def codeInt (n : Int) : PyStr := PyStr.ofInt n ++ [';'.codePoint]

theorem codeInt_prefixCode : PrefixCode codeInt :=
  .terminated PyStr.ofInt_injective (PyStr.notMem_ofInt (by decide) (by decide))

/-- Which kind of value it is, of the scalars without content which one. -/
def tag : Json → Char
  | .null => 'n'
  | .bool true => 't'
  | .bool false => 'f'
  | .int _ => 'i'
  | .float (.finite _) => 'q'
  | .float .negativeZero => 'z'
  | .float (.infinity true) => 'm'
  | .float (.infinity false) => 'p'
  | .float .nan => 'x'
  | .string _ => 's'
  | .array _ => 'a'
  | .object _ => 'o'

mutual

/-- A text from which the value can be read back. -/
def code : Json → PyStr
  | .int n => 'i'.codePoint :: codeInt n
  | .float (.finite q) => 'q'.codePoint :: (codeInt q.num ++ codeInt q.den)
  | .string s => 's'.codePoint :: quote s
  | .array items => 'a'.codePoint :: codeItems items
  | .object members => 'o'.codePoint :: codeMembers members
  | v => [(tag v).codePoint]

def codeItems : List Json → PyStr
  | [] => [']'.codePoint]
  | v :: rest => ','.codePoint :: (code v ++ codeItems rest)

def codeMembers : List (PyStr × Json) → PyStr
  | [] => ['}'.codePoint]
  | (k, v) :: rest => ','.codePoint :: (quote k ++ (code v ++ codeMembers rest))

end

theorem head_code (v : Json) (rest : PyStr) : (code v ++ rest).head? = some (tag v).codePoint := by
  cases v with
  | bool b => cases b <;> rfl
  | float x =>
    cases x with
    | infinity negative => cases negative <;> rfl
    | finite q => rfl
    | negativeZero => rfl
    | nan => rfl
  | null => rfl
  | int n => rfl
  | string s => rfl
  | array items => rfl
  | object members => rfl

theorem tag_eq_of_code {v w : Json} {rest rest' : PyStr} (h : code v ++ rest = code w ++ rest') : tag v = tag w := by
  have hhead := congrArg List.head? h
  rw [head_code, head_code] at hhead
  exact PyStr.codePoint_injective (Option.some.inj hhead)

theorem codeItems_prefixCode {items : List Json}
    (ih : ∀ v ∈ items, ∀ w rest rest', code v ++ rest = code w ++ rest' → v = w ∧ rest = rest') :
    ∀ items' rest rest', codeItems items ++ rest = codeItems items' ++ rest' → items = items' ∧ rest = rest' := by
  induction items with
  | nil =>
    intro items' rest rest' h
    cases items' with
    | nil => exact ⟨rfl, List.append_cancel_left h⟩
    | cons w ws => exact absurd (List.cons.inj h).1 (by decide)
  | cons v vs ihs =>
    intro items' rest rest' h
    cases items' with
    | nil => exact absurd (List.cons.inj h).1 (by decide)
    | cons w ws =>
      have hbody : code v ++ codeItems vs ++ rest = code w ++ codeItems ws ++ rest' := (List.cons.inj h).2
      rw [List.append_assoc, List.append_assoc] at hbody
      obtain ⟨rfl, hmore⟩ := ih v List.mem_cons_self w _ _ hbody
      obtain ⟨rfl, hrest⟩ := ihs (fun u hu => ih u (List.mem_cons_of_mem _ hu)) ws _ _ hmore
      exact ⟨rfl, hrest⟩

theorem codeMembers_prefixCode {members : List (PyStr × Json)}
    (ih : ∀ m ∈ members, ∀ w rest rest', code m.2 ++ rest = code w ++ rest' → m.2 = w ∧ rest = rest') :
    ∀ members' rest rest', codeMembers members ++ rest = codeMembers members' ++ rest' →
      members = members' ∧ rest = rest' := by
  induction members with
  | nil =>
    intro members' rest rest' h
    cases members' with
    | nil => exact ⟨rfl, List.append_cancel_left h⟩
    | cons w ws => exact absurd (List.cons.inj h).1 (by decide)
  | cons v vs ihs =>
    obtain ⟨k, v⟩ := v
    intro members' rest rest' h
    cases members' with
    | nil => exact absurd (List.cons.inj h).1 (by decide)
    | cons w ws =>
      obtain ⟨k', w⟩ := w
      have hbody : quote k ++ (code v ++ codeMembers vs) ++ rest = quote k' ++ (code w ++ codeMembers ws) ++ rest' :=
        (List.cons.inj h).2
      simp only [List.append_assoc] at hbody
      obtain ⟨rfl, hvalue⟩ := quote_prefixCode k k' _ _ hbody
      obtain ⟨hvw, hmore⟩ := ih (k, v) List.mem_cons_self w _ _ hvalue
      obtain rfl : v = w := hvw
      obtain ⟨rfl, hrest⟩ := ihs (fun u hu => ih u (List.mem_cons_of_mem _ hu)) ws _ _ hmore
      exact ⟨rfl, hrest⟩

/-- **A value can be read off the front.** -/
theorem code_prefixCode : PrefixCode code := by
  intro v
  induction v with
  | null =>
    intro w rest rest' h
    have htag := tag_eq_of_code h
    rcases w with _ | ⟨_ | _⟩ | n | ⟨q | _ | ⟨_ | _⟩ | _⟩ | s | items | members
    any_goals simp [tag] at htag
    exact ⟨rfl, List.append_cancel_left h⟩
  | bool b =>
    intro w rest rest' h
    have htag := tag_eq_of_code h
    rcases b with _ | _ <;> rcases w with _ | ⟨_ | _⟩ | n | ⟨q | _ | ⟨_ | _⟩ | _⟩ | s | items | members
    any_goals simp [tag] at htag
    · exact ⟨rfl, List.append_cancel_left h⟩
    · exact ⟨rfl, List.append_cancel_left h⟩
  | int n =>
    intro w rest rest' h
    have htag := tag_eq_of_code h
    rcases w with _ | ⟨_ | _⟩ | m | ⟨q | _ | ⟨_ | _⟩ | _⟩ | s | items | members
    any_goals simp [tag] at htag
    obtain ⟨rfl, hrest⟩ := codeInt_prefixCode n m _ _ (List.cons.inj h).2
    exact ⟨rfl, hrest⟩
  | float x =>
    intro w rest rest' h
    have htag := tag_eq_of_code h
    rcases x with q | _ | ⟨_ | _⟩ | _ <;>
      rcases w with _ | ⟨_ | _⟩ | m | ⟨r | _ | ⟨_ | _⟩ | _⟩ | s | items | members
    any_goals simp [tag] at htag
    · have hbody : codeInt q.num ++ codeInt q.den ++ rest = codeInt r.num ++ codeInt r.den ++ rest' :=
        (List.cons.inj h).2
      rw [List.append_assoc, List.append_assoc] at hbody
      obtain ⟨hnum, hmore⟩ := codeInt_prefixCode _ _ _ _ hbody
      obtain ⟨hden, hrest⟩ := codeInt_prefixCode _ _ _ _ hmore
      obtain rfl : q = r := Rat.ext hnum (Int.ofNat.inj hden)
      exact ⟨rfl, hrest⟩
    all_goals exact ⟨rfl, List.append_cancel_left h⟩
  | string s =>
    intro w rest rest' h
    have htag := tag_eq_of_code h
    rcases w with _ | ⟨_ | _⟩ | m | ⟨q | _ | ⟨_ | _⟩ | _⟩ | t | items | members
    any_goals simp [tag] at htag
    obtain ⟨rfl, hrest⟩ := quote_prefixCode s t _ _ (List.cons.inj h).2
    exact ⟨rfl, hrest⟩
  | array items ih =>
    intro w rest rest' h
    have htag := tag_eq_of_code h
    rcases w with _ | ⟨_ | _⟩ | m | ⟨q | _ | ⟨_ | _⟩ | _⟩ | t | items' | members
    any_goals simp [tag] at htag
    obtain ⟨rfl, hrest⟩ := codeItems_prefixCode ih items' _ _ (List.cons.inj h).2
    exact ⟨rfl, hrest⟩
  | object members ih =>
    intro w rest rest' h
    have htag := tag_eq_of_code h
    rcases w with _ | ⟨_ | _⟩ | m | ⟨q | _ | ⟨_ | _⟩ | _⟩ | t | items' | members'
    any_goals simp [tag] at htag
    obtain ⟨rfl, hrest⟩ := codeMembers_prefixCode ih members' _ _ (List.cons.inj h).2
    exact ⟨rfl, hrest⟩

end Json
