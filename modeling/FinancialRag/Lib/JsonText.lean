/-
  **`json.dumps` with `ensure_ascii=False`** — a small library of its own.

  The encoder raises on two kinds of values: one nested deeper than the interpreter allows, and one with
  an integer of more digits than the interpreter converts.  Every other value has a text, in which the
  control characters are escaped and NOTHING ELSE: a lone surrogate stays as it is.

  `all_text` is the one fact about the text that is needed: what holds of the printable characters holds
  of all of it, if it holds of the texts in the value.  Hence no text has a line break in it
  (`no_newline`), and a text can be encoded if and only if the value is `encodable`.
-/
import FinancialRag.Lib.Json
import FinancialRag.Lib.PyList

set_option linter.unusedVariables false

/-- The characters from space to tilde. -/
def printableAscii (c : CodePoint) : Bool := decide (0x20 ≤ c.val) && decide (c.val < 0x7F)

theorem not_surrogate_of_printable {c : CodePoint} (h : printableAscii c = true) :
    (!PyStr.isSurrogate c) = true := by
  rw [printableAscii, Bool.and_eq_true, decide_eq_true_eq, decide_eq_true_eq] at h
  have hlow : ¬ 0xD800 ≤ c.val := by omega
  rw [PyStr.isSurrogate, decide_eq_false hlow]
  rfl

theorem encodable_of_printable {s : PyStr} (h : s.all printableAscii = true) :
    PyStr.encodable s = true :=
  List.all_eq_true.mpr fun c hc => not_surrogate_of_printable (List.all_eq_true.mp h c hc)

/-- What the interpreter contributes. -/
structure PyRuntime where
  /-- `repr` of a finite float -/
  floatRepr : Double → PyStr
  floatRepr_printable : ∀ x, (floatRepr x).all printableAscii = true
  /-- `repr` of a string: surrogates are escaped, as all that is not printable -/
  strRepr : PyStr → PyStr
  strRepr_encodable : ∀ s, (strRepr s).encodable = true
  /-- `str.isidentifier` -/
  isIdentifier : PyStr → Bool
  isIdentifier_encodable : ∀ s, isIdentifier s = true → s.encodable = true
  /-- `re.search`, `none` where the pattern is not a regular expression -/
  search : (pattern text : PyStr) → Option Bool
  /-- `sys.get_int_max_str_digits()`; zero is no limit -/
  intMaxStrDigits : Nat
  intMaxStrDigits_range : intMaxStrDigits = 0 ∨ 640 ≤ intMaxStrDigits
  /-- how deep a value the encoder can follow -/
  recursionLimit : Nat
  recursionLimit_room : 8 ≤ recursionLimit

/-- The arguments of a call of `json.dumps`. -/
structure JsonStyle where
  itemSeparator : String
  keySeparator : String
  sortKeys : Bool

inductive DumpsError where
  | recursionError
  | valueError
  deriving DecidableEq

namespace Json

def hexDigit (n : Nat) : CodePoint := ("0123456789abcdef".toList.getD (n % 16) '0').codePoint

/-- `\\uXXXX` for a control character. -/
def escapeControl (c : CodePoint) : PyStr :=
  PyStr.ofString "\\u00" ++ [hexDigit (c.val / 16), hexDigit c.val]

def escapeChar (c : CodePoint) : PyStr :=
  if c = '"'.codePoint then PyStr.ofString "\\\""
  else if c = '\\'.codePoint then PyStr.ofString "\\\\"
  else if c = '\n'.codePoint then PyStr.ofString "\\n"
  else if c = '\r'.codePoint then PyStr.ofString "\\r"
  else if c = '\t'.codePoint then PyStr.ofString "\\t"
  else if c.val = 8 then PyStr.ofString "\\b"
  else if c.val = 12 then PyStr.ofString "\\f"
  else if c.val < 0x20 then escapeControl c
  else [c]

def quote (s : PyStr) : PyStr := '"'.codePoint :: s.flatMap escapeChar ++ ['"'.codePoint]

def floatText (py : PyRuntime) : Double → PyStr
  | .nan => PyStr.ofString "NaN"
  | .infinity false => PyStr.ofString "Infinity"
  | .infinity true => PyStr.ofString "-Infinity"
  | x => py.floatRepr x

/-- The order in which members are written. -/
def arrange (style : JsonStyle) (members : List (PyStr × PyStr)) : List (PyStr × PyStr) :=
  if style.sortKeys then PyList.sorted (fun m n => decide (m.1 < n.1)) members else members

def member (style : JsonStyle) (m : PyStr × PyStr) : PyStr :=
  quote m.1 ++ PyStr.ofString style.keySeparator ++ m.2

def bracketed (style : JsonStyle) (opening closing : Char) (parts : List PyStr) : PyStr :=
  opening.codePoint :: (PyStr.ofString style.itemSeparator).intercalate parts ++ [closing.codePoint]

mutual

def text (py : PyRuntime) (style : JsonStyle) : Json → PyStr
  | .null => PyStr.ofString "null"
  | .bool true => PyStr.ofString "true"
  | .bool false => PyStr.ofString "false"
  | .int n => PyStr.ofInt n
  | .float x => floatText py x
  | .string s => quote s
  | .array items => bracketed style '[' ']' (textItems py style items)
  | .object members =>
    bracketed style '\x7b' '\x7d' ((arrange style (textMembers py style members)).map (member style))

def textItems (py : PyRuntime) (style : JsonStyle) : List Json → List PyStr
  | [] => []
  | v :: rest => text py style v :: textItems py style rest

def textMembers (py : PyRuntime) (style : JsonStyle) : List (PyStr × Json) → List (PyStr × PyStr)
  | [] => []
  | (k, v) :: rest => (k, text py style v) :: textMembers py style rest

end

/-- An integer that `int.__repr__` converts. -/
def convertible (py : PyRuntime) : Json → Bool
  | .int n => py.intMaxStrDigits == 0 || decide (n.natAbs < 10 ^ py.intMaxStrDigits)
  | _ => true

/-- `json.dumps(v, ensure_ascii=False, …)`. -/
def dumps (py : PyRuntime) (style : JsonStyle) (v : Json) : Except DumpsError PyStr :=
  if py.recursionLimit < v.depth then .error .recursionError
  else if !everywhere (convertible py) v then .error .valueError
  else .ok (text py style v)

/-! ## The characters of a text -/

/-- The texts at a node. -/
def texts : Json → List PyStr
  | .string s => [s]
  | .object members => members.map Prod.fst
  | _ => []

/-- No lone surrogate, anywhere in the value. -/
def encodable (v : Json) : Bool := everywhere (fun u => u.texts.all PyStr.encodable) v

section Characters

variable {py : PyRuntime} {style : JsonStyle} {p : CodePoint → Bool}

theorem all_ofString {s : String} (hp : ∀ c, printableAscii c = true → p c = true)
    (hs : s.toList.all (fun d => printableAscii d.codePoint) = true) : (PyStr.ofString s).all p = true := by
  rw [PyStr.ofString, List.all_map, List.all_eq_true]
  intro d hd
  exact hp _ (List.all_eq_true.mp hs d hd)

theorem all_ofInt (hp : ∀ c, printableAscii c = true → p c = true) (n : Int) :
    (PyStr.ofInt n).all p = true := by
  rw [List.all_eq_true]
  intro c hc
  obtain ⟨d, rfl, hd⟩ := PyStr.mem_ofInt hc
  apply hp
  rcases hd with hdigit | rfl
  · have hrange : 48 ≤ d.toNat ∧ d.toNat ≤ 57 := by
      rw [Char.isDigit, Bool.and_eq_true, decide_eq_true_eq, decide_eq_true_eq] at hdigit
      exact hdigit
    show (decide (0x20 ≤ d.toNat) && decide (d.toNat < 0x7F)) = true
    rw [Bool.and_eq_true, decide_eq_true_eq, decide_eq_true_eq]
    omega
  · decide

theorem all_intercalate {separator : PyStr} (hseparator : separator.all p = true) (parts : List PyStr) :
    (separator.intercalate parts).all p = parts.all fun s => s.all p := by
  induction parts with
  | nil => rfl
  | cons s parts ih =>
    cases parts with
    | nil => simp [List.intercalate]
    | cons t parts =>
      rw [List.intercalate_cons_cons, List.all_append, List.all_append, hseparator, ih, Bool.and_true]
      rfl

/-- What `p` asks of a character of a text in the value. -/
def escapedOr (p : CodePoint → Bool) (c : CodePoint) : Bool := decide (c.val < 0x20) || p c

theorem hexDigit_printable (n : Nat) : printableAscii (hexDigit n) = true := by
  have hall : ∀ k < 16, printableAscii (hexDigit k) = true := by decide
  have hmod : hexDigit n = hexDigit (n % 16) := by
    unfold hexDigit
    rw [Nat.mod_mod]
  rw [hmod]
  exact hall _ (Nat.mod_lt _ (by decide))

theorem all_escapeChar (hp : ∀ c, printableAscii c = true → p c = true) (c : CodePoint) :
    (escapeChar c).all p = escapedOr p c := by
  have hcontrol : c.val < 0x20 → escapedOr p c = true := by
    intro h
    unfold escapedOr
    rw [decide_eq_true h, Bool.true_or]
  have hprintable : printableAscii c = true → escapedOr p c = true := by
    intro h
    unfold escapedOr
    rw [hp c h, Bool.or_true]
  unfold escapeChar
  split
  · rename_i h
    rw [all_ofString hp (by decide), hprintable (by rw [h]; decide)]
  split
  · rename_i h
    rw [all_ofString hp (by decide), hprintable (by rw [h]; decide)]
  split
  · rename_i h
    rw [all_ofString hp (by decide), hcontrol (by rw [h]; decide)]
  split
  · rename_i h
    rw [all_ofString hp (by decide), hcontrol (by rw [h]; decide)]
  split
  · rename_i h
    rw [all_ofString hp (by decide), hcontrol (by rw [h]; decide)]
  split
  · rename_i h
    rw [all_ofString hp (by decide), hcontrol (by omega)]
  split
  · rename_i h
    rw [all_ofString hp (by decide), hcontrol (by omega)]
  split
  · rename_i h
    have hdigits : [hexDigit (c.val / 16), hexDigit c.val].all p = true := by
      simp [hp _ (hexDigit_printable _)]
    rw [hcontrol h, escapeControl, List.all_append, all_ofString hp (by decide), hdigits]
    rfl
  · rename_i h
    unfold escapedOr
    rw [decide_eq_false h, Bool.false_or, List.all_cons, List.all_nil, Bool.and_true]

theorem all_quote (hp : ∀ c, printableAscii c = true → p c = true) (s : PyStr) :
    (quote s).all p = s.all (escapedOr p) := by
  have hquote : p '"'.codePoint = true := hp _ (by decide)
  unfold quote
  rw [List.all_append, List.all_cons, List.all_flatMap, List.all_cons, List.all_nil, hquote,
    Bool.true_and, Bool.and_true, Bool.and_true]
  exact congrArg (s.all ·) (funext fun c => all_escapeChar hp c)

theorem all_floatText (hp : ∀ c, printableAscii c = true → p c = true) (x : Double) :
    (floatText py x).all p = true := by
  have hrepr : ∀ y, (py.floatRepr y).all p = true := by
    intro y
    rw [List.all_eq_true]
    intro c hc
    exact hp c (List.all_eq_true.mp (py.floatRepr_printable y) c hc)
  unfold floatText
  split
  · exact all_ofString hp (by decide)
  · exact all_ofString hp (by decide)
  · exact all_ofString hp (by decide)
  · exact hrepr _

/-- The separators are printable. -/
def JsonStyle.Printable (style : JsonStyle) : Prop :=
  style.itemSeparator.toList.all (fun d => printableAscii d.codePoint) = true ∧
    style.keySeparator.toList.all (fun d => printableAscii d.codePoint) = true

theorem all_bracketed (hp : ∀ c, printableAscii c = true → p c = true) (hstyle : JsonStyle.Printable style)
    {opening closing : Char} (hopening : printableAscii opening.codePoint = true)
    (hclosing : printableAscii closing.codePoint = true) (parts : List PyStr) :
    (bracketed style opening closing parts).all p = parts.all fun s => s.all p := by
  unfold bracketed
  rw [List.all_append, List.all_cons, all_intercalate (all_ofString hp hstyle.1), hp _ hopening,
    List.all_cons, hp _ hclosing, List.all_nil, Bool.true_and, Bool.true_and, Bool.and_true]

theorem all_member (hp : ∀ c, printableAscii c = true → p c = true) (hstyle : JsonStyle.Printable style)
    (m : PyStr × PyStr) : (member style m).all p = (m.1.all (escapedOr p) && m.2.all p) := by
  unfold member
  rw [List.all_append, List.all_append, all_quote hp, all_ofString hp hstyle.2, Bool.and_true]

theorem all_arrange (f : PyStr × PyStr → Bool) (members : List (PyStr × PyStr)) :
    (arrange style members).all f = members.all f := by
  unfold arrange
  split
  · rw [Bool.eq_iff_iff, List.all_eq_true, List.all_eq_true]
    exact forall_congr' fun m => by rw [PyList.mem_sorted]
  · rfl

theorem textItems_eq (items : List Json) : textItems py style items = items.map (text py style) := by
  induction items with
  | nil => rfl
  | cons v rest ih => rw [textItems, ih, List.map_cons]

theorem textMembers_eq (members : Members) :
    textMembers py style members = members.map fun m => (m.1, text py style m.2) := by
  induction members with
  | nil => rfl
  | cons m rest ih =>
    obtain ⟨k, v⟩ := m
    rw [textMembers, ih, List.map_cons]

/-- **The characters of a text** are printable, or come from a text in the value. -/
theorem all_text (hp : ∀ c, printableAscii c = true → p c = true) (hstyle : JsonStyle.Printable style)
    (v : Json) :
    (text py style v).all p = everywhere (fun u => u.texts.all fun s => s.all (escapedOr p)) v := by
  induction v with
  | null => exact all_ofString hp (by decide)
  | bool b =>
    cases b with
    | true => exact all_ofString hp (by decide)
    | false => exact all_ofString hp (by decide)
  | int n => exact all_ofInt hp n
  | float x => exact all_floatText hp x
  | string s =>
    rw [text, all_quote hp]
    exact (Bool.and_true _).symm
  | array items ih =>
    rw [text, all_bracketed hp hstyle (by decide) (by decide), textItems_eq, List.all_map,
      Bool.eq_iff_iff, everywhere_array, List.all_eq_true]
    constructor
    · intro h
      refine ⟨rfl, fun v hv => ?_⟩
      rw [← ih v hv]
      exact h v hv
    · rintro ⟨_, h⟩ v hv
      show (text py style v).all p = true
      rw [ih v hv]
      exact h v hv
  | object members ih =>
    rw [text, all_bracketed hp hstyle (by decide) (by decide), List.all_map, all_arrange,
      textMembers_eq, List.all_map, Bool.eq_iff_iff, everywhere_object, List.all_eq_true, texts,
      List.all_map, List.all_eq_true, ← forall₂_and]
    refine forall_congr' fun m => forall_congr' fun hm => ?_
    show (member style (m.1, text py style m.2)).all p = true ↔ _
    rw [all_member hp hstyle, ih m hm, Bool.and_eq_true]
    rfl

/-- **One line.** -/
theorem no_newline (hstyle : JsonStyle.Printable style) (v : Json) : '\n'.codePoint ∉ text py style v := by
  have hall : (text py style v).all (fun c => decide (c ≠ '\n'.codePoint)) = true := by
    rw [all_text ?_ hstyle]
    · refine everywhere_of_forall ?_ v
      intro u
      rw [List.all_eq_true]
      intro s _
      rw [List.all_eq_true]
      intro c _
      unfold escapedOr
      rw [Bool.or_eq_true, decide_eq_true_eq, decide_eq_true_eq]
      by_cases hc : c = '\n'.codePoint
      · exact Or.inl (by rw [hc]; decide)
      · exact Or.inr hc
    · intro c hc
      refine decide_eq_true ?_
      rintro rfl
      cases hc
  intro hmem
  exact absurd rfl (of_decide_eq_true (List.all_eq_true.mp hall _ hmem))

/-- **A text can be written** if and only if no text in the value holds a lone surrogate. -/
theorem encodable_text (hstyle : JsonStyle.Printable style) (v : Json) :
    PyStr.encodable (text py style v) = v.encodable := by
  unfold PyStr.encodable
  rw [all_text (fun _ => not_surrogate_of_printable) hstyle]
  have hescaped : escapedOr (fun c => !PyStr.isSurrogate c) = fun c => !PyStr.isSurrogate c := by
    funext c
    unfold escapedOr
    by_cases hc : c.val < 0x20
    · have hlow : ¬ 0xD800 ≤ c.val := by omega
      rw [decide_eq_true hc, PyStr.isSurrogate, decide_eq_false hlow]
      rfl
    · rw [decide_eq_false hc, Bool.false_or]
  rw [hescaped]
  rfl

/-! ## What can be written -/

/-- `v`, nested `room` deep in what is written, is no obstacle to writing it. -/
def Writable (py : PyRuntime) (room : Nat) (v : Json) : Prop :=
  v.depth + room ≤ py.recursionLimit ∧ everywhere (convertible py) v = true ∧ v.encodable = true

/-- **When a value can be written**: it has a text, and the text can be encoded. -/
theorem dumps_writable_iff (hstyle : JsonStyle.Printable style) {v : Json} :
    (∃ s, dumps py style v = .ok s ∧ PyStr.encodable s = true) ↔ Writable py 0 v := by
  unfold dumps Writable
  rw [Nat.add_zero]
  by_cases hdepth : py.recursionLimit < v.depth
  · rw [if_pos hdepth]
    constructor
    · rintro ⟨s, habs, _⟩
      cases habs
    · rintro ⟨hle, _⟩
      exact absurd hdepth (not_lt.mpr hle)
  · rw [if_neg hdepth]
    cases hconvertible : everywhere (convertible py) v with
    | false =>
      constructor
      · rintro ⟨s, habs, _⟩
        cases habs
      · rintro ⟨_, habs, _⟩
        cases habs
    | true =>
      constructor
      · rintro ⟨s, hs, hencodable⟩
        obtain rfl := Except.ok.inj hs
        exact ⟨not_lt.mp hdepth, rfl, (encodable_text hstyle v).symm.trans hencodable⟩
      · rintro ⟨_, _, hencodable⟩
        exact ⟨_, rfl, (encodable_text hstyle v).trans hencodable⟩

theorem dumps_eq_text {v : Json} {s : PyStr} (h : dumps py style v = .ok s) : s = text py style v := by
  unfold dumps at h
  split at h
  · cases h
  split at h
  · cases h
  · exact (Except.ok.inj h).symm

theorem depthMembers_le_iff {members : Members} {n : Nat} :
    depthMembers members ≤ n ↔ ∀ m ∈ members, m.2.depth ≤ n := by
  induction members with
  | nil => simp [depthMembers]
  | cons m rest ih =>
    obtain ⟨k, v⟩ := m
    rw [depthMembers, max_le_iff, ih, List.forall_mem_cons]

theorem depthItems_le_iff {items : List Json} {n : Nat} :
    depthItems items ≤ n ↔ ∀ v ∈ items, v.depth ≤ n := by
  induction items with
  | nil => simp [depthItems]
  | cons v rest ih => rw [depthItems, max_le_iff, ih, List.forall_mem_cons]

theorem depth_room_iff {below limit room : Nat} :
    below + 1 + room ≤ limit ↔ room + 1 ≤ limit ∧ below ≤ limit - (room + 1) := by
  omega

theorem writable_object {room : Nat} {members : Members} :
    Writable py room (.object members) ↔ room + 1 ≤ py.recursionLimit ∧
      ∀ m ∈ members, PyStr.encodable m.1 = true ∧ Writable py (room + 1) m.2 := by
  unfold Writable
  rw [encodable, everywhere_object, everywhere_object, depth, depth_room_iff, depthMembers_le_iff, texts,
    List.all_map, List.all_eq_true]
  constructor
  · rintro ⟨⟨hroom, hdepth⟩, ⟨_, hconvertible⟩, hkeys, hencodable⟩
    refine ⟨hroom, fun m hm => ⟨hkeys m hm, ?_, hconvertible m hm, hencodable m hm⟩⟩
    have hle := hdepth m hm
    omega
  · rintro ⟨hroom, hmembers⟩
    refine ⟨⟨hroom, fun m hm => ?_⟩, ⟨rfl, fun m hm => (hmembers m hm).2.2.1⟩,
      fun m hm => (hmembers m hm).1, fun m hm => (hmembers m hm).2.2.2⟩
    have hle := (hmembers m hm).2.1
    omega

theorem writable_array {room : Nat} {items : List Json} :
    Writable py room (.array items) ↔ room + 1 ≤ py.recursionLimit ∧
      ∀ v ∈ items, Writable py (room + 1) v := by
  unfold Writable
  rw [encodable, everywhere_array, everywhere_array, depth, depth_room_iff, depthItems_le_iff]
  constructor
  · rintro ⟨⟨hroom, hdepth⟩, ⟨_, hconvertible⟩, _, hencodable⟩
    refine ⟨hroom, fun v hv => ⟨?_, hconvertible v hv, hencodable v hv⟩⟩
    have hle := hdepth v hv
    omega
  · rintro ⟨hroom, hitems⟩
    refine ⟨⟨hroom, fun v hv => ?_⟩, ⟨rfl, fun v hv => (hitems v hv).2.1⟩, rfl,
      fun v hv => (hitems v hv).2.2⟩
    have hle := (hitems v hv).1
    omega

@[simp] theorem writable_string {room : Nat} {s : PyStr} :
    Writable py room (.string s) ↔ room ≤ py.recursionLimit ∧ PyStr.encodable s = true := by
  have hdepth : (Json.string s).depth = 0 := rfl
  unfold Writable
  rw [hdepth, Nat.zero_add]
  refine and_congr_right fun _ => ?_
  rw [and_iff_right (show everywhere (convertible py) (.string s) = true from rfl)]
  exact Eq.congr (Bool.and_true _) rfl

/-- A scalar without text. -/
theorem writable_of_everywhere {room : Nat} {v : Json} (hdepth : v.depth = 0)
    (hroom : room ≤ py.recursionLimit) (hconvertible : everywhere (convertible py) v = true)
    (hencodable : v.encodable = true) : Writable py room v := by
  refine ⟨?_, hconvertible, hencodable⟩
  rw [hdepth, Nat.zero_add]
  exact hroom

/-- A small integer. -/
theorem writable_int {room : Nat} {n : Int} (hroom : room ≤ py.recursionLimit) (hn : n.natAbs < 10 ^ 6) :
    Writable py room (.int n) := by
  refine writable_of_everywhere rfl hroom ?_ rfl
  show (py.intMaxStrDigits == 0 || decide (n.natAbs < 10 ^ py.intMaxStrDigits)) = true
  rw [Bool.or_eq_true, beq_iff_eq, decide_eq_true_eq]
  rcases py.intMaxStrDigits_range with hzero | hlarge
  · exact Or.inl hzero
  · exact Or.inr (hn.trans_le (Nat.pow_le_pow_right (by decide) (by omega)))

end Characters

end Json

/-- An interpreter that prints no float and knows no regular expression but the empty one. -/
def PyRuntime.plain : PyRuntime where
  floatRepr _ := PyStr.ofString "0.0"
  floatRepr_printable _ := by decide
  strRepr s := if s.all printableAscii then '\''.codePoint :: s ++ ['\''.codePoint] else PyStr.ofString "'...'"
  strRepr_encodable s := by
    split
    · rename_i hs
      rw [List.cons_append, ← List.singleton_append, PyStr.encodable_append, PyStr.encodable_append,
        encodable_of_printable hs]
      decide
    · exact PyStr.encodable_ofString _
  isIdentifier s := s.isEmpty == false && s.all fun c => decide (97 ≤ c.val) && decide (c.val ≤ 122)
  isIdentifier_encodable s h := by
    rw [Bool.and_eq_true] at h
    refine List.all_eq_true.mpr fun c hc => ?_
    have hletter := List.all_eq_true.mp h.2 c hc
    rw [Bool.and_eq_true, decide_eq_true_eq, decide_eq_true_eq] at hletter
    have hlow : ¬ 0xD800 ≤ c.val := by omega
    rw [PyStr.isSurrogate, decide_eq_false hlow]
    rfl
  search pattern _ := if pattern.isEmpty then some true else none
  intMaxStrDigits := 4300
  intMaxStrDigits_range := by decide
  recursionLimit := 1000
  recursionLimit_room := by decide
