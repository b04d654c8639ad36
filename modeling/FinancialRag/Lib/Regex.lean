/-
  **A backtracking matcher for regular expressions** — a small library of its own.

  A pattern is matched by the list of its SUCCESSES in priority order: the first element is the match
  a backtracking engine reports, the later ones are what it falls back to when the rest of the pattern
  fails.  Ordered alternatives, greedy and lazy repetition of a character class, word boundaries, negative
  lookaround for a class and named groups are there; an unbounded repetition of anything but a class is not,
  so every list is finite and every function below is structurally recursive.

  `search` asks whether some position matches and `find` for the first match, `finditer` reads the matches
  from left to right without overlaps.

  What a match reads is described by `Within`, `Begins` and `Ends` (all its characters, the first, the
  last).  A pattern without groups and boundaries looks at nothing but the text ahead: its successes are
  the LENGTHS it may read, in order (`ends_eq_map_lengths`).
-/
import Mathlib.Data.List.TakeWhile

set_option linter.unusedVariables false

/-- A regular expression over characters. -/
inductive Re where
  | eps
  /-- one character of a class -/
  | cls (p : Char → Bool)
  | seq (a b : Re)
  /-- `a|b`: `a` is tried first -/
  | alt (a b : Re)
  /-- at least `lo` and at most `hi` characters of a class, as many (`greedy`) or as few as possible -/
  | rep (p : Char → Bool) (lo : Nat) (hi : Option Nat) (greedy : Bool)
  /-- `\b`, for the class `isWord` -/
  | boundary (isWord : Char → Bool)
  /-- `(?<!p)` -/
  | notBehind (p : Char → Bool)
  /-- `(?!p)` -/
  | notAhead (p : Char → Bool)
  /-- `(?P<name>…)` -/
  | group (name : String) (a : Re)

namespace Re

/-- A position in a text: the character before it, the characters after it, and the groups read on
    the way. -/
structure Cursor where
  prev : Option Char
  rest : List Char
  groups : List (String × String)

/-- The cursor after `n` more characters. -/
def Cursor.advance (c : Cursor) : Nat → Cursor
  | 0 => c
  | n + 1 =>
    match c.rest with
    | [] => c
    | x :: xs => Cursor.advance { c with prev := some x, rest := xs } n

/-- How many characters of the class stand at the head of `s`, counting at most `hi`. -/
def runLength (p : Char → Bool) (hi : Option Nat) (s : List Char) : Nat :=
  let run := (s.takeWhile p).length
  match hi with
  | some n => min n run
  | none => run

/-- The successes of a pattern at a cursor, first choice first. -/
def ends : Re → Cursor → List Cursor
  | .eps, c => [c]
  | .cls p, c => if c.rest.head?.any p then [c.advance 1] else []
  | .seq a b, c => (a.ends c).flatMap b.ends
  | .alt a b, c => a.ends c ++ b.ends c
  | .rep p lo hi greedy, c =>
    let lengths := (List.range (runLength p hi c.rest + 1)).filter fun n => decide (lo ≤ n)
    (if greedy then lengths.reverse else lengths).map c.advance
  | .boundary isWord, c => if c.prev.any isWord != c.rest.head?.any isWord then [c] else []
  | .notBehind p, c => if c.prev.any p then [] else [c]
  | .notAhead p, c => if c.rest.head?.any p then [] else [c]
  | .group name a, c =>
    (a.ends c).map fun e =>
      { e with groups :=
          (name, String.ofList (c.rest.take (c.rest.length - e.rest.length))) :: e.groups }

/-- A repetition that may be empty matches here, before anything is read. -/
theorem mem_ends_rep_zero (p : Char → Bool) (hi : Option Nat) (greedy : Bool) (c : Cursor) :
    c ∈ (Re.rep p 0 hi greedy).ends c := by
  have hzero : 0 ∈ (List.range (runLength p hi c.rest + 1)).filter fun n => decide (0 ≤ n) := by
    simp
  unfold ends
  refine List.mem_map.mpr ⟨0, ?_, rfl⟩
  cases greedy with
  | true => exact List.mem_reverse.mpr hzero
  | false => exact hzero

/-- `match.group(name)`. -/
def Cursor.group (c : Cursor) (name : String) : String := (c.groups.lookup name).getD ""

/-- Some position of the text from `prev` on matches. -/
def searchFrom (r : Re) (prev : Option Char) : List Char → Bool
  | [] => !(r.ends ⟨prev, [], []⟩).isEmpty
  | x :: xs => !(r.ends ⟨prev, x :: xs, []⟩).isEmpty || searchFrom r (some x) xs

/-- `re.search`, as a truth value. -/
def search (r : Re) (s : String) : Bool := r.searchFrom none s.toList

/-- The matches from `prev` on; the next `skip` characters belong to the match before. -/
def finditerFrom (r : Re) : Option Char → Nat → List Char → List Cursor
  | _, _, [] => []
  | _, skip + 1, x :: xs => finditerFrom r (some x) skip xs
  | prev, 0, x :: xs =>
    match (r.ends ⟨prev, x :: xs, []⟩).head? with
    | some e => e :: finditerFrom r (some x) (xs.length - e.rest.length) xs
    | none => finditerFrom r (some x) 0 xs

/-- `re.finditer`, for a pattern that does not match the empty text. -/
def finditer (r : Re) (s : String) : List Cursor := r.finditerFrom none 0 s.toList

/-- `re.findall` from `prev` on, for a pattern without groups that does not match the empty text: the texts of its
    matches; the next `skip` characters belong to the match before. -/
def findallFrom (r : Re) : Option Char → Nat → List Char → List (List Char)
  | _, _, [] => []
  | _, skip + 1, x :: xs => findallFrom r (some x) skip xs
  | prev, 0, x :: xs =>
    match (r.ends ⟨prev, x :: xs, []⟩).head? with
    | some e =>
      (x :: xs).take ((x :: xs).length - e.rest.length) :: findallFrom r (some x) (xs.length - e.rest.length) xs
    | none => findallFrom r (some x) 0 xs

/-- The text from `prev` on with every match replaced; the next `skip` characters belong to one. -/
def subFrom (r : Re) (repl : Cursor → List Char) : Option Char → Nat → List Char → List Char
  | _, _, [] => []
  | _, skip + 1, x :: xs => subFrom r repl (some x) skip xs
  | prev, 0, x :: xs =>
    match (r.ends ⟨prev, x :: xs, []⟩).head? with
    | some e => repl e ++ subFrom r repl (some x) (xs.length - e.rest.length) xs
    | none => x :: subFrom r repl (some x) 0 xs

/-- `re.sub`, for a pattern that does not match the empty text. -/
def sub (r : Re) (repl : Cursor → List Char) (s : String) : String :=
  String.ofList (r.subFrom repl none 0 s.toList)

/-- What is left of a text is where no match begins. -/
theorem mem_subFrom {r : Re} {repl : Cursor → List Char} {prev : Option Char} {skip : Nat}
    {s : List Char} {c : Char} (h : c ∈ r.subFrom repl prev skip s) :
    (∃ e, c ∈ repl e) ∨ ∃ prev rest, r.ends ⟨prev, c :: rest, []⟩ = [] := by
  induction s generalizing prev skip with
  | nil => cases skip <;> cases h
  | cons x xs ih =>
    cases skip with
    | succ skip => exact ih h
    | zero =>
      rw [subFrom] at h
      split at h
      · rename_i e _
        rcases List.mem_append.mp h with hrepl | hrest
        · exact Or.inl ⟨e, hrepl⟩
        · exact ih hrest
      · rename_i hnone
        rcases List.mem_cons.mp h with rfl | hrest
        · exact Or.inr ⟨prev, xs, List.head?_eq_none_iff.mp hnone⟩
        · exact ih hrest

/-! ## Writing patterns -/

/-- A pattern followed by another, over a whole list. -/
def seqs : List Re → Re := List.foldr .seq .eps

/-- One of the characters of `s`. -/
def oneOf (s : String) : Re := .cls fun c => s.toList.contains c

/-- A literal text, its characters compared by `same`. -/
def lit (same : Char → Char → Bool) (s : String) : Re := seqs (s.toList.map fun x => .cls (same x))

/-- `a?` -/
def opt (a : Re) : Re := .alt a .eps

/-- `(?:a){0,n}` -/
def upTo (a : Re) : Nat → Re
  | 0 => .eps
  | n + 1 => .alt (.seq a (upTo a n)) .eps

/-- `(?:a){m,m+n}` -/
def between (a : Re) (n : Nat) : Nat → Re
  | 0 => upTo a n
  | m + 1 => .seq a (between a n m)

/-! ## The first match -/

/-- The first match from `prev` on. -/
def findFrom (r : Re) (prev : Option Char) : List Char → Option Cursor
  | [] => (r.ends ⟨prev, [], []⟩).head?
  | x :: xs =>
    match (r.ends ⟨prev, x :: xs, []⟩).head? with
    | some e => some e
    | none => findFrom r (some x) xs

/-- `re.search`, with its match. -/
def find (r : Re) (s : String) : Option Cursor := r.findFrom none s.toList

theorem findFrom_eq_some {r : Re} {prev : Option Char} {s : List Char} {e : Cursor}
    (h : r.findFrom prev s = some e) :
    ∃ before prev' rest, s = before ++ rest ∧ (r.ends ⟨prev', rest, []⟩).head? = some e := by
  induction s generalizing prev with
  | nil => exact ⟨[], prev, [], rfl, h⟩
  | cons x xs ih =>
    rw [findFrom] at h
    split at h
    · rename_i hhead
      obtain rfl := Option.some.inj h
      exact ⟨[], prev, x :: xs, rfl, hhead⟩
    · obtain ⟨before, prev', rest, rfl, hhead⟩ := ih h
      exact ⟨x :: before, prev', rest, rfl, hhead⟩

/-- The first success of a sequence goes on from some success of its first part. -/
theorem head?_flatMap {α β : Type} {f : α → List β} {xs : List α} {y : β}
    (h : (xs.flatMap f).head? = some y) : ∃ x ∈ xs, (f x).head? = some y := by
  induction xs with
  | nil => cases h
  | cons x xs ih =>
    rw [List.flatMap_cons] at h
    cases hx : f x with
    | nil =>
      rw [hx, List.nil_append] at h
      obtain ⟨x', hx', hy⟩ := ih h
      exact ⟨x', List.mem_cons_of_mem _ hx', hy⟩
    | cons y' ys =>
      rw [hx, List.cons_append, List.head?_cons] at h
      exact ⟨x, List.mem_cons_self, by rw [hx, List.head?_cons, h]⟩

theorem head?_ends_seq {a b : Re} {c e : Cursor} (h : ((Re.seq a b).ends c).head? = some e) :
    ∃ d ∈ a.ends c, (b.ends d).head? = some e := head?_flatMap h

/-! ## What a match reads -/

/-- `e` is the cursor after `l`, with no more groups. -/
structure Reads (c : Cursor) (l : List Char) (e : Cursor) : Prop where
  rest : c.rest = l ++ e.rest
  groups : e.groups = c.groups

theorem Reads.refl (c : Cursor) : Reads c [] c := ⟨rfl, rfl⟩

theorem Reads.trans {c d e : Cursor} {l l' : List Char} (h : Reads c l d) (h' : Reads d l' e) :
    Reads c (l ++ l') e := by
  refine ⟨?_, h'.groups.trans h.groups⟩
  rw [h.rest, h'.rest, List.append_assoc]

theorem rest_advance (c : Cursor) (n : Nat) : (c.advance n).rest = c.rest.drop n := by
  induction n generalizing c with
  | zero => rfl
  | succ n ih =>
    obtain ⟨prev, rest, groups⟩ := c
    cases rest with
    | nil => rfl
    | cons x xs => exact ih _

theorem groups_advance (c : Cursor) (n : Nat) : (c.advance n).groups = c.groups := by
  induction n generalizing c with
  | zero => rfl
  | succ n ih =>
    obtain ⟨prev, rest, groups⟩ := c
    cases rest with
    | nil => rfl
    | cons x xs => exact ih _

theorem advance_advance (c : Cursor) (m n : Nat) : (c.advance m).advance n = c.advance (m + n) := by
  induction m generalizing c with
  | zero => rw [Nat.zero_add]; rfl
  | succ m ih =>
    rw [Nat.succ_add]
    obtain ⟨prev, rest, groups⟩ := c
    cases rest with
    | nil => cases n <;> rfl
    | cons x xs => exact ih _

/-- The character before a cursor that was advanced is the last one read. -/
theorem prev_advance (c : Cursor) {n : Nat} (hn : n < c.rest.length) :
    (c.advance (n + 1)).prev = c.rest[n]? := by
  induction n generalizing c with
  | zero =>
    obtain ⟨prev, rest, groups⟩ := c
    cases rest with
    | nil => cases hn
    | cons x xs => rfl
  | succ n ih =>
    obtain ⟨prev, rest, groups⟩ := c
    cases rest with
    | nil => cases hn
    | cons x xs => exact ih ⟨some x, xs, groups⟩ (Nat.lt_of_succ_lt_succ hn)

theorem reads_advance (c : Cursor) (n : Nat) : Reads c (c.rest.take n) (c.advance n) := by
  refine ⟨?_, groups_advance c n⟩
  rw [rest_advance, List.take_append_drop]

/-- All that is read satisfies `P`. -/
def Within (P : Char → Prop) (r : Re) : Prop :=
  ∀ c, ∀ e ∈ r.ends c, ∃ l, Reads c l e ∧ ∀ x ∈ l, P x

/-- Something is read, and its first character satisfies `P`. -/
def Begins (P : Char → Prop) (r : Re) : Prop :=
  ∀ c, ∀ e ∈ r.ends c, ∃ x l, Reads c (x :: l) e ∧ P x

/-- Something is read, and its last character satisfies `P`. -/
def Ends (P : Char → Prop) (r : Re) : Prop :=
  ∀ c, ∀ e ∈ r.ends c, ∃ l x, Reads c (l ++ [x]) e ∧ P x

section Reading

variable {P Q : Char → Prop} {a b : Re}

theorem within_eps : Within P .eps := by
  intro c e he
  obtain rfl := List.mem_singleton.mp he
  exact ⟨[], .refl _, by simp⟩

theorem within_boundary (isWord : Char → Bool) : Within P (.boundary isWord) := by
  intro c e he
  unfold ends at he
  split at he
  · obtain rfl := List.mem_singleton.mp he
    exact ⟨[], .refl _, by simp⟩
  · cases he

theorem within_notBehind (p : Char → Bool) : Within P (.notBehind p) := by
  intro c e he
  unfold ends at he
  split at he
  · cases he
  · obtain rfl := List.mem_singleton.mp he
    exact ⟨[], .refl _, by simp⟩

theorem within_notAhead (p : Char → Bool) : Within P (.notAhead p) := by
  intro c e he
  unfold ends at he
  split at he
  · cases he
  · obtain rfl := List.mem_singleton.mp he
    exact ⟨[], .refl _, by simp⟩

theorem begins_cls {p : Char → Bool} (h : ∀ x, p x = true → P x) : Begins P (.cls p) := by
  intro c e he
  unfold ends at he
  obtain ⟨prev, rest, groups⟩ := c
  cases rest with
  | nil => cases he
  | cons x xs =>
    split at he
    · rename_i hx
      obtain rfl := List.mem_singleton.mp he
      exact ⟨x, [], ⟨rfl, rfl⟩, h x hx⟩
    · cases he

theorem take_of_le_runLength {p : Char → Bool} {hi : Option Nat} {s : List Char} {n : Nat}
    (hn : n ≤ runLength p hi s) : n ≤ s.length ∧ ∀ x ∈ s.take n, p x = true := by
  have hrun : n ≤ (s.takeWhile p).length := by
    unfold runLength at hn
    cases hi with
    | none => exact hn
    | some m => exact Nat.le_trans hn (Nat.min_le_right _ _)
  refine ⟨Nat.le_trans hrun (List.takeWhile_prefix p).length_le, ?_⟩
  intro x hx
  rw [← List.takeWhile_append_dropWhile (p := p) (l := s), List.take_append_of_le_length hrun] at hx
  exact List.mem_takeWhile_imp (List.mem_of_mem_take hx)

/-- A repetition reads `n` characters of its class. -/
theorem mem_ends_rep {p : Char → Bool} {lo : Nat} {hi : Option Nat} {greedy : Bool} {c e : Cursor}
    (he : e ∈ (Re.rep p lo hi greedy).ends c) :
    ∃ l, Reads c l e ∧ lo ≤ l.length ∧ ∀ x ∈ l, p x = true := by
  unfold ends at he
  obtain ⟨n, hn, rfl⟩ := List.mem_map.mp he
  have hmem : n ∈ (List.range (runLength p hi c.rest + 1)).filter fun n => decide (lo ≤ n) := by
    cases greedy with
    | true => exact List.mem_reverse.mp hn
    | false => exact hn
  obtain ⟨hrange, hlo⟩ := List.mem_filter.mp hmem
  obtain ⟨hlength, hclass⟩ := take_of_le_runLength (Nat.lt_succ_iff.mp (List.mem_range.mp hrange))
  refine ⟨c.rest.take n, reads_advance c n, ?_, hclass⟩
  rw [List.length_take, Nat.min_eq_left hlength]
  exact of_decide_eq_true hlo

theorem within_rep {p : Char → Bool} {lo : Nat} {hi : Option Nat} {greedy : Bool}
    (h : ∀ x, p x = true → P x) : Within P (.rep p lo hi greedy) := by
  intro c e he
  obtain ⟨l, hl, -, hclass⟩ := mem_ends_rep he
  exact ⟨l, hl, fun x hx => h x (hclass x hx)⟩

theorem begins_rep {p : Char → Bool} {lo : Nat} {hi : Option Nat} {greedy : Bool} (hlo : 0 < lo)
    (h : ∀ x, p x = true → P x) : Begins P (.rep p lo hi greedy) := by
  intro c e he
  obtain ⟨l, hl, hlength, hclass⟩ := mem_ends_rep he
  cases l with
  | nil =>
    rw [List.length_nil] at hlength
    omega
  | cons x l => exact ⟨x, l, hl, h x (hclass x List.mem_cons_self)⟩

theorem within_cls {p : Char → Bool} (h : ∀ x, p x = true → P x) : Within P (.cls p) := by
  intro c e he
  unfold ends at he
  obtain ⟨prev, rest, groups⟩ := c
  cases rest with
  | nil => cases he
  | cons x xs =>
    split at he
    · rename_i hx
      obtain rfl := List.mem_singleton.mp he
      exact ⟨[x], ⟨rfl, rfl⟩, fun y hy => List.mem_singleton.mp hy ▸ h x hx⟩
    · cases he

theorem Begins.mono (h : Begins P a) (hPQ : ∀ x, P x → Q x) : Begins Q a := by
  intro c e he
  obtain ⟨x, l, hl, hx⟩ := h c e he
  exact ⟨x, l, hl, hPQ x hx⟩

theorem Ends.mono (h : Ends P a) (hPQ : ∀ x, P x → Q x) : Ends Q a := by
  intro c e he
  obtain ⟨l, x, hl, hx⟩ := h c e he
  exact ⟨l, x, hl, hPQ x hx⟩

theorem Within.seq (ha : Within P a) (hb : Within P b) : Within P (.seq a b) := by
  intro c e he
  obtain ⟨d, hd, he⟩ := List.mem_flatMap.mp he
  obtain ⟨l, hl, hclass⟩ := ha c d hd
  obtain ⟨l', hl', hclass'⟩ := hb d e he
  exact ⟨l ++ l', hl.trans hl', fun x hx => (List.mem_append.mp hx).elim (hclass x) (hclass' x)⟩

theorem Within.alt (ha : Within P a) (hb : Within P b) : Within P (.alt a b) := by
  intro c e he
  rcases List.mem_append.mp he with he | he
  · exact ha c e he
  · exact hb c e he

theorem Within.opt (ha : Within P a) : Within P (.opt a) := ha.alt within_eps

theorem Within.upTo (ha : Within P a) (n : Nat) : Within P (a.upTo n) := by
  induction n with
  | zero => exact within_eps
  | succ n ih => exact (ha.seq ih).alt within_eps

theorem Within.seqs {rs : List Re} (h : ∀ r ∈ rs, Within P r) : Within P (seqs rs) := by
  induction rs with
  | nil => exact within_eps
  | cons r rs ih =>
    exact (h r List.mem_cons_self).seq (ih fun r hr => h r (List.mem_cons_of_mem _ hr))

theorem within_lit {same : Char → Char → Bool} {s : String}
    (h : ∀ x ∈ s.toList, ∀ y, same x y = true → P y) : Within P (lit same s) := by
  refine Within.seqs fun r hr => ?_
  obtain ⟨x, hx, rfl⟩ := List.mem_map.mp hr
  exact within_cls (h x hx)

theorem Within.seq_begins (ha : Within P a) (hb : Begins P b) : Begins P (.seq a b) := by
  intro c e he
  obtain ⟨d, hd, he⟩ := List.mem_flatMap.mp he
  obtain ⟨l, hl, hclass⟩ := ha c d hd
  obtain ⟨y, l', hl', hy⟩ := hb d e he
  cases l with
  | nil => exact ⟨y, l', hl.trans hl', hy⟩
  | cons x l => exact ⟨x, l ++ y :: l', hl.trans hl', hclass x List.mem_cons_self⟩

theorem Begins.seq (ha : Begins P a) (hb : Within Q b) : Begins P (.seq a b) := by
  intro c e he
  obtain ⟨d, hd, he⟩ := List.mem_flatMap.mp he
  obtain ⟨x, l, hl, hx⟩ := ha c d hd
  obtain ⟨l', hl', -⟩ := hb d e he
  exact ⟨x, l ++ l', hl.trans hl', hx⟩

theorem Within.seq_ends (ha : Within Q a) (hb : Ends P b) : Ends P (.seq a b) := by
  intro c e he
  obtain ⟨d, hd, he⟩ := List.mem_flatMap.mp he
  obtain ⟨l, hl, -⟩ := ha c d hd
  obtain ⟨l', x, hl', hx⟩ := hb d e he
  refine ⟨l ++ l', x, ?_, hx⟩
  rw [List.append_assoc]
  exact hl.trans hl'

/-- What reads something, and nothing but `P`, ends in `P`. -/
theorem Begins.ends (ha : Begins Q a) (hall : Within P a) : Ends P a := by
  intro c e he
  obtain ⟨x, l, hl, -⟩ := ha c e he
  obtain ⟨m, hm, hclass⟩ := hall c e he
  have hsame : m = x :: l := List.append_cancel_right (hm.rest.symm.trans hl.rest)
  have hne : m ≠ [] := by
    rw [hsame]
    exact List.cons_ne_nil _ _
  refine ⟨m.dropLast, m.getLast hne, ?_, hclass _ (List.getLast_mem hne)⟩
  rw [List.dropLast_concat_getLast]
  exact hm

/-- No groups. -/
def Silent : Re → Prop
  | .eps | .cls _ | .rep _ _ _ _ | .boundary _ | .notBehind _ | .notAhead _ => True
  | .seq a b | .alt a b => a.Silent ∧ b.Silent
  | .group _ _ => False

/-- What a pattern without groups reads. -/
theorem Silent.within {r : Re} (h : r.Silent) : Within (fun _ => True) r := by
  induction r with
  | eps => exact within_eps
  | cls p => exact within_cls fun _ _ => trivial
  | seq a b iha ihb => exact (iha h.1).seq (ihb h.2)
  | alt a b iha ihb => exact (iha h.1).alt (ihb h.2)
  | rep p lo hi greedy => exact within_rep fun _ _ => trivial
  | boundary isWord => exact within_boundary isWord
  | notBehind p => exact within_notBehind p
  | notAhead p => exact within_notAhead p
  | group name a => cases h

theorem silent_seqs {rs : List Re} (h : ∀ r ∈ rs, r.Silent) : (Re.seqs rs).Silent := by
  induction rs with
  | nil => trivial
  | cons r rs ih => exact ⟨h r List.mem_cons_self, ih fun r hr => h r (List.mem_cons_of_mem _ hr)⟩

@[simp] theorem silent_lit (same : Char → Char → Bool) (s : String) : (lit same s).Silent := by
  refine silent_seqs fun r hr => ?_
  obtain ⟨x, -, rfl⟩ := List.mem_map.mp hr
  trivial

/-- A sequence begins as its first part does. -/
theorem Begins.seqs_cons {rs : List Re} (ha : Begins P a) (hrs : ∀ r ∈ rs, r.Silent) :
    Begins P (Re.seqs (a :: rs)) := ha.seq (silent_seqs hrs).within

/-- A sequence ends as its last part does. -/
theorem Ends.seqs_concat {rs : List Re} (hrs : ∀ r ∈ rs, r.Silent) (ha : Ends P a) :
    Ends P (Re.seqs (rs ++ [a])) := by
  induction rs with
  | nil =>
    intro c e he
    obtain ⟨d, hd, he⟩ := List.mem_flatMap.mp he
    obtain rfl := List.mem_singleton.mp he
    exact ha c _ hd
  | cons r rs ih =>
    exact (hrs r List.mem_cons_self).within.seq_ends (ih fun r hr => hrs r (List.mem_cons_of_mem _ hr))

end Reading

/-! ## Patterns that look at nothing but the text ahead -/

/-- Neither groups nor boundaries. -/
def Plain : Re → Prop
  | .eps | .cls _ | .rep _ _ _ _ => True
  | .seq a b | .alt a b => a.Plain ∧ b.Plain
  | .boundary _ | .notBehind _ | .notAhead _ | .group _ _ => False

/-- `[n, …, 1]` -/
def countdown : Nat → List Nat
  | 0 => []
  | n + 1 => (n + 1) :: countdown n

/-- The lengths of the successes of a plain pattern, first choice first. -/
def lengths : Re → List Char → List Nat
  | .eps, _ => [0]
  | .cls p, s => if s.head?.any p then [1] else []
  | .seq a b, s => (a.lengths s).flatMap fun n => (b.lengths (s.drop n)).map (n + ·)
  | .alt a b, s => a.lengths s ++ b.lengths s
  | .rep p lo hi greedy, s =>
    let lengths := (List.range (runLength p hi s + 1)).filter fun n => decide (lo ≤ n)
    if greedy then lengths.reverse else lengths
  | .boundary _, _ => []
  | .notBehind _, _ => []
  | .notAhead _, _ => []
  | .group _ _, _ => []

theorem lengths_seq (a b : Re) (s : List Char) :
    (Re.seq a b).lengths s = (a.lengths s).flatMap fun n => (b.lengths (s.drop n)).map (n + ·) := rfl

theorem lengths_alt (a b : Re) (s : List Char) : (Re.alt a b).lengths s = a.lengths s ++ b.lengths s := rfl

theorem lengths_opt (a : Re) (s : List Char) : (Re.opt a).lengths s = a.lengths s ++ [0] := rfl

/-- **The successes of a plain pattern are lengths.** -/
theorem ends_eq_map_lengths {r : Re} (h : r.Plain) (c : Cursor) :
    r.ends c = (r.lengths c.rest).map c.advance := by
  induction r generalizing c with
  | eps => rfl
  | cls p =>
    unfold ends lengths
    split <;> rfl
  | seq a b iha ihb =>
    unfold ends lengths
    rw [iha h.1, List.flatMap_map, List.map_flatMap]
    congr 1
    funext n
    rw [ihb h.2, rest_advance, List.map_map]
    exact List.map_congr_left fun m _ => advance_advance c n m
  | alt a b iha ihb =>
    unfold ends lengths
    rw [iha h.1, ihb h.2, List.map_append]
  | rep p lo hi greedy => rfl
  | boundary isWord => cases h
  | notBehind p => cases h
  | notAhead p => cases h
  | group name a => cases h

/-- What a plain pattern reads at the head of a text. -/
theorem forall_take_of_within {r : Re} {P : Char → Prop} (hplain : r.Plain) (h : Within P r) {s : List Char}
    {k : Nat} (hk : k ∈ r.lengths s) : ∀ x ∈ s.take k, P x := by
  have hmem : (⟨none, s, []⟩ : Cursor).advance k ∈ r.ends ⟨none, s, []⟩ := by
    rw [ends_eq_map_lengths hplain]
    exact List.mem_map_of_mem hk
  obtain ⟨l, hl, hclass⟩ := h _ _ hmem
  have hrest : s = l ++ s.drop k := by
    rw [← rest_advance ⟨none, s, []⟩ k]
    exact hl.rest
  have hl' : s.take k = l := by
    rw [← List.append_left_inj (s.drop k), List.take_append_drop]
    exact hrest
  rw [hl']
  exact hclass

theorem Plain.upTo {a : Re} (h : a.Plain) (n : Nat) : (a.upTo n).Plain := by
  induction n with
  | zero => trivial
  | succ n ih => exact ⟨⟨h, ih⟩, trivial⟩

theorem mem_countdown {n k : Nat} : k ∈ countdown n ↔ 0 < k ∧ k ≤ n := by
  induction n with
  | zero =>
    rw [countdown]
    simp
    omega
  | succ n ih =>
    rw [countdown, List.mem_cons, ih]
    omega

theorem countdown_eq_reverse (n : Nat) :
    ((List.range (n + 1)).filter fun k => decide (1 ≤ k)).reverse = countdown n := by
  induction n with
  | zero => rfl
  | succ n ih =>
    rw [List.range_succ, List.filter_append, List.reverse_append, ih]
    rfl

/-- One more round than `n`: the lengths of the rounds after the first, and the first. -/
theorem countdown_succ (n : Nat) : (countdown n).map (· + 1) ++ [1] = countdown (n + 1) := by
  induction n with
  | zero => rfl
  | succ n ih =>
    rw [countdown, List.map_cons, List.cons_append, ih]
    rfl

/-- A greedy repetition reads its run, then one less, down to one. -/
theorem lengths_rep_one (p : Char → Bool) (hi : Option Nat) (s : List Char) :
    (Re.rep p 1 hi true).lengths s = countdown (runLength p hi s) := countdown_eq_reverse _

/-! ## The matches of a text, one after the other -/

/-- Behind a match the search goes on where it ends. -/
theorem findallFrom_skip (r : Re) (prev : Option Char) (l rest : List Char) :
    r.findallFrom prev l.length (l ++ rest) = r.findallFrom (l.getLast?.or prev) 0 rest := by
  induction l generalizing prev with
  | nil => rfl
  | cons x l ih =>
    rw [List.length_cons, List.cons_append, findallFrom, ih]
    congr 1
    cases l with
    | nil => rfl
    | cons y l =>
      rw [List.getLast?_cons_cons, List.getLast?_eq_some_getLast (List.cons_ne_nil y l)]
      rfl

/-- Where a pattern matches, its match is found and the search goes on behind it. -/
theorem findallFrom_match {r : Re} {prev : Option Char} {l rest : List Char} (hne : l ≠ [])
    (h : (r.ends ⟨prev, l ++ rest, []⟩).head? = some (Cursor.advance ⟨prev, l ++ rest, []⟩ l.length)) :
    r.findallFrom prev 0 (l ++ rest) = l :: r.findallFrom l.getLast? 0 rest := by
  cases l with
  | nil => exact absurd rfl hne
  | cons x l =>
    have hrest : (Cursor.advance ⟨prev, x :: l ++ rest, []⟩ (x :: l).length).rest = rest := by
      rw [rest_advance, List.drop_left]
    rw [List.cons_append] at h hrest ⊢
    rw [findallFrom, h]
    simp only [hrest]
    have hskip : (l ++ rest).length - rest.length = l.length := by
      rw [List.length_append, Nat.add_sub_cancel]
    have htake : (x :: (l ++ rest)).length - rest.length = (x :: l).length := by
      rw [← List.cons_append, List.length_append, Nat.add_sub_cancel]
    rw [hskip, htake, ← List.cons_append, List.take_left, findallFrom_skip]
    congr 2
    cases l with
    | nil => rfl
    | cons y l =>
      rw [List.getLast?_cons_cons, List.getLast?_eq_some_getLast (List.cons_ne_nil y l)]
      rfl

/-- Where it does not match, the search goes on at the next character. -/
theorem findallFrom_none {r : Re} {prev : Option Char} {x : Char} {xs : List Char}
    (h : (r.ends ⟨prev, x :: xs, []⟩).head? = none) :
    r.findallFrom prev 0 (x :: xs) = r.findallFrom (some x) 0 xs := by
  rw [findallFrom, h]

/-- The tokens of a text are those found before a character that no token has, and those after it. -/
theorem finditerFrom_append {r : Re} {K : Char → Prop}
    (hr : ∀ c, ∀ e ∈ r.ends c, ∃ l, c.rest = l ++ e.rest ∧ ∀ x ∈ l, K x) (prev : Option Char) {skip : Nat}
    {before : List Char} (hlast : ∀ x ∈ before.getLast?, ¬ K x) (hskip : skip ≤ before.length)
    (rest : List Char) :
    ∃ found prev', r.finditerFrom prev skip (before ++ rest) = found ++ r.finditerFrom prev' 0 rest := by
  induction before generalizing prev skip with
  | nil =>
    obtain rfl := Nat.le_zero.mp hskip
    exact ⟨[], prev, rfl⟩
  | cons x xs ih =>
    have hlast' : ∀ y ∈ xs.getLast?, ¬ K y := by
      intro y hy
      refine hlast y ?_
      cases xs with
      | nil => cases hy
      | cons x' xs => rwa [List.getLast?_cons_cons]
    rw [List.cons_append]
    cases skip with
    | succ skip => exact ih (some x) hlast' (Nat.le_of_succ_le_succ hskip)
    | zero =>
      rw [finditerFrom]
      split
      · rename_i e hhead
        -- the match ends before the character that it cannot read
        obtain ⟨l, hrest, hclass⟩ := hr _ e (List.mem_of_mem_head? hhead)
        have hrest : x :: (xs ++ rest) = l ++ e.rest := hrest
        have hshort : l.length ≤ (x :: xs).length := by
          by_contra hlong
          have hprefix : x :: xs <+: l := List.prefix_of_prefix_length_le
            (⟨rest, rfl⟩ : x :: xs <+: x :: (xs ++ rest)) ⟨e.rest, hrest.symm⟩ (by omega)
          have hmem : (x :: xs).getLast (List.cons_ne_nil x xs) ∈ l :=
            hprefix.subset (List.getLast_mem _)
          exact hlast _ (List.getLast?_eq_some_getLast (List.cons_ne_nil x xs)) (hclass _ hmem)
        have hlength := congrArg List.length hrest
        rw [List.length_cons, List.length_append, List.length_append] at hlength
        rw [List.length_cons] at hshort
        have hskip' : (xs ++ rest).length - e.rest.length ≤ xs.length := by
          rw [List.length_append]
          omega
        obtain ⟨found, prev', hfound⟩ := ih (some x) hlast' hskip'
        exact ⟨e :: found, prev', by rw [hfound]; rfl⟩
      · exact ih (some x) hlast' (Nat.zero_le _)

end Re
