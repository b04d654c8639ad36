/-
  **Lists as Python code uses them** — a small library of its own, over arbitrary elements and keys.

  `sorted` is the built-in stable sort under a strict comparison of keys, `tupleLt` the comparison of
  two tuples, `slice` is `xs[:n]`, and `keepFirst` the loop that keeps the first element of each key.
  A loop whose body may raise is a `mapM` into `Except`; what its success says is at the end.
-/
import Mathlib.Data.List.Sort
import Mathlib.Data.List.Nodup
import Mathlib.Data.List.Perm.Basic

set_option linter.unusedVariables false

namespace PyList

variable {α K : Type}

/-- `<` of two tuples, each component given as `(a == b, a < b)`: the first component in which they
    differ decides. -/
def tupleLt : List (Bool × Bool) → Bool
  | [] => false
  | (same, less) :: rest => if same then tupleLt rest else less

/-- The comparison of two tuples is the lexicographic one. -/
theorem tupleLt_cons_iff {less : Prop} {rest : List (Bool × Bool)} {β : Type} [Preorder β] [DecidableEq β]
    [DecidableLT β] {a b : β} (hrest : tupleLt rest = true ↔ less) :
    tupleLt ((decide (a = b), decide (a < b)) :: rest) = true ↔ a < b ∨ a = b ∧ less := by
  rw [tupleLt]
  by_cases heq : a = b
  · subst heq
    simp [hrest]
  · simp [heq]

/-- `sorted(xs, key=…)`, with `lt` the comparison of the keys: stable. -/
def sorted (lt : α → α → Bool) (xs : List α) : List α := xs.insertionSort fun a b => !lt b a

theorem sorted_perm (lt : α → α → Bool) (xs : List α) : (sorted lt xs).Perm xs :=
  List.perm_insertionSort _ xs

@[simp] theorem mem_sorted {lt : α → α → Bool} {xs : List α} {x : α} : x ∈ sorted lt xs ↔ x ∈ xs :=
  (sorted_perm lt xs).mem_iff

/-- A sort under a total preorder puts a list in order. -/
theorem pairwise_sorted {lt : α → α → Bool} (htotal : ∀ a b, lt a b = false ∨ lt b a = false)
    (htrans : ∀ a b c, lt b a = false → lt c b = false → lt c a = false) (xs : List α) :
    (sorted lt xs).Pairwise fun a b => (!lt b a) = true := by
  have : Std.Total fun a b : α => (!lt b a) = true :=
    ⟨fun a b => (htotal b a).imp (by simp) (by simp)⟩
  have : IsTrans α fun a b => (!lt b a) = true := by
    refine ⟨?_⟩
    intro a b c hab hbc
    rw [Bool.not_eq_true'] at hab hbc ⊢
    exact htrans a b c hab hbc
  exact List.pairwise_insertionSort _ xs

/-- **A sort whose comparison is that of places** in a linear order puts a list in their order. -/
theorem pairwise_sorted_of_place {O : Type} [LinearOrder O] {lt : α → α → Bool} {place : α → O}
    (h : ∀ a b, lt a b = true ↔ place a < place b) (xs : List α) :
    (sorted lt xs).Pairwise fun a b => place a ≤ place b := by
  have hfalse : ∀ a b, lt a b = false ↔ place b ≤ place a := by
    intro a b
    rw [Bool.eq_false_iff, ne_eq, h, not_lt]
  have hsorted : (sorted lt xs).Pairwise fun a b => (!lt b a) = true := by
    refine pairwise_sorted ?_ ?_ xs
    · intro a b
      rw [hfalse, hfalse]
      exact le_total _ _
    · intro a b c hab hbc
      rw [hfalse] at hab hbc ⊢
      exact hab.trans hbc
  refine hsorted.imp ?_
  intro a b hle
  rwa [Bool.not_eq_true', hfalse] at hle

/-- **Sorting the other way round turns the list round**, where no two elements tie. -/
theorem sorted_swap_of_place {O : Type} [LinearOrder O] {lt : α → α → Bool} {place : α → O}
    (h : ∀ a b, lt a b = true ↔ place a < place b) {xs : List α}
    (hinj : ∀ a ∈ xs, ∀ b ∈ xs, place a = place b → a = b) :
    sorted (fun a b => lt b a) xs = (sorted lt xs).reverse := by
  have hperm : (sorted (fun a b => lt b a) xs).Perm (sorted lt xs).reverse :=
    (sorted_perm _ xs).trans ((sorted_perm lt xs).symm.trans (List.reverse_perm _).symm)
  have hdown : (sorted (fun a b => lt b a) xs).Pairwise fun a b => place b ≤ place a :=
    pairwise_sorted_of_place (O := Oᵒᵈ) (fun a b => h b a) xs
  have hrev : (sorted lt xs).reverse.Pairwise fun a b => place b ≤ place a :=
    List.pairwise_reverse.mpr (pairwise_sorted_of_place h xs)
  refine hperm.eq_of_pairwise ?_ hdown hrev
  intro a b ha hb hab hba
  have hmemb : b ∈ xs := mem_sorted.mp (List.mem_reverse.mp hb)
  exact hinj a (mem_sorted.mp ha) b hmemb (le_antisymm hba hab)
/-- Elements that compare alike are sorted alike. -/
theorem map_sorted {β : Type} {lt : α → α → Bool} {lt' : β → β → Bool} (f : α → β)
    (h : ∀ a b, lt' (f a) (f b) = lt a b) (xs : List α) :
    (sorted lt xs).map f = sorted lt' (xs.map f) := by
  refine List.map_insertionSort _ _ f xs ?_
  intro a _ b _
  rw [h]

/-- **Two arrangements of the same elements are sorted alike**, where no two elements tie. -/
theorem sorted_eq_of_perm {lt : α → α → Bool} (htotal : ∀ a b, lt a b = false ∨ lt b a = false)
    (htrans : ∀ a b c, lt b a = false → lt c b = false → lt c a = false) {xs ys : List α}
    (hperm : xs.Perm ys)
    (hanti : ∀ a ∈ xs, ∀ b ∈ xs, lt a b = false → lt b a = false → a = b) :
    sorted lt xs = sorted lt ys := by
  have hsorted : (sorted lt xs).Perm (sorted lt ys) :=
    (sorted_perm lt xs).trans (hperm.trans (sorted_perm lt ys).symm)
  refine hsorted.eq_of_pairwise ?_ (pairwise_sorted htotal htrans xs) (pairwise_sorted htotal htrans ys)
  intro a b ha hb hab hba
  rw [Bool.not_eq_true'] at hab hba
  exact hanti a (mem_sorted.mp ha) b (hperm.mem_iff.mpr (mem_sorted.mp hb)) hba hab

/-- Lists with the same image under `f` have the same image under whatever `f` determines. -/
theorem map_eq_of_map_eq {β γ : Type} {f : α → β} {g : α → γ} {xs ys : List α} (h : xs.map f = ys.map f)
    (hdet : ∀ x ∈ xs, ∀ y ∈ ys, f x = f y → g x = g y) : xs.map g = ys.map g := by
  induction xs generalizing ys with
  | nil =>
    rw [List.map_nil, eq_comm, List.map_eq_nil_iff] at h
    rw [h]
  | cons x xs ih =>
    cases ys with
    | nil => cases h
    | cons y ys =>
      obtain ⟨hhead, htail⟩ := List.cons.inj h
      have hrest := ih htail fun x hx y hy => hdet x (List.mem_cons_of_mem _ hx) y (List.mem_cons_of_mem _ hy)
      rw [List.map_cons, List.map_cons, hrest, hdet x List.mem_cons_self y List.mem_cons_self hhead]

/-- A list can be rearranged along any arrangement of its image. -/
theorem exists_perm_map_eq {β : Type} (f : α → β) {xs : List α} {ys : List β}
    (hperm : (xs.map f).Perm ys) : ∃ xs' : List α, xs'.Perm xs ∧ xs'.map f = ys := by
  have hpair : List.Forall₂ (fun y x => f x = y) (xs.map f) xs := by
    rw [List.forall₂_map_left_iff]
    exact List.forall₂_same.mpr fun _ _ => rfl
  obtain ⟨xs', hpair', hperm'⟩ := List.perm_comp_forall₂ hperm.symm hpair
  refine ⟨xs', hperm', ?_⟩
  clear hperm' hpair hperm
  induction hpair' with
  | nil => rfl
  | cons hhead _ ih => rw [List.map_cons, hhead, ih]

/-- Two lists whose images are arrangements of each other are themselves, where an element of one and
    an element of the other with the same image are the same. -/
theorem perm_of_map_perm {β : Type} {f : α → β} {xs ys : List α}
    (hsame : ∀ x ∈ xs, ∀ y ∈ ys, f x = f y → x = y) (hperm : (xs.map f).Perm (ys.map f)) :
    xs.Perm ys := by
  obtain ⟨xs', hxs, hmap⟩ := exists_perm_map_eq f hperm
  have hsame' : ∀ x ∈ xs', ∀ y ∈ ys, f x = f y → x = y :=
    fun x hx => hsame x (hxs.mem_iff.mp hx)
  have heq : xs' = ys := by
    clear hxs hperm hsame
    induction xs' generalizing ys with
    | nil => exact (List.map_eq_nil_iff.mp hmap.symm).symm
    | cons x xs' ih =>
      cases ys with
      | nil => cases hmap
      | cons y ys =>
        obtain ⟨hhead, htail⟩ := List.cons.inj hmap
        rw [hsame' x List.mem_cons_self y List.mem_cons_self hhead,
          ih htail fun a ha b hb => hsame' a (List.mem_cons_of_mem _ ha) b (List.mem_cons_of_mem _ hb)]
  exact heq ▸ hxs.symm

/-- The slice `xs[:n]`: a negative `n` drops from the end. -/
def slice (xs : List α) (n : Int) : List α :=
  if 0 ≤ n then xs.take n.toNat else xs.take (xs.length - (-n).toNat)

theorem slice_sublist (xs : List α) (n : Int) : (slice xs n).Sublist xs := by
  unfold slice
  split
  · exact List.take_sublist _ _
  · exact List.take_sublist _ _

/-- Where a slice of a list of length `length` is cut. -/
def sliceLength (length : Nat) (n : Int) : Nat := if 0 ≤ n then n.toNat else length - (-n).toNat

theorem slice_eq_take (xs : List α) (n : Int) : slice xs n = xs.take (sliceLength xs.length n) := by
  unfold slice sliceLength
  split <;> rfl

theorem getElem?_slice {xs : List α} {n : Int} {p : Nat} {x : α} :
    (slice xs n)[p]? = some x ↔ p < sliceLength xs.length n ∧ xs[p]? = some x := by
  rw [slice_eq_take, List.getElem?_take]
  split
  · rename_i hlt
    exact (and_iff_right hlt).symm
  · rename_i hle
    exact iff_of_false (by simp) fun h => hle h.1

/-- A slice is the front of the list. -/
theorem slice_prefix (xs : List α) (n : Int) : slice xs n <+: xs := by
  unfold slice
  split
  · exact List.take_prefix _ _
  · exact List.take_prefix _ _

theorem slice_eq_self {xs : List α} {n : Int} (h : (xs.length : Int) ≤ n) : slice xs n = xs := by
  rw [slice, if_pos (by omega)]
  exact List.take_of_length_le (by omega)

/-- Of two cuts the nearer one counts. -/
theorem slice_slice {xs : List α} {m n : Int} (hn : 0 ≤ n) (hle : n ≤ m) :
    slice (slice xs m) n = slice xs n := by
  rw [slice, if_pos hn, slice, if_pos (hn.trans hle), slice, if_pos hn, List.take_take]
  congr 1
  omega

theorem map_slice {β : Type} (f : α → β) (xs : List α) (n : Int) :
    (slice xs n).map f = slice (xs.map f) n := by
  unfold slice
  rw [List.length_map]
  split
  · exact List.map_take
  · exact List.map_take

theorem length_slice_le {n : Int} (hn : 0 ≤ n) (xs : List α) : (slice xs n).length ≤ n.toNat := by
  rw [slice, if_pos hn]
  exact List.length_take_le _ _

/-- What follows is not needed exactly where the front is long enough, or all there is. -/
theorem take_eq_take_append_iff {xs ys : List α} {n : Nat} :
    xs.take n = (xs ++ ys).take n ↔ min n (xs ++ ys).length ≤ xs.length := by
  constructor
  · intro h
    have hlength := congrArg List.length h
    rw [List.length_take, List.length_take] at hlength
    omega
  · intro h
    rcases Nat.le_total n xs.length with hle | hge
    · exact (List.take_append_of_le_length hle).symm
    · rcases Nat.eq_or_lt_of_le hge with heq | hlt
      · exact (List.take_append_of_le_length heq.ge).symm
      · have hys : ys = [] := by
          rw [List.length_append] at h
          exact List.eq_nil_of_length_eq_zero (by omega)
        rw [hys, List.append_nil]

/-! ## Order within a list -/

/-- What holds of every position holds wherever the list is cut. -/
theorem of_forall_get {xs : List α} {P : List α → α → Prop}
    (h : ∀ i : Fin xs.length, P (xs.take i) (xs.get i)) {pre suf : List α} {x : α}
    (hxs : xs = pre ++ x :: suf) : P pre x := by
  have hlt : pre.length < xs.length := by
    rw [hxs, List.length_append, List.length_cons]
    omega
  have hget : xs.get ⟨pre.length, hlt⟩ = x := by simp [hxs]
  have htake : xs.take pre.length = pre := by simp [hxs]
  have hcut := h ⟨pre.length, hlt⟩
  rwa [hget, htake] at hcut

/-- A list in which no element that passes the test follows one that does not is its two filters. -/
theorem filter_append_filter_not {p : α → Bool} {xs : List α}
    (h : xs.Pairwise fun a b => p b = true → p a = true) :
    xs.filter p ++ xs.filter (fun x => !p x) = xs := by
  induction xs with
  | nil => rfl
  | cons x xs ih =>
    obtain ⟨hhead, htail⟩ := List.pairwise_cons.mp h
    cases hx : p x with
    | true => simp [hx, ih htail]
    | false =>
      have hnone : ∀ y ∈ xs, p y = false := by
        intro y hy
        cases hy' : p y with
        | false => rfl
        | true => rw [hhead y hy hy'] at hx; cases hx
      have hleft : xs.filter p = [] := List.filter_eq_nil_iff.mpr fun y hy => by simp [hnone y hy]
      have hright : xs.filter (fun x => !p x) = xs :=
        List.filter_eq_self.mpr fun y hy => by simp [hnone y hy]
      simp [hx, hleft, hright]

/-- What is concatenated along a list is concatenated along the elements that contribute. -/
theorem flatMap_eq_of_sublist {β : Type} {f : α → List β} {xs ys : List α} (hsub : ys.Sublist xs)
    (hnodup : xs.Nodup) (hnil : ∀ x ∈ xs, x ∉ ys → f x = []) : ys.flatMap f = xs.flatMap f := by
  induction hsub with
  | slnil => rfl
  | @cons ys xs x hsub ih =>
    rw [List.nodup_cons] at hnodup
    have hx : f x = [] := hnil x List.mem_cons_self fun hmem => hnodup.1 (hsub.subset hmem)
    rw [List.flatMap_cons, hx, List.nil_append]
    exact ih hnodup.2 fun y hy => hnil y (List.mem_cons_of_mem _ hy)
  | @cons_cons ys xs x hsub ih =>
    rw [List.nodup_cons] at hnodup
    rw [List.flatMap_cons, List.flatMap_cons, ih hnodup.2]
    intro y hy hmem
    refine hnil y (List.mem_cons_of_mem _ hy) fun hcons => ?_
    rcases List.mem_cons.mp hcons with rfl | hmem'
    · exact hnodup.1 hy
    · exact hmem hmem'

/-- Each element of one list has its partner in the other. -/
theorem exists_of_forall₂ {β : Type} {R : α → β → Prop} {xs : List α} {ys : List β}
    (h : List.Forall₂ R xs ys) {x : α} (hx : x ∈ xs) : ∃ y ∈ ys, R x y := by
  induction h with
  | nil => cases hx
  | cons hhead _ ih =>
    rcases List.mem_cons.mp hx with rfl | hx
    · exact ⟨_, List.mem_cons_self, hhead⟩
    · obtain ⟨y, hy, hxy⟩ := ih hx
      exact ⟨y, List.mem_cons_of_mem _ hy, hxy⟩

/-- Two lists whose elements go with those of a third. -/
theorem forall₂_of_forall₂ {β γ : Type} {R : α → β → Prop} {S : α → γ → Prop} {T : β → γ → Prop} {xs : List α}
    {ys : List β} {zs : List γ} (hR : List.Forall₂ R xs ys) (hS : List.Forall₂ S xs zs)
    (h : ∀ x ∈ xs, ∀ y z, R x y → S x z → T y z) : List.Forall₂ T ys zs := by
  induction hR generalizing zs with
  | nil =>
    rw [List.forall₂_nil_left_iff.mp hS]
    exact .nil
  | cons hxy _ ih =>
    obtain ⟨z, zs, hxz, hrest, rfl⟩ := List.forall₂_cons_left_iff.mp hS
    exact .cons (h _ List.mem_cons_self _ _ hxy hxz) (ih hrest fun x hx => h x (List.mem_cons_of_mem _ hx))

/-- What is picked from a concatenation is picked part by part. -/
theorem sublist_flatMap {β : Type} {f : α → List β} {xs : List α} {ys : List β}
    (h : ys.Sublist (xs.flatMap f)) :
    ∃ parts : List (List β), parts.flatten = ys ∧
      List.Forall₂ (fun part x => part.Sublist (f x)) parts xs := by
  induction xs generalizing ys with
  | nil => exact ⟨[], (List.sublist_nil.mp h).symm, .nil⟩
  | cons x xs ih =>
    rw [List.flatMap_cons] at h
    obtain ⟨part, rest, rfl, hpart, hrest⟩ := List.sublist_append_iff.mp h
    obtain ⟨parts, rfl, hparts⟩ := ih hrest
    exact ⟨part :: parts, rfl, .cons hpart hparts⟩

/-- Two elements of a list stand in it in one order or the other. -/
theorem sublist_pair {xs : List α} {x y : α} (hx : x ∈ xs) (hy : y ∈ xs) (hne : x ≠ y) :
    [x, y].Sublist xs ∨ [y, x].Sublist xs := by
  induction xs with
  | nil => exact absurd hx List.not_mem_nil
  | cons z xs ih =>
    rcases List.mem_cons.mp hx with rfl | hx'
    · rcases List.mem_cons.mp hy with rfl | hy'
      · exact absurd rfl hne
      · exact Or.inl ((List.singleton_sublist.mpr hy').cons_cons x)
    · rcases List.mem_cons.mp hy with rfl | hy'
      · exact Or.inr ((List.singleton_sublist.mpr hx').cons_cons y)
      · exact (ih hx' hy').imp (fun h => h.cons z) fun h => h.cons z

/-! ## Keeping the first element of each key -/

variable [DecidableEq K]

/-- The elements whose key is not in `seen` and was not met before. -/
def keepFirst (key : α → K) (seen : List K) : List α → List α
  | [] => []
  | x :: xs =>
    if key x ∈ seen then keepFirst key seen xs
    else x :: keepFirst key (key x :: seen) xs

theorem keepFirst_cons (key : α → K) (seen : List K) (x : α) (xs : List α) :
    keepFirst key seen (x :: xs) =
      if key x ∈ seen then keepFirst key seen xs else x :: keepFirst key (key x :: seen) xs := rfl

theorem keepFirst_sublist (key : α → K) (seen : List K) (xs : List α) :
    (keepFirst key seen xs).Sublist xs := by
  induction xs generalizing seen with
  | nil => exact List.Sublist.refl _
  | cons x xs ih =>
    rw [keepFirst_cons]
    split
    · exact (ih seen).cons x
    · exact (ih (key x :: seen)).cons_cons x

/-- No key in `seen` comes out. -/
theorem key_notMem_of_mem_keepFirst {key : α → K} {seen : List K} {xs : List α} {x : α}
    (hx : x ∈ keepFirst key seen xs) : key x ∉ seen := by
  induction xs generalizing seen with
  | nil => exact absurd hx List.not_mem_nil
  | cons y ys ih =>
    rw [keepFirst_cons] at hx
    split at hx
    · exact ih hx
    · rename_i hy
      rcases List.mem_cons.mp hx with rfl | hx'
      · exact hy
      · exact fun hmem => ih hx' (List.mem_cons_of_mem _ hmem)

/-- **The keys that come out are pairwise different.** -/
theorem nodup_keepFirst (key : α → K) (seen : List K) (xs : List α) :
    ((keepFirst key seen xs).map key).Nodup := by
  induction xs generalizing seen with
  | nil => exact List.nodup_nil
  | cons x xs ih =>
    rw [keepFirst_cons]
    split
    · exact ih seen
    · rw [List.map_cons, List.nodup_cons]
      refine ⟨?_, ih (key x :: seen)⟩
      intro hmem
      obtain ⟨y, hy, hkey⟩ := List.mem_map.mp hmem
      exact key_notMem_of_mem_keepFirst hy (hkey ▸ List.mem_cons_self)

/-- An element whose key is not in `seen` comes out, unless an element before it with its key does. -/
theorem exists_mem_keepFirst (key : α → K) (pre suf : List α) {seen : List K} {x : α}
    (hx : key x ∉ seen) :
    ∃ y ∈ keepFirst key seen (pre ++ x :: suf), key y = key x ∧ (y = x ∨ y ∈ pre) := by
  induction pre generalizing seen with
  | nil =>
    refine ⟨x, ?_, rfl, Or.inl rfl⟩
    rw [List.nil_append, keepFirst_cons, if_neg hx]
    exact List.mem_cons_self
  | cons z pre ih =>
    rw [List.cons_append, keepFirst_cons]
    split
    · obtain ⟨y, hy, hkey, hwhich⟩ := ih hx
      exact ⟨y, hy, hkey, hwhich.imp id (List.mem_cons_of_mem z)⟩
    · by_cases hz : key z = key x
      · exact ⟨z, List.mem_cons_self, hz, Or.inr List.mem_cons_self⟩
      · have hx' : key x ∉ key z :: seen := by
          intro hmem
          rcases List.mem_cons.mp hmem with heq | hold
          · exact hz heq.symm
          · exact hx hold
        obtain ⟨y, hy, hkey, hwhich⟩ := ih hx'
        exact ⟨y, List.mem_cons_of_mem _ hy, hkey, hwhich.imp id (List.mem_cons_of_mem z)⟩

/-- Where no key is repeated, every element is kept. -/
theorem keepFirst_eq_of_nodup {key : α → K} {xs : List α} {seen : List K} (hnodup : (xs.map key).Nodup)
    (hseen : ∀ x ∈ xs, key x ∉ seen) : keepFirst key seen xs = xs := by
  induction xs generalizing seen with
  | nil => rfl
  | cons x xs ih =>
    obtain ⟨hx, hxs⟩ := List.nodup_cons.mp hnodup
    rw [keepFirst_cons, if_neg (hseen x List.mem_cons_self), ih hxs]
    intro y hy hmem
    rcases List.mem_cons.mp hmem with heq | hmem
    · exact hx (heq ▸ List.mem_map_of_mem hy)
    · exact hseen y (List.mem_cons_of_mem _ hy) hmem

/-- The keys that come out are the first occurrences among the keys. -/
theorem map_keepFirst (key : α → K) (seen : List K) (xs : List α) :
    (keepFirst key seen xs).map key = keepFirst id seen (xs.map key) := by
  induction xs generalizing seen with
  | nil => rfl
  | cons x xs ih =>
    rw [List.map_cons, keepFirst_cons, keepFirst_cons, id_eq]
    split
    · exact ih seen
    · rw [List.map_cons, ih]

/-- Only which keys were seen matters. -/
theorem keepFirst_congr {key : α → K} {seen seen' : List K} (h : ∀ k, k ∈ seen ↔ k ∈ seen')
    (xs : List α) : keepFirst key seen xs = keepFirst key seen' xs := by
  induction xs generalizing seen seen' with
  | nil => rfl
  | cons x xs ih =>
    have hcons : ∀ k, k ∈ key x :: seen ↔ k ∈ key x :: seen' := by
      intro k
      rw [List.mem_cons, List.mem_cons, h]
    rw [keepFirst_cons, keepFirst_cons, ih h, ih hcons]
    simp only [h]

theorem keepFirst_append (key : α → K) (seen : List K) (xs ys : List α) :
    keepFirst key seen (xs ++ ys) =
      keepFirst key seen xs ++ keepFirst key (xs.map key ++ seen) ys := by
  induction xs generalizing seen with
  | nil => rfl
  | cons x xs ih =>
    rw [List.cons_append, keepFirst_cons, keepFirst_cons, ih, ih]
    split
    · rename_i hx
      congr 1
      refine keepFirst_congr ?_ ys
      intro k
      simp only [List.map_cons, List.cons_append, List.mem_cons, List.mem_append]
      constructor
      · exact Or.inr
      · rintro (rfl | hk)
        · exact Or.inr hx
        · exact hk
    · rw [List.cons_append]
      congr 2
      refine keepFirst_congr ?_ ys
      intro k
      simp only [List.map_cons, List.cons_append, List.mem_cons, List.mem_append]
      tauto

/-- What was seen is filtered out. -/
theorem keepFirst_append_seen (seen seen' xs : List K) :
    keepFirst id (seen ++ seen') xs = (keepFirst id seen' xs).filter fun x => decide (x ∉ seen) := by
  induction xs generalizing seen' with
  | nil => rfl
  | cons x xs ih =>
    have hmove : ∀ k, k ∈ x :: (seen ++ seen') ↔ k ∈ seen ++ x :: seen' := by
      intro k
      simp only [List.mem_cons, List.mem_append]
      tauto
    rw [keepFirst_cons, keepFirst_cons, id_eq]
    by_cases hseen' : x ∈ seen'
    · rw [if_pos (List.mem_append_right _ hseen'), if_pos hseen', ih]
    · rw [if_neg hseen']
      by_cases hseen : x ∈ seen
      · rw [if_pos (List.mem_append_left _ hseen), List.filter_cons_of_neg (by simpa using hseen), ← ih]
        refine keepFirst_congr ?_ xs
        intro k
        simp only [List.mem_append, List.mem_cons]
        constructor
        · rintro (hk | hk)
          · exact Or.inl hk
          · exact Or.inr (Or.inr hk)
        · rintro (hk | rfl | hk)
          · exact Or.inl hk
          · exact Or.inl hseen
          · exact Or.inr hk
      · have hboth : x ∉ seen ++ seen' := fun h => (List.mem_append.mp h).elim hseen hseen'
        rw [if_neg hboth, List.filter_cons_of_pos (by simpa using hseen), ← ih,
          keepFirst_congr hmove]

/-! ### First occurrences -/

/-- The first occurrence of each element. -/
def firsts (xs : List K) : List K := keepFirst id [] xs

theorem mem_firsts {x : K} {xs : List K} : x ∈ firsts xs ↔ x ∈ xs := by
  constructor
  · exact fun h => (keepFirst_sublist id [] xs).mem h
  · intro h
    obtain ⟨pre, suf, rfl⟩ := List.append_of_mem h
    obtain ⟨y, hy, hkey, _⟩ := exists_mem_keepFirst id pre suf (List.not_mem_nil (a := id x))
    obtain rfl : y = x := hkey
    exact hy

theorem firsts_append (xs ys : List K) :
    firsts (xs ++ ys) = firsts xs ++ (firsts ys).filter fun y => decide (y ∉ xs) := by
  unfold firsts
  rw [keepFirst_append, List.map_id, keepFirst_append_seen]

/-- First occurrences of a concatenation depend on those of its parts only. -/
theorem firsts_append_congr {xs xs' ys ys' : List K} (hx : firsts xs = firsts xs')
    (hy : firsts ys = firsts ys') : firsts (xs ++ ys) = firsts (xs' ++ ys') := by
  have hmem : ∀ y, y ∈ xs ↔ y ∈ xs' := by
    intro y
    rw [← mem_firsts, hx, mem_firsts]
  rw [firsts_append, firsts_append, hx, hy]
  simp only [hmem]

/-- Elements that are pairwise different are all first occurrences. -/
theorem keepFirst_eq_self {seen xs : List K} (hnodup : xs.Nodup) (hseen : ∀ x ∈ xs, x ∉ seen) :
    keepFirst id seen xs = xs :=
  keepFirst_eq_of_nodup (by rwa [List.map_id]) hseen

theorem firsts_firsts (xs : List K) : firsts (firsts xs) = firsts xs := by
  have hnodup := nodup_keepFirst id [] xs
  rw [List.map_id] at hnodup
  exact keepFirst_eq_self hnodup fun _ _ => List.not_mem_nil

/-! ## Loops that may raise -/

section Raising

variable {β ε : Type}

theorem ok_bind (a : α) (f : α → Except ε β) : (Except.ok a >>= f) = f a := rfl

/-- A sequence of two computations succeeds when both do. -/
theorem bind_eq_ok {x : Except ε α} {f : α → Except ε β} {b : β} :
    x >>= f = .ok b ↔ ∃ a, x = .ok a ∧ f a = .ok b := by
  cases x with
  | error e =>
    constructor
    · intro h
      cases h
    · rintro ⟨a, ha, _⟩
      cases ha
  | ok a =>
    constructor
    · intro h
      exact ⟨a, rfl, h⟩
    · rintro ⟨a', ha, h⟩
      cases ha
      exact h

/-- A computation that succeeds with a value passing a test, from its evaluation. -/
theorem exists_ok_of_any {x : Except ε α} {p : α → Bool} (h : x.toOption.any p = true) :
    ∃ a, x = .ok a ∧ p a = true := by
  cases x with
  | error e => cases h
  | ok a => exact ⟨a, rfl, h⟩

/-- **A loop succeeds when every turn does**, and returns what the turns return. -/
theorem forall₂_of_mapM_eq_ok {f : α → Except ε β} {xs : List α} {ys : List β}
    (h : xs.mapM f = .ok ys) : List.Forall₂ (fun x y => f x = .ok y) xs ys := by
  induction xs generalizing ys with
  | nil =>
    cases h
    exact .nil
  | cons x xs ih =>
    rw [List.mapM_cons] at h
    obtain ⟨y, hy, h⟩ := bind_eq_ok.mp h
    obtain ⟨ys', hys, h⟩ := bind_eq_ok.mp h
    cases h
    exact .cons hy (ih hys)

theorem mapM_eq_ok_of_forall₂ {f : α → Except ε β} {xs : List α} {ys : List β}
    (h : List.Forall₂ (fun x y => f x = .ok y) xs ys) : xs.mapM f = .ok ys := by
  induction h with
  | nil => rfl
  | cons hhead _ ih =>
    rw [List.mapM_cons, hhead, ih]
    rfl

/-- A loop none of whose turns raises returns. -/
theorem exists_mapM_eq_ok {f : α → Except ε β} {xs : List α} (h : ∀ x ∈ xs, ∃ y, f x = .ok y) :
    ∃ ys, xs.mapM f = .ok ys := by
  induction xs with
  | nil => exact ⟨[], rfl⟩
  | cons x xs ih =>
    obtain ⟨y, hy⟩ := h x List.mem_cons_self
    obtain ⟨ys, hys⟩ := ih fun z hz => h z (List.mem_cons_of_mem _ hz)
    refine ⟨y :: ys, ?_⟩
    rw [List.mapM_cons, hy, hys]
    rfl

/-- Partners may be numbered and mapped. -/
theorem forall₂_zipIdx_map {γ : Type} {R : α → β → Prop} {S : α → γ → Prop} {f : β × Nat → γ}
    {xs : List α} {ys : List β} (h : List.Forall₂ R xs ys) (hRS : ∀ x ∈ xs, ∀ y i, R x y → S x (f (y, i)))
    (start : Nat) : List.Forall₂ S xs ((ys.zipIdx start).map f) := by
  induction h generalizing start with
  | nil => exact .nil
  | cons hhead htail ih =>
    rw [List.zipIdx_cons, List.map_cons]
    exact .cons (hRS _ List.mem_cons_self _ _ hhead)
      (ih (fun x hx => hRS x (List.mem_cons_of_mem _ hx)) (start + 1))

/-- What a loop returns was returned by some turn. -/
theorem exists_of_mem_mapM_eq_ok {f : α → Except ε β} {xs : List α} {ys : List β}
    (h : xs.mapM f = .ok ys) {y : β} (hy : y ∈ ys) : ∃ x ∈ xs, f x = .ok y := by
  have hall := forall₂_of_mapM_eq_ok h
  clear h
  induction hall with
  | nil => exact absurd hy List.not_mem_nil
  | cons hhead htail ih =>
    rcases List.mem_cons.mp hy with rfl | hy
    · exact ⟨_, List.mem_cons_self, hhead⟩
    · obtain ⟨x, hx, hf⟩ := ih hy
      exact ⟨x, List.mem_cons_of_mem _ hx, hf⟩

/-- What the turns preserve, the loop preserves. -/
theorem map_eq_of_mapM_eq_ok {γ : Type} {f : α → Except ε β} {xs : List α} {ys : List β}
    (h : xs.mapM f = .ok ys) {a : α → γ} {b : β → γ}
    (hab : ∀ x ∈ xs, ∀ y, f x = .ok y → b y = a x) : ys.map b = xs.map a := by
  have hall := forall₂_of_mapM_eq_ok h
  clear h
  induction hall with
  | nil => rfl
  | cons hhead htail ih =>
    have htail' := ih fun x hx => hab x (List.mem_cons_of_mem _ hx)
    rw [List.map_cons, List.map_cons, htail', hab _ List.mem_cons_self _ hhead]

/-- Two bodies that agree on the elements make the same loop. -/
theorem mapM_congr {f g : α → Except ε β} {xs : List α} (h : ∀ x ∈ xs, f x = g x) :
    xs.mapM f = xs.mapM g := by
  induction xs with
  | nil => rfl
  | cons x xs ih =>
    rw [List.mapM_cons, List.mapM_cons, h x List.mem_cons_self,
      ih fun y hy => h y (List.mem_cons_of_mem _ hy)]

/-- What is made of the results of a loop can be made in each turn. -/
theorem map_mapM {γ : Type} (f : α → Except ε β) (g : β → γ) (xs : List α) :
    (xs.mapM f).map (List.map g) = xs.mapM fun x => (f x).map g := by
  induction xs with
  | nil => rfl
  | cons x xs ih =>
    rw [List.mapM_cons, List.mapM_cons, ← ih]
    cases f x with
    | error e => rfl
    | ok y => cases xs.mapM f <;> rfl

/-- What raises raises something that is caught, and what returns satisfies `P`. -/
def Settles (caught : ε → Prop) (x : Except ε α) (P : α → Prop) : Prop :=
  (∀ e, x = .error e → caught e) ∧ ∀ a, x = .ok a → P a

variable {caught : ε → Prop}

theorem settles_ok {a : α} {P : α → Prop} : Settles caught (.ok a) P ↔ P a := by
  constructor
  · exact fun h => h.2 a rfl
  · intro h
    refine ⟨fun e he => (by cases he), fun b hb => ?_⟩
    obtain rfl := Except.ok.inj hb
    exact h

theorem settles_error {e : ε} {P : α → Prop} : Settles caught (.error e) P ↔ caught e := by
  constructor
  · exact fun h => h.1 e rfl
  · intro h
    refine ⟨fun e' he => ?_, fun b hb => (by cases hb)⟩
    obtain rfl := Except.error.inj he
    exact h

/-- **A sequence settles when what follows settles on the results of the first.** -/
theorem settles_bind {x : Except ε α} {f : α → Except ε β} {P : β → Prop} :
    Settles caught (x >>= f) P ↔ Settles caught x fun a => Settles caught (f a) P := by
  cases x with
  | ok a =>
    rw [settles_ok]
    exact Iff.rfl
  | error e =>
    rw [settles_error]
    exact settles_error

/-- A check that raises settles when it is caught, or does not raise. -/
theorem settles_ite {c : Prop} [Decidable c] {x y : Except ε α} {P : α → Prop} :
    Settles caught (if c then x else y) P ↔ (c → Settles caught x P) ∧ (¬ c → Settles caught y P) := by
  split
  · rename_i hc
    exact ⟨fun h => ⟨fun _ => h, fun hnot => absurd hc hnot⟩, fun h => h.1 hc⟩
  · rename_i hc
    exact ⟨fun h => ⟨fun hyes => absurd hyes hc, fun _ => h⟩, fun h => h.2 hc⟩

end Raising

/-! ## Every element with what stands before it -/

theorem forall_splits_cons {α : Type} {P : List α → α → Prop} {a : α} {rest : List α} :
    (∀ mid x after, a :: rest = mid ++ x :: after → P mid x) ↔
      P [] a ∧ ∀ mid x after, rest = mid ++ x :: after → P (a :: mid) x := by
  constructor
  · intro h
    refine ⟨h [] a rest rfl, ?_⟩
    intro mid x after hsplit
    exact h (a :: mid) x after (congrArg (a :: ·) hsplit)
  · rintro ⟨hhere, hlater⟩ mid x after hsplit
    cases mid with
    | nil =>
      obtain ⟨rfl, _⟩ := List.cons.inj hsplit
      exact hhere
    | cons y mid =>
      obtain ⟨rfl, htail⟩ := List.cons.inj hsplit
      exact hlater mid x after htail

/-! ## The first element of a kind -/

/-- An element is the first of its kind when nothing of the kind stands before it. -/
theorem find?_eq_some_iff_idxOf [DecidableEq α] {p : α → Bool} {x : α} {xs : List α} (hx : x ∈ xs) :
    xs.find? p = some x ↔ p x = true ∧ ∀ y, xs.idxOf y < xs.idxOf x → ¬ p y = true := by
  induction xs with
  | nil => cases hx
  | cons a xs ih =>
    by_cases hp : p a = true
    · rw [List.find?_cons_of_pos hp]
      constructor
      · intro h
        obtain rfl := Option.some.inj h
        refine ⟨hp, fun y hy => ?_⟩
        rw [List.idxOf_cons_self] at hy
        exact absurd hy (Nat.not_lt_zero _)
      · rintro ⟨-, hbefore⟩
        by_contra hne
        have hax : a ≠ x := fun h => hne (congrArg some h)
        refine hbefore a ?_ hp
        rw [List.idxOf_cons_self, List.idxOf_cons_ne _ hax]
        exact Nat.succ_pos _
    · rw [List.find?_cons_of_neg hp]
      by_cases hax : a = x
      · subst hax
        exact iff_of_false (fun h => hp (List.find?_some h)) fun h => hp h.1
      · rw [ih ((List.mem_cons.mp hx).resolve_left (Ne.symm hax)), List.idxOf_cons_ne _ hax]
        refine and_congr_right fun _ => forall_congr' fun y => ?_
        by_cases hay : a = y
        · subst hay
          exact ⟨fun _ _ => hp, fun _ _ => hp⟩
        · rw [List.idxOf_cons_ne _ hay, Nat.succ_lt_succ_iff]

end PyList
