/-
  Writes of the vector store that stop half-way, and what they leave.

  A delete goes through the collections one by one, so one that raises has been through the first few
  (`mapFirst`); an upsert writes its documents one by one.  Opening a collection first or later makes no
  difference to any of them.
-/
import FinancialRag.Storage.Entries

set_option linter.unusedVariables false

namespace FinancialRag.Storage

variable {F : Type}

/-! ## Deleting a tenant's records -/

/-- `delete_by_tenant`: in every collection, the records of this tenant. -/
def deleteByTenant (client : Client F) (tenantId : Int) : Client F :=
  ⟨client.collections.map (·.delete fun r => r.ofTenant tenantId)⟩

/-- A `delete_by_tenant` that raises after the first `n` collections. -/
def deleteByTenantPartly (client : Client F) (n : Nat) (tenantId : Int) : Client F :=
  ⟨(deleteByTenant ⟨client.collections.take n⟩ tenantId).collections ++ client.collections.drop n⟩

theorem ofTenant_unique {r : Record F} {t t' : Int} (h : r.ofTenant t = true) (h' : r.ofTenant t' = true) :
    t = t' := by
  unfold Record.ofTenant at h h'
  split at h
  · rename_i n hn
    rw [hn] at h'
    exact (beq_iff_eq.mp h).symm.trans (beq_iff_eq.mp h')
  · cases h

/-! ## The first few collections -/

/-- `f` on the first few members, or on all. -/
def mapFirst {β : Type} (first : Option Nat) (f : β → β) (l : List β) : List β :=
  match first with
  | none => l.map f
  | some n => (l.take n).map f ++ l.drop n

theorem mapFirst_append {β : Type} (first : Option Nat) (f : β → β) (l : List β) {x : β} (hx : f x = x) :
    mapFirst first f (l ++ [x]) = mapFirst first f l ++ [x] := by
  cases first with
  | none => simp [mapFirst, hx]
  | some n =>
    show ((l ++ [x]).take n).map f ++ (l ++ [x]).drop n = (l.take n).map f ++ l.drop n ++ [x]
    rcases Nat.lt_or_ge l.length n with hlt | hle
    · rw [List.take_of_length_le (by simp; omega), List.drop_of_length_le (by simp; omega),
        List.take_of_length_le (by omega), List.drop_of_length_le (by omega)]
      simp [hx]
    · rw [List.take_append_of_le_length hle, List.drop_append_of_le_length hle, List.append_assoc]

theorem map_mapFirst {β γ : Type} (first : Option Nat) {f : β → β} {g : γ → γ} {h : β → γ}
    (hcomm : ∀ x, h (f x) = g (h x)) (l : List β) :
    (mapFirst first f l).map h = mapFirst first g (l.map h) := by
  have hmap : ∀ l : List β, (l.map f).map h = (l.map h).map g := by
    intro l
    rw [List.map_map, List.map_map]
    exact List.map_congr_left fun x _ => hcomm x
  cases first with
  | none => exact hmap l
  | some n =>
    show ((l.take n).map f ++ l.drop n).map h = ((l.map h).take n).map g ++ (l.map h).drop n
    rw [List.map_append, hmap, List.map_take, List.map_drop]

theorem mapFirst_id {β : Type} (first : Option Nat) {f : β → β} (hf : ∀ x, f x = x) (l : List β) :
    mapFirst first f l = l := by
  have hmap : ∀ l : List β, l.map f = l := fun l =>
    (List.map_congr_left fun x _ => hf x).trans (List.map_id l)
  cases first with
  | none => exact hmap l
  | some n =>
    show (l.take n).map f ++ l.drop n = l
    rw [hmap, List.take_append_drop]

theorem mem_mapFirst {β : Type} {first : Option Nat} {f : β → β} {l : List β} {y : β}
    (h : y ∈ mapFirst first f l) : ∃ x ∈ l, y = x ∨ y = f x := by
  cases first with
  | none =>
    obtain ⟨x, hx, rfl⟩ := List.mem_map.mp h
    exact ⟨x, hx, Or.inr rfl⟩
  | some n =>
    rcases List.mem_append.mp h with h | h
    · obtain ⟨x, hx, rfl⟩ := List.mem_map.mp h
      exact ⟨x, List.mem_of_mem_take hx, Or.inr rfl⟩
    · exact ⟨y, List.mem_of_mem_drop h, Or.inl rfl⟩

theorem allIn_mapFirst {client : Client F} {name : String} {q : Record F → Prop} (first : Option Nat)
    (p : Record F → Bool) (h : client.AllIn name q) :
    Client.AllIn ⟨mapFirst first (·.delete p) client.collections⟩ name q := by
  intro c hc hname r hr
  obtain ⟨c₀, hc₀, rfl | rfl⟩ := mem_mapFirst hc
  · exact h c hc₀ hname r hr
  · exact h c₀ hc₀ hname r (List.mem_of_mem_filter hr)

theorem names_mapFirst (first : Option Nat) (p : Record F → Bool) (client : Client F) :
    Client.names ⟨mapFirst first (·.delete p) client.collections⟩ = client.names := by
  have hname : ∀ c : Collection F, (c.delete p).name = id c.name := fun _ => rfl
  exact (map_mapFirst first hname _).trans (mapFirst_id first (fun _ => rfl) _)

/-! ## Opening first or later -/

theorem collections_createCollection (client : Client F) (name : String) :
    (createCollection client name).collections =
      if client.collections.any (·.name == name) then client.collections
      else client.collections ++ [⟨name, [], List.nodup_nil⟩] := by
  unfold createCollection Client.withCollection
  split
  · refine (List.map_congr_left fun c _ => ?_).trans (List.map_id _)
    split <;> rfl
  · rfl

/-- Opening a collection after a change of that collection is the change after opening it. -/
theorem collections_open_withCollection {client : Client F} {name : String}
    {f : Collection F → Collection F} (hf : ∀ c, (f c).name = c.name) :
    (createCollection (client.withCollection name f) name).collections =
      (createCollection client name).collections.map fun c => if c.name == name then f c else c := by
  rw [collections_createCollection, collections_createCollection]
  unfold Client.withCollection
  by_cases hany : client.collections.any (·.name == name) = true
  · have hstill : (client.collections.map fun c => if c.name == name then f c else c).any
        (·.name == name) = true := by
      obtain ⟨c, hc, hname⟩ := List.any_eq_true.mp hany
      refine List.any_eq_true.mpr ⟨_, List.mem_map_of_mem hc, ?_⟩
      rw [if_pos hname, hf]
      exact hname
    simp only [hany, if_true, hstill]
  · have hadded : (client.collections ++ [f ⟨name, [], List.nodup_nil⟩]).any (·.name == name) = true := by
      rw [List.any_append]
      simp [hf]
    have hnone : client.collections.map (fun c => if c.name == name then f c else c) =
        client.collections := by
      refine (List.map_congr_left fun c hc => ?_).trans (List.map_id _)
      rw [if_neg fun h => hany (List.any_eq_true.mpr ⟨c, hc, h⟩)]
      rfl
    rw [if_neg hany, if_neg hany]
    simp only [hadded, if_true, List.map_append, hnone, List.map_singleton, beq_self_eq_true]

theorem collections_open_mapFirst (first : Option Nat) (p : Record F → Bool) (client : Client F)
    (name : String) :
    (createCollection ⟨mapFirst first (·.delete p) client.collections⟩ name).collections =
      mapFirst first (·.delete p) (createCollection client name).collections := by
  have hnames : (mapFirst first (·.delete p) client.collections).map Collection.name =
      client.collections.map Collection.name := names_mapFirst first p client
  have hany : ∀ l : List (Collection F), l.any (·.name == name) = (l.map Collection.name).any (· == name) :=
    fun l => by rw [List.any_map]; rfl
  rw [collections_createCollection, collections_createCollection, hany, hany, hnames]
  split
  · rfl
  · exact (mapFirst_append first _ _ rfl).symm

variable {client : Client F}

theorem mem_withCollection {name : String} {f : Collection F → Collection F} {c : Collection F}
    (h : c ∈ (client.withCollection name f).collections) :
    c ∈ client.collections ∨ ∃ c₀, (c₀ ∈ client.collections ∨ c₀ = ⟨name, [], List.nodup_nil⟩) ∧
      c₀.name = name ∧ c = f c₀ := by
  unfold Client.withCollection at h
  split at h
  · obtain ⟨c₀, hc₀, rfl⟩ := List.mem_map.mp h
    split
    · rename_i hname
      exact Or.inr ⟨c₀, Or.inl hc₀, beq_iff_eq.mp hname, rfl⟩
    · exact Or.inl hc₀
  · rcases List.mem_append.mp h with h | h
    · exact Or.inl h
    · exact Or.inr ⟨_, Or.inr rfl, rfl, List.mem_singleton.mp h⟩

theorem exists_mem_withCollection {name : String} {f : Collection F → Collection F} :
    ∃ c₀ : Collection F, f c₀ ∈ (client.withCollection name f).collections ∧ c₀.name = name := by
  unfold Client.withCollection
  split
  · rename_i hany
    obtain ⟨c, hc, hname⟩ := List.any_eq_true.mp hany
    refine ⟨c, List.mem_map.mpr ⟨c, hc, ?_⟩, beq_iff_eq.mp hname⟩
    rw [if_pos hname]
  · exact ⟨_, List.mem_append_right _ (List.mem_singleton.mpr rfl), rfl⟩

/-! ## Upserting -/

theorem filter_upsertRecord_of_pos {p : Record F → Bool} {new : Record F} {rs : List (Record F)}
    (hnew : p new = true) (hclash : ∀ r ∈ rs, r.id = new.id → p r = true) :
    (upsertRecord new rs).filter p = upsertRecord new (rs.filter p) := by
  induction rs with
  | nil => exact List.filter_cons_of_pos hnew
  | cons r rs ih =>
    have hrest := ih fun r hr => hclash r (List.mem_cons_of_mem _ hr)
    by_cases hid : r.id = new.id
    · rw [upsertRecord, if_pos hid, List.filter_cons_of_pos hnew,
        List.filter_cons_of_pos (hclash r List.mem_cons_self hid), upsertRecord, if_pos hid]
    · rw [upsertRecord, if_neg hid, List.filter_cons, List.filter_cons, hrest]
      split
      · rw [upsertRecord, if_neg hid]
      · rfl

/-- An upsert of records that pass a test goes its way among the records that pass it. -/
theorem filter_upsertAll_of_pos {p : Record F → Bool} {c : Collection F} {new : List (Record F)}
    (hnew : ∀ x ∈ new, p x = true)
    (hclash : ∀ r ∈ c.records, ∀ x ∈ new, r.id = x.id → p r = true) :
    (c.upsertAll new).records.filter p =
      new.foldl (fun rs x => upsertRecord x rs) (c.records.filter p) := by
  induction new generalizing c with
  | nil => rfl
  | cons x new ih =>
    have hx := hnew x List.mem_cons_self
    have hrest := ih (c := c.upsert x) (fun y hy => hnew y (List.mem_cons_of_mem _ hy)) (by
      intro r hr y hy hid
      rcases mem_upsertRecord hr with rfl | hr
      · exact hx
      · exact hclash r hr y (List.mem_cons_of_mem _ hy) hid)
    rw [List.foldl_cons, ← filter_upsertRecord_of_pos hx fun r hr => hclash r hr x List.mem_cons_self]
    exact hrest

theorem mem_upsertRecord_self (new : Record F) (rs : List (Record F)) : new ∈ upsertRecord new rs := by
  induction rs with
  | nil => exact List.mem_singleton.mpr rfl
  | cons r rs ih =>
    rw [upsertRecord]
    split
    · exact List.mem_cons_self
    · exact List.mem_cons_of_mem _ ih

theorem mem_upsertRecord_of_mem {new r : Record F} {rs : List (Record F)} (h : r ∈ rs)
    (hid : r.id = new.id → r = new) : r ∈ upsertRecord new rs := by
  induction rs with
  | nil => cases h
  | cons x rs ih =>
    rw [upsertRecord]
    split
    · rename_i hx
      rcases List.mem_cons.mp h with rfl | h
      · exact hid hx ▸ List.mem_cons_self
      · exact List.mem_cons_of_mem _ h
    · rcases List.mem_cons.mp h with rfl | h
      · exact List.mem_cons_self
      · exact List.mem_cons_of_mem _ (ih h)

/-- A record is left by an upsert that does not write its id, or writes the record itself. -/
theorem mem_upsertAll_of_mem {c : Collection F} {new : List (Record F)} {r : Record F}
    (h : r ∈ c.records) (hid : ∀ x ∈ new, r.id = x.id → r = x) : r ∈ (c.upsertAll new).records := by
  induction new generalizing c with
  | nil => exact h
  | cons x new ih =>
    exact ih (c := c.upsert x) (mem_upsertRecord_of_mem h (hid x List.mem_cons_self))
      fun y hy => hid y (List.mem_cons_of_mem _ hy)

theorem mem_upsertAll_new {c : Collection F} {new : List (Record F)} {r : Record F} (h : r ∈ new)
    (hid : ∀ x ∈ new, r.id = x.id → r = x) : r ∈ (c.upsertAll new).records := by
  induction new generalizing c with
  | nil => cases h
  | cons x new ih =>
    have hrest : ∀ y ∈ new, r.id = y.id → r = y := fun y hy => hid y (List.mem_cons_of_mem _ hy)
    rcases List.mem_cons.mp h with rfl | h
    · exact mem_upsertAll_of_mem (c := c.upsert r) (mem_upsertRecord_self r _) hrest
    · exact ih h hrest

/-! ## Entries -/

theorem mem_entries {client : Client F} {p : Record F → Bool} {e : String × Record F} :
    e ∈ client.entries p ↔ ∃ c ∈ client.collections, c.name = e.1 ∧ e.2 ∈ c.records ∧ p e.2 = true := by
  unfold Client.entries Collection.entries
  rw [List.mem_flatMap]
  refine exists_congr fun c => and_congr_right fun _ => ?_
  rw [List.mem_map]
  constructor
  · rintro ⟨r, hr, rfl⟩
    exact ⟨rfl, List.mem_filter.mp hr⟩
  · rintro ⟨hname, hr⟩
    exact ⟨e.2, List.mem_filter.mpr hr, by rw [hname]⟩

/-- A store lists no entry twice. -/
theorem nodup_entries {client : Client F} (hnames : client.names.Nodup) (p : Record F → Bool) :
    (client.entries p).Nodup := by
  unfold Client.entries
  refine List.nodup_flatMap.mpr ⟨?_, ?_⟩
  · intro c _
    refine List.Nodup.map (fun r r' h => (Prod.mk.inj h).2) (List.Nodup.filter _ ?_)
    exact List.Nodup.of_map _ c.idsNodup
  · refine (List.pairwise_map.mp hnames).imp ?_
    intro c c' hne e he he'
    obtain ⟨r, _, rfl⟩ := List.mem_map.mp he
    obtain ⟨r', _, heq⟩ := List.mem_map.mp he'
    exact hne (Prod.mk.inj heq).1.symm

end FinancialRag.Storage
