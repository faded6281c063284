import ObjectEngine.Members

/-!
# Reading maps

A map is read by `List.lookup`. This file says what each operation of `ObjectEngine.Members`
does to what is read (`lookup_insert`, `lookup_erase`, `lookup_insertAll`, `lookup_mapValues`),
that the operations keep the keys increasing (`sorted_insert` and its companions), and that a
map in key order is determined by what is read from it (`Sorted.ext`).
-/

namespace ObjectEngine

namespace Members

variable {α β : Type}

/-! ### What is read -/

/-- Reading under a key other than the first goes on with the rest. -/
theorem lookup_cons (k key : String) (v : α) (rest : Members α) :
    List.lookup k ((key, v) :: rest) = if k = key then some v else rest.lookup k := by
  by_cases h : k = key
  · simp [h]
  · simp [List.lookup_cons, h, beq_eq_false_iff_ne.2 h]

/-- **An insertion is read back**, and under other keys nothing changes. -/
theorem lookup_insert (k key : String) (v : α) (members : Members α) :
    (insert key v members).lookup k = if k = key then some v else members.lookup k := by
  induction members with
  | nil => exact lookup_cons k key v []
  | cons m rest ih =>
    obtain ⟨key', v'⟩ := m
    by_cases hlt : key < key'
    · rw [insert, if_pos hlt, lookup_cons]
    by_cases heq : key = key'
    · subst heq
      rw [insert, if_neg hlt, if_pos rfl, lookup_cons, lookup_cons]
      by_cases h : k = key <;> simp [h]
    · rw [insert, if_neg hlt, if_neg heq, lookup_cons, lookup_cons, ih]
      by_cases h : k = key
      · simp [h, heq]
      · simp [h]

/-- **A removed key is not bound**, and under other keys nothing changes. -/
theorem lookup_erase (k key : String) (members : Members α) :
    (erase key members).lookup k = if k = key then none else members.lookup k := by
  induction members with
  | nil => simp [erase]
  | cons m rest ih =>
    obtain ⟨key', v'⟩ := m
    rw [erase] at ih ⊢
    by_cases h : key' = key
    · rw [List.filter_cons_of_neg (by simpa using h), ih, lookup_cons]
      by_cases hk : k = key
      · simp [hk]
      · simp [hk, show k ≠ key' from h ▸ hk]
    · rw [List.filter_cons_of_pos (by simpa using h), lookup_cons, lookup_cons, ih]
      by_cases hk : k = key'
      · simp [hk, h]
      · simp [hk]

/-- A map on top of another is read first, its last binding of a key before the others. -/
theorem lookup_insertAll (k : String) (members news : Members α) :
    (insertAll members news).lookup k = (news.reverse.lookup k).or (members.lookup k) := by
  induction news generalizing members with
  | nil => simp [insertAll]
  | cons m rest ih =>
    have step : insertAll members (m :: rest) = insertAll (insert m.1 m.2 members) rest := rfl
    rw [step, ih, lookup_insert, List.reverse_cons, List.lookup_append, lookup_cons]
    cases rest.reverse.lookup k with
    | some v => simp
    | none => by_cases h : k = m.1 <;> simp [h]

/-- What is read from a list of bindings: the last of each key. -/
theorem lookup_ofList (k : String) (bindings : List (String × α)) :
    (ofList bindings).lookup k = bindings.reverse.lookup k := by
  simp [ofList, lookup_insertAll]

/-- A function on the values acts on what is read. -/
theorem lookup_mapValues (k : String) (f : α → β) (members : Members α) :
    (mapValues f members).lookup k = (members.lookup k).map f := by
  induction members with
  | nil => rfl
  | cons m rest ih =>
    rw [mapValues] at ih ⊢
    rw [List.map_cons, lookup_cons, ih, lookup_cons]
    by_cases h : k = m.1 <;> simp [h]

/-- What is read from the members whose keys are of a kind. -/
theorem lookup_filter_key (p : String → Bool) (members : Members α) (k : String) :
    (members.filter fun m => p m.1).lookup k = if p k then members.lookup k else none := by
  induction members with
  | nil => simp
  | cons m rest ih =>
    obtain ⟨key, v⟩ := m
    by_cases hp : p key = true
    · rw [List.filter_cons_of_pos (by exact hp), lookup_cons, lookup_cons, ih]
      by_cases hk : k = key
      · subst hk
        rw [if_pos rfl, if_pos hp, if_pos rfl]
      · rw [if_neg hk, if_neg hk]
    · rw [List.filter_cons_of_neg (by exact hp), lookup_cons, ih]
      by_cases hk : k = key
      · subst hk
        rw [if_neg hp, if_neg hp]
      · rw [if_neg hk]

/-- A change under one key is read there, and under other keys nothing changes. -/
theorem lookup_adjust (k key : String) (f : α → α) (members : Members α) :
    (adjust key f members).lookup k =
      if k = key then (members.lookup k).map f else members.lookup k := by
  induction members with
  | nil => simp [adjust]
  | cons m rest ih =>
    rw [adjust] at ih ⊢
    rw [List.map_cons, lookup_cons]
    by_cases hm : m.1 = key
    · rw [if_pos hm, lookup_cons, ih]
      by_cases hk : k = m.1
      · simp [hk, hm]
      · simp [hk]
    · rw [if_neg hm, lookup_cons, ih]
      by_cases hk : k = m.1
      · simp [hk, hm]
      · simp [hk]

/-- What is read under a key is a binding of the map. -/
theorem mem_of_lookup {members : Members α} {key : String} {v : α}
    (h : members.lookup key = some v) : (key, v) ∈ members := by
  obtain ⟨before, after, rfl, -⟩ := List.lookup_eq_some_iff.1 h
  exact List.mem_append_right _ List.mem_cons_self

/-- What is read under a key is a value of the map. -/
theorem mem_values_of_lookup {members : Members α} {key : String} {v : α}
    (h : members.lookup key = some v) : v ∈ values members :=
  List.mem_map_of_mem (mem_of_lookup h)

/-! ### Increasing keys -/

instance (members : Members α) : Decidable members.Sorted :=
  inferInstanceAs (Decidable (members.Pairwise fun a b => a.1 < b.1))

/-- Whether a map is in order can be seen from its keys. -/
theorem sorted_of_keys {members : Members α} (names : List String)
    (h : names.Pairwise (· < ·)) (hkeys : keys members = names) : members.Sorted := by
  subst hkeys
  exact List.pairwise_map.1 h

/-- Inserting adds one binding and no other. -/
theorem mem_insert {m : String × α} {key : String} {v : α} {members : Members α}
    (h : m ∈ insert key v members) : m = (key, v) ∨ m ∈ members := by
  induction members with
  | nil => simpa [insert] using h
  | cons first rest ih =>
    rw [insert] at h
    split at h
    · simpa using h
    split at h
    · rcases List.mem_cons.1 h with h | h
      · exact .inl h
      · exact .inr (List.mem_cons_of_mem _ h)
    · rcases List.mem_cons.1 h with h | h
      · exact .inr (h ▸ List.mem_cons_self)
      · exact (ih h).imp_right (List.mem_cons_of_mem _)

/-- What holds of the values of a map and of one more holds of them all. -/
theorem forall_values_insert {Q : α → Prop} {key : String} {v : α} {members : Members α}
    (hv : Q v) (h : ∀ u ∈ values members, Q u) : ∀ u ∈ values (insert key v members), Q u := by
  intro u hu
  obtain ⟨m, hm, rfl⟩ := List.mem_map.1 hu
  rcases mem_insert hm with rfl | hm
  · exact hv
  · exact h _ (List.mem_map_of_mem hm)

/-- A map on top of another holds the members of both and no other. -/
theorem mem_insertAll {m : String × α} {members news : Members α}
    (h : m ∈ insertAll members news) : m ∈ news ∨ m ∈ members := by
  induction news generalizing members with
  | nil => exact .inr h
  | cons first rest ih =>
    rcases ih h with h | h
    · exact .inl (List.mem_cons_of_mem _ h)
    · exact (mem_insert h).imp_left fun h : m = first => h ▸ List.mem_cons_self

theorem sorted_insert {members : Members α} (hs : members.Sorted) (key : String) (v : α) :
    (insert key v members).Sorted := by
  induction members with
  | nil => simp [insert, Sorted]
  | cons first rest ih =>
    obtain ⟨hfirst, hrest⟩ := List.pairwise_cons.1 hs
    rw [insert]
    split
    case isTrue hlt =>
      refine List.pairwise_cons.2 ⟨fun m hm => ?_, hs⟩
      rcases List.mem_cons.1 hm with rfl | hm
      · exact hlt
      · exact String.lt_trans hlt (hfirst m hm)
    case isFalse hlt =>
      split
      case isTrue heq => exact List.pairwise_cons.2 ⟨fun m hm => heq ▸ hfirst m hm, hrest⟩
      case isFalse hne =>
        refine List.pairwise_cons.2 ⟨fun m hm => ?_, ih hrest⟩
        rcases mem_insert hm with rfl | hm
        · exact Decidable.byContradiction fun h =>
            hne (String.le_antisymm (String.not_lt.1 h) (String.not_lt.1 hlt))
        · exact hfirst m hm

/-- A new key is one more. -/
theorem insert_perm {members : Members α} {key : String} (h : ∀ m ∈ members, m.1 ≠ key) (v : α) :
    (insert key v members).Perm ((key, v) :: members) := by
  induction members with
  | nil => exact .refl _
  | cons first rest ih =>
    obtain ⟨hfirst, hrest⟩ := List.forall_mem_cons.1 h
    rw [insert, if_neg (Ne.symm hfirst)]
    split
    · exact .refl _
    · exact ((ih hrest).cons first).trans (.swap ..)

theorem sorted_erase {members : Members α} (hs : members.Sorted) (key : String) :
    (erase key members).Sorted :=
  List.Pairwise.filter _ hs

theorem erase_eq_self {members : Members α} {key : String} (h : ∀ m ∈ members, m.1 ≠ key) :
    erase key members = members :=
  List.filter_eq_self.2 fun m hm => by simpa using h m hm

theorem sorted_insertAll {members : Members α} (hs : members.Sorted) (news : Members α) :
    (insertAll members news).Sorted := by
  induction news generalizing members with
  | nil => exact hs
  | cons m rest ih => exact ih (sorted_insert hs m.1 m.2)

theorem sorted_ofList (bindings : List (String × α)) : (ofList bindings).Sorted :=
  sorted_insertAll List.Pairwise.nil bindings

theorem sorted_mapValues {members : Members α} (hs : members.Sorted) (f : α → β) :
    (mapValues f members).Sorted :=
  List.pairwise_map.2 hs

theorem sorted_adjust {members : Members α} (hs : members.Sorted) (key : String) (f : α → α) :
    (adjust key f members).Sorted := by
  refine List.pairwise_map.2 (List.Pairwise.imp ?_ hs)
  intro m n hlt
  split <;> split <;> exact hlt

/-- Nothing is read under a key that is not bound. -/
theorem lookup_eq_none {members : Members α} {k : String} (h : ∀ m ∈ members, m.1 ≠ k) :
    members.lookup k = none := by
  induction members with
  | nil => rfl
  | cons first rest ih =>
    rw [lookup_cons, if_neg fun he => h first List.mem_cons_self he.symm]
    exact ih fun m hm => h m (List.mem_cons_of_mem _ hm)

/-- Every binding of a map in key order is read back. -/
theorem Sorted.lookup_of_mem {members : Members α} (hs : members.Sorted) {k : String} {v : α}
    (h : (k, v) ∈ members) : members.lookup k = some v := by
  induction members with
  | nil => exact absurd h List.not_mem_nil
  | cons first rest ih =>
    obtain ⟨hfirst, hrest⟩ := List.pairwise_cons.1 hs
    rw [lookup_cons]
    rcases List.mem_cons.1 h with rfl | h
    · exact if_pos rfl
    · rw [if_neg fun he => String.lt_irrefl _ (he ▸ hfirst _ h), ih hrest h]

/-- A map in key order has one binding for a key. -/
theorem Sorted.eq_of_key {members : Members α} (hs : members.Sorted) {m n : String × α}
    (hm : m ∈ members) (hn : n ∈ members) (hkey : m.1 = n.1) : m = n := by
  have hlookup := hs.lookup_of_mem (show (m.1, m.2) ∈ members from hm)
  rw [hkey, hs.lookup_of_mem (show (n.1, n.2) ∈ members from hn)] at hlookup
  exact Prod.ext hkey (Option.some.inj hlookup).symm

theorem Sorted.nodup {members : Members α} (hs : members.Sorted) : members.Nodup := by
  refine List.Pairwise.imp ?_ hs
  rintro m n hlt rfl
  exact String.lt_irrefl _ hlt

/-- **A map in key order is what is read from it.** -/
theorem Sorted.ext {members news : Members α} (hm : members.Sorted) (hn : news.Sorted)
    (h : ∀ k, members.lookup k = news.lookup k) : members = news := by
  induction members generalizing news with
  | nil =>
    cases news with
    | nil => rfl
    | cons n rest => simpa using (h n.1).trans ((lookup_cons ..).trans (if_pos rfl))
  | cons m rest ih =>
    cases news with
    | nil => simpa using ((lookup_cons ..).trans (if_pos rfl)).symm.trans (h m.1)
    | cons n rest' =>
      obtain ⟨hm1, hm2⟩ := List.pairwise_cons.1 hm
      obtain ⟨hn1, hn2⟩ := List.pairwise_cons.1 hn
      have apart {k : String} {first : String × α} {tail : Members α}
          (hlt : k < first.1) (htail : ∀ m ∈ tail, first.1 < m.1) :
          List.lookup k (first :: tail) = none := by
        refine lookup_eq_none fun m' hm' he => ?_
        rcases List.mem_cons.1 hm' with rfl | hm'
        · exact String.lt_irrefl _ (he ▸ hlt)
        · exact String.lt_irrefl _ (he ▸ String.lt_trans hlt (htail m' hm'))
      have hkey : m.1 = n.1 := by
        refine String.le_antisymm (String.not_lt.1 fun hlt => ?_) (String.not_lt.1 fun hlt => ?_)
        · have := h n.1
          rw [apart hlt hm1, lookup_cons, if_pos rfl] at this
          exact absurd this (by simp)
        · have := h m.1
          rw [apart hlt hn1, lookup_cons, if_pos rfl] at this
          exact absurd this (by simp)
      have hvalue : m.2 = n.2 := by
        have := h m.1
        rw [lookup_cons, lookup_cons, if_pos rfl, if_pos hkey] at this
        exact Option.some.inj this
      refine List.cons_eq_cons.2 ⟨Prod.ext hkey hvalue, ih hm2 hn2 fun k => ?_⟩
      by_cases hk : k = m.1
      · rw [lookup_eq_none fun m' hm' he => String.lt_irrefl _ (he ▸ hk ▸ hm1 m' hm'),
          lookup_eq_none fun n' hn' he => String.lt_irrefl _ (he ▸ hk ▸ hkey ▸ hn1 n' hn')]
      · have := h k
        rwa [lookup_cons, lookup_cons, if_neg hk, if_neg (hkey ▸ hk)] at this

/-- A key above all others goes to the end. -/
theorem insert_of_forall_lt {members : Members α} {key : String} {v : α}
    (h : ∀ m ∈ members, m.1 < key) : insert key v members = members ++ [(key, v)] := by
  induction members with
  | nil => rfl
  | cons first rest ih =>
    have hlt : first.1 < key := h first List.mem_cons_self
    have hne : key ≠ first.1 := fun he => String.lt_irrefl _ (he ▸ hlt)
    rw [insert, if_neg (String.lt_asymm hlt), if_neg hne,
      ih fun m hm => h m (List.mem_cons_of_mem _ hm), List.cons_append]

/-- A map above another follows it. -/
theorem Sorted.insertAll_eq {members news : Members α} (hs : news.Sorted)
    (h : ∀ m ∈ members, ∀ n ∈ news, m.1 < n.1) : insertAll members news = members ++ news := by
  induction news generalizing members with
  | nil => exact (List.append_nil _).symm
  | cons n rest ih =>
    obtain ⟨hfirst, hrest⟩ := List.pairwise_cons.1 hs
    have step : insertAll members (n :: rest) = insertAll (insert n.1 n.2 members) rest := rfl
    rw [step, insert_of_forall_lt fun m hm => h m hm n List.mem_cons_self, ih hrest,
      List.append_assoc, List.singleton_append]
    intro m hm n' hn'
    rcases List.mem_append.1 hm with hm | hm
    · exact h m hm n' (List.mem_cons_of_mem _ hn')
    · exact List.mem_singleton.1 hm ▸ hfirst n' hn'

/-- **A list in key order** is the map of its bindings. -/
theorem Sorted.ofList_eq {members : Members α} (hs : members.Sorted) : ofList members = members :=
  hs.insertAll_eq fun _ hm => absurd hm List.not_mem_nil

/-- Bindings put on one after another are put on together. -/
theorem insertAll_append (members news more : Members α) :
    insertAll members (news ++ more) = insertAll (insertAll members news) more :=
  List.foldl_append

/-- What is read from bindings of which no two bind a key to different values. -/
theorem lookup_eq_some_of_unique {bindings : List (String × α)} {key : String} {v : α}
    (h : (key, v) ∈ bindings) (hunique : ∀ u, (key, u) ∈ bindings → u = v) :
    bindings.lookup key = some v := by
  cases hlookup : bindings.lookup key with
  | none => exact absurd (List.lookup_eq_none_iff.1 hlookup _ h) (by simp)
  | some u => rw [hunique u (mem_of_lookup hlookup)]

/-- Such bindings are read before those that they are put on. -/
theorem lookup_insertAll_of_unique {members news : Members α} {key : String} {v : α}
    (h : (key, v) ∈ news) (hunique : ∀ u, (key, u) ∈ news → u = v) :
    (insertAll members news).lookup key = some v := by
  rw [lookup_insertAll, lookup_eq_some_of_unique (List.mem_reverse.2 h) fun u hu =>
    hunique u (List.mem_reverse.1 hu), Option.some_or]

/-- The map of such bindings has them all and no other. -/
theorem mem_ofList_iff {bindings : List (String × α)}
    (hunique : ∀ key u v, (key, u) ∈ bindings → (key, v) ∈ bindings → u = v)
    {m : String × α} : m ∈ ofList bindings ↔ m ∈ bindings := by
  refine ⟨fun h => (mem_insertAll h).resolve_right List.not_mem_nil, fun h => ?_⟩
  exact mem_of_lookup (lookup_insertAll_of_unique h fun u hu => hunique _ _ _ hu h)

/-- A list in key order reads the same from its end. -/
theorem Sorted.lookup_reverse {members : Members α} (hs : members.Sorted) (key : String) :
    members.reverse.lookup key = members.lookup key := by
  rw [← lookup_ofList, hs.ofList_eq]

end Members

/-- Adding a name adds no other. -/
theorem NameSet.mem_insert {n name : String} {names : NameSet} (h : n ∈ insert name names) :
    n = name ∨ n ∈ names := by
  induction names with
  | nil => exact .inl (List.mem_singleton.1 h)
  | cons first rest ih =>
    rw [insert] at h
    split at h
    · exact List.mem_cons.1 h
    split at h
    · exact .inr h
    · rcases List.mem_cons.1 h with rfl | h
      · exact .inr List.mem_cons_self
      · exact (ih h).imp_right (List.mem_cons_of_mem _)

/-- The names of a set after one more is added. -/
theorem NameSet.mem_insert_iff {n name : String} {names : NameSet} :
    n ∈ insert name names ↔ n = name ∨ n ∈ names := by
  refine ⟨mem_insert, fun h => ?_⟩
  induction names with
  | nil => exact List.mem_singleton.2 (h.resolve_right List.not_mem_nil)
  | cons first rest ih =>
    rw [insert]
    split
    · exact List.mem_cons.2 h
    split
    · rename_i hname
      rcases h with rfl | h
      · exact hname ▸ List.mem_cons_self
      · exact h
    · rcases h with rfl | h
      · exact List.mem_cons_of_mem _ (ih (.inl rfl))
      · exact (List.mem_cons.1 h).elim (fun h => h ▸ List.mem_cons_self)
          fun h => List.mem_cons_of_mem _ (ih (.inr h))

/-- **The set of a list** has the names of the list. -/
theorem NameSet.mem_ofList {n : String} {names : List String} :
    n ∈ ofList names ↔ n ∈ names := by
  suffices ∀ acc : NameSet, n ∈ names.foldl (fun acc n => insert n acc) acc ↔
      n ∈ acc ∨ n ∈ names by
    simpa [ofList] using this []
  induction names with
  | nil => simp
  | cons name rest ih =>
    intro acc
    rw [List.foldl_cons, ih, mem_insert_iff, List.mem_cons, or_assoc, or_left_comm]

/-- A set of names is in order. -/
theorem NameSet.sorted_insert {names : NameSet} (hs : names.Pairwise (· < ·)) (name : String) :
    (insert name names).Pairwise (· < ·) := by
  induction names with
  | nil => exact List.pairwise_singleton _ _
  | cons first rest ih =>
    obtain ⟨hfirst, hrest⟩ := List.pairwise_cons.1 hs
    rw [insert]
    split
    case isTrue hlt =>
      refine List.pairwise_cons.2 ⟨fun n hn => ?_, hs⟩
      rcases List.mem_cons.1 hn with rfl | hn
      · exact hlt
      · exact String.lt_trans hlt (hfirst n hn)
    split
    case isFalse.isTrue => exact hs
    case isFalse.isFalse hlt hne =>
      refine List.pairwise_cons.2 ⟨fun n hn => ?_, ih hrest⟩
      rcases mem_insert hn with rfl | hn
      · exact Decidable.byContradiction fun h =>
          hne (String.le_antisymm (String.not_lt.1 h) (String.not_lt.1 hlt))
      · exact hfirst n hn

/-- The set of a list has each name once. -/
theorem NameSet.nodup_ofList (names : List String) : (ofList names).Nodup := by
  have hsorted : (ofList names).Pairwise (· < ·) :=
    List.foldlRecOn (motive := fun acc : NameSet => acc.Pairwise (· < ·)) names _ .nil
      fun _ hs name _ => sorted_insert hs name
  refine hsorted.imp ?_
  rintro n _ hlt rfl
  exact String.lt_irrefl _ hlt

end ObjectEngine
