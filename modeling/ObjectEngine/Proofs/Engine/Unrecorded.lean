import ObjectEngine.Proofs.Engine.IndexCalls

/-!
# Indexes that are left unrecorded

An index is written twice: it is created in the store, and then recorded in the schema of its class.
Whether a class has an index already is judged by the store alone. So a call that has created an
index and fails to record it abandons the index (`Engine.Turn.Abandons`), and no later call for the
same index repairs that, for they all find it there.

Between the turns of an engine, an index of the store is recorded unless it has been abandoned and
has been in the store ever since (`Engine.recorded_iff_not_abandoned`): no other call that fails on
its way does harm, since an index goes from the store first. So a call that answers that the index
is there leaves store and schema in agreement unless this has happened before
(`Engine.agrees_iff_not_abandoned`).
-/

namespace ObjectEngine

namespace Indexing

variable {whole stored : ClassSchema} {indexes : Members StoreIndex} {s t : Store}
  {index : IndexDescriptor}

/-! ### Agreement -/

/-- **The store and the schema agree on an index**: the store has an index of its name and
definition, and the schema that is read records an index of the name that has this definition in the
store. -/
def Agrees (className : String) (index : IndexDescriptor) (s : Store) : Prop :=
  ∃ schema i recorded, Catalog.recorded s className = .ok (some schema) ∧
    (s.collection className).indexes.lookup index.name = some i ∧
    i.sameDefinition (storeIndex schema index) = true ∧
    schema.indexes.lookup index.name = some recorded ∧
    (storeIndex schema recorded).sameDefinition (storeIndex schema index) = true

/-- **An index that is there** is agreed on just if it is recorded. -/
theorem Shows.agrees_iff (h : Shows whole stored indexes s) (hwhole : whole.Regular)
    {i : StoreIndex} (hi : indexes.lookup index.name = some i)
    (hsame : i.sameDefinition (storeIndex whole index) = true) :
    Agrees whole.className index s ↔ Recorded whole.className index.name s := by
  obtain ⟨schema, hrecorded, hnarrows, -⟩ := h.recorded_eq hwhole
  rw [StoreIndex.sameDefinition_iff] at hsame
  constructor
  · rintro ⟨read, i', recorded, hread, hi', -, hindex, hdefinition⟩
    obtain rfl := Option.some.inj (Except.ok.inj (hread.symm.trans hrecorded))
    obtain rfl := Option.some.inj ((h.listed ▸ hi').symm.trans hi)
    refine ⟨read, i', recorded, hread, hi', hindex, ?_⟩
    rw [StoreIndex.sameDefinition_iff, hnarrows.storeIndex_eq index] at hdefinition
    simp [StoreIndex.sameDefinition_iff, hsame, hdefinition]
  · rintro ⟨read, i', recorded, hread, hi', hindex, hdefinition⟩
    obtain rfl := Option.some.inj (Except.ok.inj (hread.symm.trans hrecorded))
    obtain rfl := Option.some.inj ((h.listed ▸ hi').symm.trans hi)
    rw [StoreIndex.sameDefinition_iff] at hdefinition
    refine ⟨read, i', recorded, hread, hi', ?_, hindex, ?_⟩
    · rw [hnarrows.storeIndex_eq index, StoreIndex.sameDefinition_iff]
      exact hsame
    · simp [StoreIndex.sameDefinition_iff, hnarrows.storeIndex_eq index, hsame, hdefinition]

/-- **A class in agreement**: its record stores the schema, no index is on a relation, and every
index of the store is recorded. -/
structure InAgreement (whole : ClassSchema) (s : Store) : Prop where
  keyed : Catalog.Keyed s
  stored : ∃ r, Catalog.record? s whole.className = some r ∧ Catalog.Stores r whole
  unrelated (m : String × IndexDescriptor) : m ∈ whole.indexes → ∀ f ∈ m.2.fields,
    isRelationField whole f.1 = false
  sorted : (s.collection whole.className).indexes.Sorted
  named (m : String × StoreIndex) : m ∈ (s.collection whole.className).indexes → m.2.name = m.1
  recorded (name : String) : Present whole.className name s → Recorded whole.className name s

theorem InAgreement.standing (h : InAgreement whole s) (hwhole : whole.Regular) :
    Standing whole s := by
  obtain ⟨r, hr, hstores⟩ := h.stored
  exact ⟨whole, _, ⟨h.keyed, ⟨r, hr, hstores.retains hwhole h.unrelated⟩, rfl⟩, h.sorted, h.named⟩

/-- A store that has the indexes of a schema, and the record of it. -/
def holding (whole : ClassSchema) : World where
  store := { collections := [
    (whole.className, { indexes := Members.mapValues (storeIndex whole) whole.indexes }),
    (Catalog.collection, { records := [(whole.className, Catalog.toRecord whole)] })] }

/-- **Indexes and their records** that are made of one schema agree. -/
theorem inAgreement_holding (hwhole : whole.Regular)
    (hunrelated : ∀ m ∈ whole.indexes, ∀ f ∈ m.2.fields, isRelationField whole f.1 = false) :
    InAgreement whole (holding whole).store := by
  have hstores := Catalog.stores_toRecord hwhole.storable
  have hne : Catalog.collection ≠ whole.className :=
    Catalog.collection_ne_of_isClassName hwhole.valid
  have hindexes : ((holding whole).store.collection whole.className).indexes =
      Members.mapValues (storeIndex whole) whole.indexes := by
    simp [holding, Store.collection, Store.collection?]
  have hschemas : ((holding whole).store.collection Catalog.collection).records =
      [(whole.className, Catalog.toRecord whole)] := by
    simp [holding, Store.collection, Store.collection?, List.lookup_cons, beq_eq_false_iff_ne.2 hne]
  have hkeyed : Catalog.Keyed (holding whole).store := keyed_of_one hschemas hstores.id
  have hrecord : Catalog.record? (holding whole).store whole.className =
      some (Catalog.toRecord whole) := by
    rw [Catalog.record?, Store.record?, hschemas]
    simp
  have hshows : Shows whole whole (Members.mapValues (storeIndex whole) whole.indexes)
      (holding whole).store :=
    ⟨hkeyed, ⟨_, hrecord, hstores.retains hwhole hunrelated⟩, hindexes⟩
  refine ⟨hkeyed, ⟨_, hrecord, hstores⟩, hunrelated, ?_, fun m hm => ?_, fun name hpresent => ?_⟩
  · rw [hindexes]
    exact Members.sorted_mapValues hwhole.sorted_indexes _
  · rw [hindexes] at hm
    obtain ⟨m, hmem, rfl⟩ := List.mem_map.1 hm
    exact hwhole.name m hmem
  · obtain ⟨i, hi⟩ := hshows.present_iff.1 hpresent
    rw [Members.lookup_mapValues] at hi
    obtain ⟨index, hindex, rfl⟩ := Option.map_eq_some_iff.1 hi
    refine (hshows.recorded_iff hwhole).2 ⟨_, index, ?_, hindex, StoreIndex.sameDefinition_self _⟩
    rw [Members.lookup_mapValues, hindex]
    rfl

end Indexing

namespace Engine

open Indexing

/-! ### Turns about indexes -/

/-- **A call about the indexes of a class**: an index is ensured or dropped whose name has no full
stop, or fields are deleted that are no pointers. -/
inductive SchemaCall.AboutIndexes (whole : ClassSchema) : SchemaCall → Prop
  | ensureIndex {index : IndexDescriptor} (hname : '.' ∉ index.name.toList) :
      AboutIndexes whole (.ensureIndex whole.className index)
  | dropIndex {name : String} (hname : '.' ∉ name.toList) :
      AboutIndexes whole (.dropIndex whole.className name)
  | deleteFields {names : List String}
      (hpointers : ∀ name ∈ names, ∀ target, whole.fieldType? name ≠ some (.pointer target)) :
      AboutIndexes whole (.deleteFields whole.className names)

/-- **A turn abandons an index**: it fails to ensure it, where the store has it now and had it not
before, and the schema does not record it. -/
structure Turn.Abandons (config : Config) (className name : String) (turn : Turn)
    (state : SchemaCache × World) : Prop where
  call : ∃ index, index.name = name ∧ turn.call = .ensureIndex className index
  failed : ∃ e, (turn.take config state).1 = .error e
  new : ¬Present className name state.2.store
  created : Present className name (turn.take config state).2.2.store
  unrecorded : ¬Recorded className name (turn.take config state).2.2.store

/-- **An index is abandoned** by some turn, and has been in the store ever since. -/
def Abandoned (config : Config) (className name : String) (turns : List Turn)
    (state : SchemaCache × World) : Prop :=
  ∃ before turn later, turns = before ++ turn :: later ∧
    turn.Abandons config className name (takeAll config before state) ∧
    ∀ since rest, later = since ++ rest →
      Present className name (takeAll config (before ++ turn :: since) state).2.store

section

variable {config : Config} {whole : ClassSchema} {className name : String}
  {state : SchemaCache × World} {turn : Turn} {turns : List Turn}

theorem present_of_abandoned (h : Abandoned config className name turns state) :
    Present className name (takeAll config turns state).2.store := by
  obtain ⟨before, turn, later, rfl, -, hpresent⟩ := h
  exact hpresent later [] (List.append_nil later).symm

/-- **One turn further**: an index is abandoned by the last turn, or by one before and is still
there. -/
theorem abandoned_append_iff : Abandoned config className name (turns ++ [turn]) state ↔
    turn.Abandons config className name (takeAll config turns state) ∨
      Abandoned config className name turns state ∧
        Present className name (takeAll config (turns ++ [turn]) state).2.store := by
  constructor
  · intro h
    have hlast := present_of_abandoned h
    obtain ⟨before, turn', later, hturns, habandons, hpresent⟩ := h
    rcases List.eq_nil_or_concat later with rfl | ⟨since, last, rfl⟩
    · obtain ⟨rfl, hturn⟩ := List.append_inj' hturns rfl
      obtain rfl := (List.cons.inj hturn).1
      exact .inl habandons
    · rw [List.concat_eq_append, ← List.cons_append, ← List.append_assoc] at hturns
      obtain ⟨rfl, -⟩ := List.append_inj' hturns rfl
      exact .inr ⟨⟨before, turn', since, rfl, habandons, fun since' rest he =>
        hpresent since' (rest ++ [last]) (by rw [List.concat_eq_append, he, List.append_assoc])⟩,
        hlast⟩
  · rintro (habandons | ⟨⟨before, turn', later, rfl, habandons, hpresent⟩, hlast⟩)
    · refine ⟨turns, turn, [], rfl, habandons, fun since rest he => ?_⟩
      obtain ⟨rfl, -⟩ := List.append_eq_nil_iff.1 he.symm
      rw [takeAll_append]
      exact habandons.created
    · refine ⟨before, turn', later ++ [turn], by simp, habandons, fun since rest he => ?_⟩
      rcases List.eq_nil_or_concat rest with rfl | ⟨rest, last, rfl⟩
      · rw [List.append_nil] at he
        simpa [← he] using hlast
      · rw [List.concat_eq_append, ← List.append_assoc] at he
        exact hpresent since rest (List.append_inj' he rfl).1

/-! ### What a turn leaves -/

/-- **At rest**, the indexes of a class stand in the store, and what is cached of the class narrows
its whole schema. -/
structure AtRest (whole : ClassSchema) (state : SchemaCache × World) : Prop where
  standing : Standing whole state.2.store
  only : state.1.HoldsOnly whole.className (·.Narrows whole)

/-- A turn leaves what the work of its call leaves. -/
theorem Turn.ends_guarded (config : Config) {α : Type} {work : Action α}
    {Q E : SchemaCache → Store → Prop}
    (hcall : turn.call.work config = do let _ ← guarded config work)
    (hwork : work.Leaves (fun _ => Q) E state.1 state.2.store) :
    (turn.take config state).1.Ends
      (fun _ => Q (turn.take config state).2.1 (turn.take config state).2.2.store)
      (E (turn.take config state).2.1 (turn.take config state).2.2.store) := by
  refine Turn.ends_take config (Q := fun _ => Q) ?_
  rw [hcall]
  exact .bind (hwork.guarded.mono (fun _ _ _ ht => .pure ht) fun _ _ ht => ht)

variable {stored : ClassSchema} {indexes : Members StoreIndex}

section

variable (config) (h : Stands whole stored indexes state.2.store)
  (honly : state.1.HoldsOnly whole.className (·.Narrows whole)) (hwhole : whole.Regular)

include h honly hwhole

/-- **A turn that ensures an index.** -/
theorem Turn.ends_ensureIndex {index : IndexDescriptor} (hname : '.' ∉ index.name.toList)
    (hcall : turn.call = .ensureIndex whole.className index) :
    (turn.take config state).2.1.HoldsOnly whole.className (·.Narrows whole) ∧
      (turn.take config state).1.Ends
        (fun _ => Ensured whole stored indexes index (turn.take config state).2.2.store)
        (Halted whole stored indexes index (turn.take config state).2.2.store) := by
  have hends := turn.ends_guarded config (by rw [hcall]; rfl)
    (leaves_ensureIndex h hwhole honly hname)
  exact ⟨(hends.mono (fun _ h => h.1) And.left).always, hends.mono (fun _ h => h.2) And.right⟩

/-- A turn that takes indexes away at most. -/
theorem Turn.carried_of_prunes {α : Type} {work : Action α}
    (hcall : turn.call.work config = do let _ ← guarded config work)
    (hwork : work.Leaves (fun _ => PrunedFrom state.1 whole stored indexes)
      (PrunedFrom state.1 whole stored indexes) state.1 state.2.store) :
    AtRest whole (turn.take config state).2 ∧ ∀ name,
      Carried whole.className name state.2.store (turn.take config state).2.2.store := by
  obtain ⟨hcache, hpruned⟩ := (turn.ends_guarded config hcall hwork).always
  obtain ⟨hstanding, hcarried⟩ := h.carried_of_pruned hwhole hpruned
  refine ⟨⟨hstanding, ?_⟩, hcarried⟩
  rcases hcache with hcache | hcache
  · exact hcache ▸ honly
  · exact hcache ▸ honly.apply _

end

/-- **After a turn** about indexes, an index that the store has is carried over, or it is new: then
it is recorded, or the turn has abandoned it. -/
theorem AtRest.take (config : Config) (h : AtRest whole state) (hwhole : whole.Regular)
    (hcall : turn.call.AboutIndexes whole) : AtRest whole (turn.take config state).2 ∧
      ∀ name, Present whole.className name (turn.take config state).2.2.store →
        Present whole.className name state.2.store ∧
            (Recorded whole.className name (turn.take config state).2.2.store ↔
              Recorded whole.className name state.2.store) ∨
          ¬Present whole.className name state.2.store ∧
            (Recorded whole.className name (turn.take config state).2.2.store ∨
              turn.Abandons config whole.className name state) := by
  obtain ⟨⟨stored, indexes, hstands⟩, honly⟩ := h
  generalize hcalleq : turn.call = call at hcall
  cases hcall with
  | @ensureIndex index hname =>
    obtain ⟨honly', hends⟩ := turn.ends_ensureIndex config hstands honly hwhole hname hcalleq
    cases houtcome : (turn.take config state).1 with
    | ok a =>
      rw [houtcome] at hends
      obtain ⟨hstanding, hcarried⟩ := hstands.carried_of_ensured hwhole hends
      refine ⟨⟨hstanding, honly'⟩, fun name hpresent => ?_⟩
      exact (hcarried name).imp (· hpresent) fun h => ⟨h.1, .inl h.2⟩
    | error e =>
      rw [houtcome] at hends
      obtain ⟨hstanding, hcarried⟩ := hstands.carried_of_halted hwhole hends
      refine ⟨⟨hstanding, honly'⟩, fun name hpresent => ?_⟩
      refine (hcarried name).imp (· hpresent) fun ⟨hnew, hname⟩ => ⟨hnew, ?_⟩
      rw [or_iff_not_imp_left]
      exact fun hunrecorded =>
        ⟨⟨index, hname.symm, hcalleq⟩, ⟨e, houtcome⟩, hnew, hpresent, hunrecorded⟩
  | dropIndex hname =>
    obtain ⟨hrest, hcarried⟩ := turn.carried_of_prunes config hstands honly hwhole
      (by rw [hcalleq]; rfl) (leaves_dropIndex hstands hwhole hname)
    exact ⟨hrest, fun name hpresent => .inl (hcarried name hpresent)⟩
  | deleteFields hpointers =>
    obtain ⟨hrest, hcarried⟩ := turn.carried_of_prunes config hstands honly hwhole
      (by rw [hcalleq]; rfl) (leaves_deleteFields_pruned hstands hwhole hpointers)
    exact ⟨hrest, fun name hpresent => .inl (hcarried name hpresent)⟩

/-! ### Runs -/

/-- **Indexes that are there are recorded** unless they have been abandoned: so it is at every rest
of a run that starts in agreement. -/
theorem recorded_iff_not_abandoned (config : Config) (hwhole : whole.Regular) {w : World}
    (hw : InAgreement whole w.store) (ttlMs : Nat)
    (hturns : ∀ turn ∈ turns, turn.call.AboutIndexes whole) :
    AtRest whole (takeAll config turns ({ ttlMs }, w)) ∧ ∀ name,
      Present whole.className name (takeAll config turns ({ ttlMs }, w)).2.store →
        (Recorded whole.className name (takeAll config turns ({ ttlMs }, w)).2.store ↔
          ¬Abandoned config whole.className name turns ({ ttlMs }, w)) := by
  induction turns using List.reverseRecOn with
  | nil =>
    refine ⟨⟨hw.standing hwhole, SchemaCache.holdsOnly_empty ttlMs _ _⟩, fun name hpresent => ?_⟩
    have hnone : ¬Abandoned config whole.className name [] ({ ttlMs }, w) := by
      rintro ⟨before, turn, later, he, -⟩
      exact absurd he (by simp)
    exact iff_of_true (hw.recorded name hpresent) hnone
  | append_singleton turns turn ih =>
    obtain ⟨hrest, hiff⟩ := ih fun turn hturn => hturns turn (List.mem_append_left _ hturn)
    obtain ⟨hrest', hnext⟩ := hrest.take config hwhole
      (hturns turn (List.mem_append_right _ List.mem_cons_self))
    simp only [abandoned_append_iff, takeAll_append]
    refine ⟨hrest', fun name hpresent => ?_⟩
    rw [not_or, iff_true_intro hpresent, and_true]
    rcases hnext name hpresent with ⟨hbefore, hcarried⟩ | ⟨hnew, hrecorded⟩
    · rw [and_iff_right fun habandons => habandons.new hbefore, ← hiff name hbefore]
      exact hcarried
    · -- what was abandoned before was there before
      rw [and_iff_left fun habandoned => hnew (present_of_abandoned habandoned)]
      exact ⟨fun hrecorded habandons => habandons.unrecorded hrecorded,
        fun hnone => hrecorded.resolve_right hnone⟩

/-- **A call that answers that an index is there** leaves the store and the schema in agreement on
it, unless the index has been abandoned and has been there ever since: so it is after every run of
calls about the indexes of a class, under any faults, that starts in agreement. -/
theorem agrees_iff_not_abandoned (config : Config) (hwhole : whole.Regular) {w : World}
    (hw : InAgreement whole w.store) (ttlMs : Nat)
    (hturns : ∀ turn ∈ turns, turn.call.AboutIndexes whole) {index : IndexDescriptor}
    (hname : '.' ∉ index.name.toList) (hcall : turn.call = .ensureIndex whole.className index)
    (hok : (turn.take config (takeAll config turns ({ ttlMs }, w))).1 = .ok ()) :
    Agrees whole.className index (takeAll config (turns ++ [turn]) ({ ttlMs }, w)).2.store ↔
      ¬Abandoned config whole.className index.name turns ({ ttlMs }, w) := by
  obtain ⟨⟨⟨stored, indexes, hstands⟩, honly⟩, hiff⟩ :=
    recorded_iff_not_abandoned config hwhole hw ttlMs hturns
  obtain ⟨-, hends⟩ := turn.ends_ensureIndex config hstands honly hwhole hname hcall
  rw [hok] at hends
  rw [takeAll_append]
  cases hends with
  | @found i hi hsame ht =>
    have hpresent := hstands.present_iff.2 ⟨i, hi⟩
    rw [← hiff _ hpresent, hstands.recorded_iff hwhole, ← ht.recorded_iff hwhole]
    exact ht.agrees_iff hwhole hi hsame
  | created hnew ht =>
    refine iff_of_true ?_ fun habandoned =>
      hstands.not_present hnew (present_of_abandoned habandoned)
    exact (ht.agrees_iff hwhole (by rw [Members.lookup_insert, if_pos rfl])
      (StoreIndex.sameDefinition_self _)).2 (ht.recorded_of_insert hwhole)

end

/-! ### An index that is ensured again -/

/-- The class of notes, with a number. -/
def numberedNote : ClassSchema :=
  { Catalog.note with fields := Members.insert "n" .number Catalog.note.fields }

theorem regular_numberedNote : numberedNote.Regular :=
  Catalog.regular_note.insert_field (by decide) (by decide) .number

/-- A call under a fault of the store's updates. -/
def failingToUpdate (call : SchemaCall) : Turn where
  call := call
  faults _ _ := [⟨"update", .store 91 "shutdown in progress", 1⟩]

/-- The number of a note is indexed. -/
def indexing : Turn where
  call := .ensureIndex "N" (.single "n")

/-- Where an index is dropped and its record is not, to ensure it again creates both anew. -/
theorem agrees_iff_not_abandoned_dropped :
    (indexing.take {} (takeAll {} [failingToUpdate (.dropIndex "N" "n_1")]
      ({ ttlMs := 5000 }, holding (numberedNote.record (.single "n"))))).1 = .ok () ∧
    Agrees "N" (.single "n") (takeAll {} ([failingToUpdate (.dropIndex "N" "n_1")] ++ [indexing])
      ({ ttlMs := 5000 }, holding (numberedNote.record (.single "n")))).2.store := by
  have hregular : (numberedNote.record (.single "n")).Regular :=
    regular_numberedNote.record (by decide)
  have hok : (indexing.take {} (takeAll {} [failingToUpdate (.dropIndex "N" "n_1")]
      ({ ttlMs := 5000 }, holding (numberedNote.record (.single "n"))))).1 = .ok () := by
    decide +kernel
  refine ⟨hok, (agrees_iff_not_abandoned {} hregular (inAgreement_holding hregular (by decide)) 5000
    (List.forall_mem_singleton.2 (.dropIndex (by decide))) (by decide) rfl hok).2 ?_⟩
  rintro ⟨before, turn, later, he, habandons, -⟩
  obtain ⟨index, -, hcall⟩ := habandons.call
  obtain ⟨rfl, rfl⟩ : before = [] ∧ failingToUpdate (.dropIndex "N" "n_1") = turn := by
    cases before <;> simp_all
  exact absurd hcall (by simp [failingToUpdate])

/-- **A call that answers that an index is there does not always leave it recorded**: where the
index has been created and its record could not be written, to ensure it again changes nothing. -/
theorem not_agrees_unrecorded :
    ¬∀ (config : Config) (whole : ClassSchema) (w : World) (ttlMs : Nat) (turns : List Turn)
      (turn : Turn) (index : IndexDescriptor), whole.Regular → InAgreement whole w.store →
      (∀ turn ∈ turns, turn.call.AboutIndexes whole) → '.' ∉ index.name.toList →
      turn.call = .ensureIndex whole.className index →
      (turn.take config (takeAll config turns ({ ttlMs }, w))).1 = .ok () →
      Agrees whole.className index (takeAll config (turns ++ [turn]) ({ ttlMs }, w)).2.store := by
  intro h
  obtain ⟨schema, i, recorded, hread, -, -, hindex, -⟩ :=
    h {} numberedNote (holding numberedNote) 5000 [failingToUpdate indexing.call] indexing
      (.single "n") regular_numberedNote (inAgreement_holding regular_numberedNote (by decide))
      (List.forall_mem_singleton.2 (.ensureIndex (by decide))) (by decide) rfl (by decide +kernel)
  have hnone : (Catalog.recorded (takeAll {} ([failingToUpdate indexing.call] ++ [indexing])
      ({ ttlMs := 5000 }, holding numberedNote)).2.store numberedNote.className).toOption.join.any
        (fun schema => (schema.indexes.lookup (IndexDescriptor.single "n").name).isSome) =
          false := by
    decide +kernel
  rw [hread] at hnone
  exact absurd hnone (by simp [Except.toOption, hindex])

end Engine

end ObjectEngine
