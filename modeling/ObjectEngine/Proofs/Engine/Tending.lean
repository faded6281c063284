import ObjectEngine.Proofs.Engine.Relating

/-!
# Writes on relations

Where no fault is due and the join collections of a class are bound to it (`Store.Tended`), a
planned write keeps them so (`Write.tended_run`), and does to the relations what `Write.acts` tells
of the write and its outcome (`Write.tracks_run`): an insertion creates an object with an empty
relation, an update edits the relations of the objects that it selects, and a deletion deletes the
relations of those.
-/

namespace ObjectEngine

/-! ### Planned writes -/

/-- **A store whose relations are tended**: no fault is due, objects have their ids, and the join
collections of the class are bound to it. -/
structure Store.Tended (C : String) (fields : List String) (s : Store) : Prop where
  quiet : s.Quiet
  wellFormed : s.WellFormed
  identified : s.Identified
  bound (f : String) : f ∈ fields → s.Bound C f

/-- The ids that a planned update adds to a relation field and removes from it, in order. -/
def Plan.UpdatePlan.edits (plan : UpdatePlan) (f : String) : List (List String × List String) :=
  (plan.relations.filter fun e => e.field = f).map fun e => (e.add, e.remove)

theorem Store.Tended.id_of_mem {C : String} {fields : List String} {s : Store}
    (h : s.Tended C fields) (hC : isClassName C = true) :
    ∀ m ∈ (s.collection C).records, m.2.id? = some m.1 := fun m hm =>
  h.identified C hC m.1 m.2 ((h.wellFormed.sorted C).lookup_of_mem hm)

namespace Write

/-- The ids of the records that a predicate selects, or of the first of them. -/
def selected (s : Store) (name : String) (p : Predicate) (many : Bool) : List String :=
  (Store.matchingIds (!many) p (s.collection name).records).toOption.getD []

/-- **What a write does to a relation** of class `C`, from its outcome and the edits that it makes
of the relation. -/
def acts (C : String) (edits : List (List String × List String)) (s : Store) (write : Write)
    (outcome : Outcome WriteResult) : List RelationAct :=
  if write.collection = C then
    match write, outcome with
    | .insert .., .ok (.created id) => [.create id]
    | .update name p _ many, .ok _ =>
      (selected s name p many).flatMap fun owner => edits.map fun e => .edit owner e.1 e.2
    | .upsert .., .ok (.upserted _ id _) => id.toList.map .create
    | .delete name p _, .ok _ => (selected s name p true).map .delete
    | _, _ => []
  else []

/-- **A write made for the relations of a class**: an update of objects of the class edits these
relations as `edits` tells, and a deletion of objects deletes all of them. -/
def Fits (C : String) (fields : List String) (edits : String → List (List String × List String)) :
    Write → Prop
  | .update name _ plan _ => name = C → (∀ e ∈ plan.relations, e.field ∈ fields) ∧
    ∀ f ∈ fields, plan.edits f = edits f
  | .delete name _ relationFields => name = C → relationFields = fields
  | _ => True

/-- **What an update of records leaves**: other collections as they are, and the same objects. -/
structure Rewrites (name : String) (s t : Store) : Prop where
  quiet : t.Quiet
  wellFormed : t.WellFormed
  advances : Store.Advances s t
  other (n : String) : n ≠ name → t.collection n = s.collection n
  same (k : String) : (t.record? name k).isSome = (s.record? name k).isSome

variable {s t : Store} {w v : World} {name : String} {p : Predicate}

/-- A call that rewrites records, or none. -/
theorem Rewrites.run (h : Rewrites name s t) {c : Store.Call}
    (hother : ∀ n, n ≠ name → (t.run c).store.collection n = t.collection n)
    (hsame : ∀ k, ((t.run c).store.record? name k).isSome = (t.record? name k).isSome) :
    Rewrites name s (t.run c).store :=
  have hadvances := h.quiet.run_advances c
  ⟨h.quiet.advances hadvances, h.wellFormed.run c, h.advances.trans hadvances,
    fun n hn => (hother n hn).trans (h.other n hn), fun k => (hsame k).trans (h.same k)⟩

/-- The update itself changes no set of objects. -/
theorem rewrites_updateRecords (hs : w.store.Quiet) (hwf : w.store.WellFormed) (edit : Edit)
    (many : Bool) :
    Rewrites name w.store ((updateRecords name p edit many none).run.run w).2.store := by
  have hrewrite {c : Store.Call} (hwrites : c.Writes) (hc : c.collection = name)
      (hchanges : ∀ t : Store, ∀ w ∈ t.changes c, w.before.isSome ∧ w.after.isSome) :
      StoreAction.Ensures (Rewrites name w.store) (fun _ => True) (Program.call c) :=
    .call fun t ht => ⟨ht.run (fun n hn => Store.run_collection_of_writes hwrites (hc ▸ hn) t)
      (Store.isSome_record?_run ht.wellFormed hwrites (hchanges t) name), fun _ _ => trivial⟩
  have hensures : (updateRecords name p edit many none).Ensures (Rewrites name w.store)
      fun _ => True := by
    refine .ite (fun _ => ?_) fun _ => .ite (fun _ => ?_) fun _ => ?_
    · refine .bind (.call fun t ht => ⟨?_, fun _ _ => trivial⟩) fun _ _ => .pure trivial
      have hsame := Store.sameContent_count t name p none none
      exact ht.run (fun n _ => hsame.collection n) fun k => by rw [hsame.record?]
    · exact .bind (hrewrite trivial rfl fun t w hw => Store.isSome_of_mem_rewrites hw)
        fun _ _ => .pure trivial
    · exact .bind (hrewrite trivial rfl fun t w hw => Store.isSome_of_mem_rewrites hw)
        fun _ _ => .pure trivial
  exact (Program.Ensures.run hensures ⟨hs, hwf, .refl _, fun _ _ => rfl, fun _ => rfl⟩).1

theorem acts_error (C : String) (edits : List (List String × List String)) (s : Store)
    (write : Write) (e : EngineError) : write.acts C edits s (.error e) = [] := by
  cases write <;> simp [acts]

variable {C : String} {fields : List String} {edits : String → List (List String × List String)}

/-- Writes on other classes do nothing to the relations of a class. -/
theorem tracks_other {write : Write} (h : w.store.Tended C fields) (hC : isClassName C = true)
    (hclass : isClassName write.collection = true) (hne : write.collection ≠ C) :
    Store.Tracks C fields (fun f => write.acts C (edits f) w.store
      ((write.run none).run.run w).1) w.store ((write.run none).run.run w).2.store := by
  have hacts (f : String) (r : Outcome WriteResult) : write.acts C (edits f) w.store r = [] :=
    if_neg hne
  simp only [hacts]
  have hobjects : ((write.run none).run.run w).2.store.collection C = w.store.collection C :=
    write.collection_run hne.symm
      (fun field => (Join.collection_ne_of_isClassName hC field write.collection).symm) w
  refine .of_objects h.bound (h.quiet.advances_run _) (fun f _ => ?_) fun o => by
    rw [Store.record?, hobjects, Store.record?]
  refine write.collection_run (Join.collection_ne_of_isClassName hclass f C) (fun field heq => ?_) w
  exact hne (Join.class_of_collection hC hclass heq).symm

/-- An update of records, and of the relations of some owners. -/
def updateOwners (name : String) (p : Predicate) (plan : Plan.UpdatePlan) (many : Bool)
    (owners : List String) : StoreAction WriteResult := do
  let (matched, record) ← updateRecords name p plan.edit many none
  for owner in owners do
    for e in plan.relations do
      Join.apply name owner e none
  return .updated matched record

/-- An update looks for the owners first, if it edits relations. -/
theorem run_update (name : String) (p : Predicate) (plan : Plan.UpdatePlan) (many : Bool) :
    (Write.update name p plan many).run none =
      if plan.relations.isEmpty then updateOwners name p plan many []
      else matchingIds name p (if many then none else some 1) none >>=
        updateOwners name p plan many := by
  simp only [Write.run]
  split <;> rfl

/-- **An update edits the relations of its owners**, unless it fails. -/
theorem tracks_updateOwners (hC : isClassName C = true) (hs : w.store.Quiet)
    (hwf : w.store.WellFormed) (h : ∀ f ∈ fields, w.store.Bound C f) {plan : Plan.UpdatePlan}
    (hfields : ∀ e ∈ plan.relations, e.field ∈ fields) {owners : List String}
    (howners : ∀ owner ∈ owners, (w.store.record? C owner).isSome) (p : Predicate) (many : Bool) :
    (∃ e v, (updateOwners C p plan many owners).run.run w = (.error e, v) ∧
      Store.Tracks C fields (fun _ => []) w.store v.store) ∨
    ∃ matched record v,
      (updateOwners C p plan many owners).run.run w = (.ok (.updated matched record), v) ∧
      Store.Tracks C fields (fun f => owners.flatMap (Plan.RelationEdit.acts plan.relations f))
        w.store v.store := by
  have hrewrites : Rewrites C w.store ((updateRecords C p plan.edit many none).run.run w).2.store :=
    rewrites_updateRecords hs hwf plan.edit many
  have htracks := Store.Tracks.of_objects h hrewrites.advances
    (fun f _ => hrewrites.other _ (Join.collection_ne_of_isClassName hC f C)) hrewrites.same
  rcases hrun : (updateRecords C p plan.edit many none).run.run w with ⟨e | ⟨matched, record⟩, v⟩ <;>
    rw [hrun] at hrewrites htracks
  · exact .inl ⟨e, v, by rw [updateOwners, StoreAction.run_bind, hrun], htracks⟩
  · obtain ⟨u, hedits, hfollows⟩ := Join.follows_owners hC hrewrites.quiet htracks.bound hfields
      fun owner (ho : owner ∈ owners) => (hrewrites.same owner).trans (howners owner ho)
    refine .inr ⟨matched, record, u, ?_, htracks.trans hfollows.toTracks⟩
    refine StoreAction.run_bind_eq_ok.2 ⟨(matched, record), v, hrun, ?_⟩
    exact StoreAction.run_bind_eq_ok.2 ⟨⟨⟩, u, hedits, rfl⟩

/-- A removal of objects, and of the edges of some owners. -/
def deleteOwners (name : String) (p : Predicate) (relationFields owners : List String) :
    StoreAction WriteResult := do
  let count : Nat ← Program.call (.delete name p none)
  for field in relationFields do
    let _ ← Join.removeOwners name field owners none
  return .deleted count

/-- **A deletion** of the objects that a predicate finds deletes their relations. -/
theorem tracks_deleteOwners (hC : isClassName C = true) (hs : w.store.Quiet)
    (h : ∀ f ∈ fields, w.store.Bound C f) {owners : List String}
    (howners : Store.matchingIds false p (w.store.collection C).records = .ok owners) :
    ∃ n v, (deleteOwners C p fields owners).run.run w = (.ok (.deleted n), v) ∧
      Store.Tracks C fields (fun _ => owners.map .delete) w.store v.store := by
  obtain ⟨⟨n, hn⟩, hother, -, hrecord⟩ := hs.run_delete howners
  have hadvances := hs.run_advances (.delete C p none)
  obtain ⟨u, hu, hrun⟩ : ∃ u : World, u.store = (w.store.run (.delete C p none)).store ∧
      (deleteOwners C p fields owners).run.run w = (do
        for field in fields do
          let _ ← Join.removeOwners C field owners none
        return .deleted n : StoreAction WriteResult).run.run u :=
    StoreAction.exists_run_call_bind hn
  rw [← hu] at hother hrecord hadvances
  have hjoins (f : String) : u.store.collection (Join.collection f C) =
      w.store.collection (Join.collection f C) :=
    hother _ (Join.collection_ne_of_isClassName hC f C)
  obtain ⟨v, hloop, hunlinks⟩ := Join.exists_run_unlink hC (hs.advances hadvances)
    (fun f hf => (h f hf).edges.congr hadvances (hjoins f)) owners
  have hrecord' (o : String) :
      v.store.record? C o = if o ∈ owners then none else w.store.record? C o := by
    rw [Store.record?, hunlinks.objects]
    exact hrecord o
  have hlinks (f : String) (hf : f ∈ fields) (o x : String) :
      v.store.Links (Join.collection f C) o x ↔
        w.store.Links (Join.collection f C) o x ∧ o ∉ owners := by
    rw [hunlinks.links f hf, Store.links_congr (hjoins f)]
    simp [hf]
  refine ⟨n, v, hrun.trans (StoreAction.run_bind_eq_ok.2 ⟨⟨⟩, v, hloop, rfl⟩),
    ⟨fun f hf => ⟨hunlinks.edges f hf, fun o x ho => ?_⟩, fun f hf => ?_⟩⟩
  · obtain ⟨ho, hstays⟩ := (hlinks f hf o x).1 ho
    rw [hrecord', if_neg hstays]
    exact (h f hf).owned o x ho
  · funext o
    rw [RelationAct.foldl_delete, Store.relation, hrecord']
    by_cases ho : o ∈ owners
    · simp [ho]
    · simp [ho, hlinks f hf, Store.relation]

section

variable (h : w.store.Tended C fields) (hC : isClassName C = true)

include h hC

/-- An insertion creates an object with an empty relation. -/
theorem tracks_insert (r : Record) :
    Store.Tracks C fields (fun f => (Write.insert C r).acts C (edits f) w.store
      (((Write.insert C r).run none).run.run w).1) w.store
      (((Write.insert C r).run none).run.run w).2.store := by
  refine Batch.run_bind_cases (P := fun out => Store.Tracks C fields
    (fun f => (Write.insert C r).acts C (edits f) w.store out.1) w.store out.2.store)
    (fun e v hcall => ?_) fun _ v hcall => ?_
  · obtain ⟨herror, hstore⟩ := Batch.store_of_run_call hcall
    simp only [acts_error, ← hstore]
    have hsame := Store.run_error herror
    exact .of_collection h.bound (h.quiet.run_advances _) hsame.collection
  · obtain ⟨hok, hstore⟩ := Batch.store_of_run_call hcall
    obtain ⟨id, hid⟩ := h.quiet.id_of_run_insert hok
    obtain ⟨hfree, hstored⟩ := Engine.record?_of_run_insert hok hid
    have hacts (f : String) : (Write.insert C r).acts C (edits f) w.store
        (.ok (.created (r.id?.getD ""))) = [.create id] := by simp [acts, collection, hid]
    have hwrites : (Store.Call.insert C r none).Writes := trivial
    have hchanges : ∀ c ∈ w.store.changes (.insert C r none), c.id = id := by
      simp [Store.changes, hid]
    change Store.Tracks C fields (fun f => (Write.insert C r).acts C (edits f) w.store
      (.ok (.created (r.id?.getD "")))) w.store v.store
    simp only [hacts, ← hstore]
    refine .of_new h.bound (h.quiet.run_advances _) (fun f _ => ?_) hfree (by rw [hstored]; rfl)
      fun o ho => Store.record?_run_of_ne hwrites o (fun c hc heq => ho ?_) C
    · exact Store.run_collection_of_writes hwrites
        (Join.collection_ne_of_isClassName hC f C) w.store
    · rw [← heq, hchanges c hc]

/-- An upsert that inserts creates an object with an empty relation. -/
theorem tracks_upsert (p : Predicate) (edit : Edit) :
    Store.Tracks C fields (fun f => (Write.upsert C p edit).acts C (edits f) w.store
      (((Write.upsert C p edit).run none).run.run w).1) w.store
      (((Write.upsert C p edit).run none).run.run w).2.store := by
  refine Batch.run_bind_cases (P := fun out => Store.Tracks C fields
    (fun f => (Write.upsert C p edit).acts C (edits f) w.store out.1) w.store out.2.store)
    (fun e v hcall => ?_) fun (out : Store.Upserted) v hcall => ?_
  · obtain ⟨herror, hstore⟩ := Batch.store_of_run_call hcall
    simp only [acts_error, ← hstore]
    have hsame := Store.run_error herror
    exact .of_collection h.bound (h.quiet.run_advances _) hsame.collection
  · obtain ⟨hok, hstore⟩ := Batch.store_of_run_call hcall
    have hwrites : (Store.Call.upsert C p edit none).Writes := trivial
    have hjoins (f : String) : (w.store.run (.upsert C p edit none)).store.collection
        (Join.collection f C) = w.store.collection (Join.collection f C) :=
      Store.run_collection_of_writes hwrites (Join.collection_ne_of_isClassName hC f C) w.store
    have hacts (f : String) : (Write.upsert C p edit).acts C (edits f) w.store
        (.ok (.upserted out.matched out.id out.record)) = out.id.toList.map .create :=
      if_pos rfl
    change Store.Tracks C fields (fun f => (Write.upsert C p edit).acts C (edits f) w.store
      (.ok (.upserted out.matched out.id out.record))) w.store v.store
    simp only [hacts, ← hstore]
    rcases h.quiet.upserted hok with ⟨hnone, hrewrites⟩ | ⟨id, r, hid, hchanges⟩
    · rw [hnone]
      exact .of_objects h.bound (h.quiet.run_advances _) (fun f _ => hjoins f)
        (Store.isSome_record?_run h.wellFormed hwrites hrewrites C)
    · rw [hid]
      have hdone := Store.run_ok hok
      have hmem : ⟨id, none, some r⟩ ∈ w.store.changes (.upsert C p edit none) := by
        simp [hchanges]
      refine .of_new h.bound (h.quiet.run_advances _) (fun f _ => hjoins f)
        (hdone.admitted _ hmem).before ?_
        fun o ho => Store.record?_run_of_ne hwrites o (fun c hc heq => ho ?_) C
      · rw [Store.record?, hdone.collection_of_writes hwrites,
          if_pos (show C = (Store.Call.upsert C p edit none).collection from rfl), hchanges]
        exact Option.isSome_iff_exists.2 ⟨r, (Members.lookup_insert ..).trans (if_pos rfl)⟩
      · rw [hchanges, List.mem_singleton] at hc
        rw [← heq, hc]

/-- The acts of an update are told by the owners that are found for it, from a world that is as
this one. -/
theorem tracks_found {u : World} (hu : w.store.Rests u.store) (hwf : u.store.WellFormed)
    {p : Predicate} {plan : Plan.UpdatePlan} {many : Bool} {owners : List String}
    (hfields : ∀ e ∈ plan.relations, e.field ∈ fields)
    (hedits : ∀ f ∈ fields, plan.edits f = edits f)
    (howners : ∀ owner ∈ owners, (w.store.record? C owner).isSome)
    (hselected : plan.relations = [] ∧ owners = [] ∨ selected w.store C p many = owners) :
    Store.Tracks C fields (fun f => (Write.update C p plan many).acts C (edits f) w.store
      ((updateOwners C p plan many owners).run.run u).1) w.store
      ((updateOwners C p plan many owners).run.run u).2.store := by
  have hrests : Store.Tracks C fields (fun _ => []) w.store u.store :=
    .of_collection h.bound hu.advances hu.collection
  have howners' : ∀ owner ∈ owners, (u.store.record? C owner).isSome := by
    intro owner ho
    rw [Store.record?, hu.collection]
    exact howners owner ho
  rcases tracks_updateOwners hC (h.quiet.advances hu.advances) hwf hrests.bound hfields howners' p
    many with ⟨e, v, hrun, htracks⟩ | ⟨matched, record, v, hrun, htracks⟩
  · simp only [hrun, acts_error]
    exact hrests.trans htracks
  · rw [hrun]
    refine (hrests.trans htracks).congr fun f hf => ?_
    rw [show (Write.update C p plan many).acts C (edits f) w.store
      (.ok (.updated matched record)) = (selected w.store C p many).flatMap fun owner =>
        (edits f).map fun e => .edit owner e.1 e.2 from if_pos rfl, ← hedits f hf]
    rcases hselected with ⟨hnone, rfl⟩ | rfl
    · simp [hnone, Plan.UpdatePlan.edits]
    · simp only [Plan.UpdatePlan.edits, List.map_map]
      rfl

/-- An update edits the relations of the objects that it selects. -/
theorem tracks_update {p : Predicate} {plan : Plan.UpdatePlan} {many : Bool}
    (hfits : (Write.update C p plan many).Fits C fields edits) :
    Store.Tracks C fields (fun f => (Write.update C p plan many).acts C (edits f) w.store
      (((Write.update C p plan many).run none).run.run w).1) w.store
      (((Write.update C p plan many).run none).run.run w).2.store := by
  obtain ⟨hfields, hedits⟩ := hfits rfl
  rw [run_update]
  split
  next hnone =>
    exact tracks_found h hC (.refl _) h.wellFormed hfields hedits
      (fun _ ho => absurd ho List.not_mem_nil) (.inl ⟨List.isEmpty_iff.1 hnone, rfl⟩)
  next =>
    refine Batch.run_bind_cases (P := fun out => Store.Tracks C fields (fun f =>
      (Write.update C p plan many).acts C (edits f) w.store out.1) w.store out.2.store)
      (fun e v hrun => ?_) fun owners v hrun => ?_
    · obtain ⟨hrests, -⟩ := run_matchingIds h.quiet (h.id_of_mem hC) hrun
      simp only [acts_error]
      exact .of_collection h.bound hrests.advances hrests.collection
    · obtain ⟨hrests, hids⟩ := run_matchingIds h.quiet (h.id_of_mem hC) hrun
      have hselected := hids owners rfl
      have hwf := h.wellFormed.run_program
        (matchingIds C p (if many then none else some 1) none).run
      rw [hrun] at hwf
      refine tracks_found h hC hrests hwf hfields hedits (fun owner ho => ?_)
        (.inr (by rw [selected, hselected]; rfl))
      obtain ⟨r, hr, -⟩ := Store.mem_matchingIds hselected ho
      exact Option.isSome_iff_exists.2 ⟨r, (h.wellFormed.sorted C).lookup_of_mem hr⟩

/-- A deletion deletes the relations of the objects that it selects. -/
theorem tracks_delete {p : Predicate} {relationFields : List String}
    (hfits : (Write.delete C p relationFields).Fits C fields edits) :
    Store.Tracks C fields (fun f => (Write.delete C p relationFields).acts C (edits f) w.store
      (((Write.delete C p relationFields).run none).run.run w).1) w.store
      (((Write.delete C p relationFields).run none).run.run w).2.store := by
  obtain rfl : relationFields = fields := hfits rfl
  cases hfields : relationFields with
  | nil => exact ⟨nofun, nofun⟩
  | cons first rest =>
    rw [← hfields]
    have hrun : (Write.delete C p relationFields).run none =
        matchingIds C p none none >>= deleteOwners C p relationFields := by
      simp only [Write.run, hfields, List.isEmpty_cons, Bool.false_eq_true, if_false]
      rfl
    rw [hrun]
    refine Batch.run_bind_cases (P := fun out => Store.Tracks C relationFields (fun f =>
      (Write.delete C p relationFields).acts C (edits f) w.store out.1) w.store out.2.store)
      (fun e v hfind => ?_) fun owners u hfind => ?_
    · have hfind : (matchingIds C p (if true then none else some 1) none).run.run w =
        (.error e, v) := hfind
      obtain ⟨hrests, -⟩ := run_matchingIds h.quiet (h.id_of_mem hC) hfind
      simp only [acts_error]
      exact .of_collection h.bound hrests.advances hrests.collection
    · have hfind : (matchingIds C p (if true then none else some 1) none).run.run w =
        (.ok owners, u) := hfind
      obtain ⟨hrests, hids⟩ := run_matchingIds h.quiet (h.id_of_mem hC) hfind
      have hselected := hids owners rfl
      have hfound : Store.Tracks C relationFields (fun _ => []) w.store u.store :=
        .of_collection h.bound hrests.advances hrests.collection
      obtain ⟨n, v, hdeleted, htracks⟩ := tracks_deleteOwners (w := u) hC
        (h.quiet.advances hrests.advances) hfound.bound
        (by rw [hrests.collection]; exact hselected)
      have hacts (f : String) : (Write.delete C p relationFields).acts C (edits f) w.store
          (.ok (.deleted n)) = owners.map .delete := by
        rw [show (Write.delete C p relationFields).acts C (edits f) w.store (.ok (.deleted n)) =
          (selected w.store C p true).map .delete from if_pos rfl, selected, hselected]
        rfl
      simp only [hdeleted, hacts]
      exact hfound.trans htracks

end

/-- Edges are not watched for their ids. -/
theorem not_identity_on (field className : String) :
    ¬Store.identity.on (Join.collection field className) :=
  fun hname => Join.collection_ne_of_isClassName hname field className rfl

/-- **A write suits the relations of a class**: it is on some class, made for the relations of this
one, and spares the ids of objects. -/
structure Suits (C : String) (fields : List String)
    (edits : String → List (List String × List String)) (write : Write) : Prop where
  onClass : isClassName write.collection = true
  fits : write.Fits C fields edits
  spares : Store.identity.AllowsWrite write

section

variable {write : Write} (h : w.store.Tended C fields) (hC : isClassName C = true)
  (hsuits : write.Suits C fields edits)

include h hC hsuits

/-- **What a write does to relations.** -/
theorem tracks_run : Store.Tracks C fields (fun f => write.acts C (edits f) w.store
    ((write.run none).run.run w).1) w.store ((write.run none).run.run w).2.store := by
  have hfits := hsuits.fits
  by_cases hne : write.collection = C
  · cases write with
    | insert name r =>
      subst hne
      exact tracks_insert h hC r
    | update name p plan many =>
      subst hne
      exact tracks_update h hC hfits
    | upsert name p edit =>
      subst hne
      exact tracks_upsert h hC p edit
    | delete name p relationFields =>
      subst hne
      exact tracks_delete h hC hfits
  · exact tracks_other h hC hsuits.onClass hne

/-- **A write keeps relations tended.** -/
theorem tended_run : ((write.run none).run.run w).2.store.Tended C fields where
  quiet := h.quiet.advances (h.quiet.advances_run _)
  wellFormed := h.wellFormed.run_program _
  identified :=
    have hkept : (write.run none).Ensures (Store.identity.Kept none) fun _ => True :=
      ensures_run_kept not_identity_on hsuits.spares
    (Program.Ensures.run hkept (.of_holds h.wellFormed h.identified)).1.holds
  bound := (tracks_run h hC hsuits).bound

end

end Write

end ObjectEngine
