import ObjectEngine.Proofs.Engine.Preparing
import ObjectEngine.Proofs.Engine.Reading

/-!
# What a caller writes and is shown of it

A caller without privilege asks for one write or for a batch of them. Whatever comes of it, a
stored document whose list of writers does not admit the caller stays as it is, and so do the
edges that it owns, as long as no other record has its id (`Engine.write_keeps_withheld`). An
edge names its owner by id, so with two documents of one id the writer of one disposes of the
edges of the other (`Engine.not_edges_kept_twins`).

A write is scoped by the list of *writers* alone, and it answers what it wrote. So a document
that is answered has no hidden field, and what is answered of a document that was stored before
is answered only to those who may write it (`Engine.write_reveals`). The list of readers is not
asked; `Engine.not_readable_handedOver` is a world where it would refuse.

Both follow from one statement for every invariant of the store that the planned writes keep
(`Engine.write_ensures`).
-/

namespace ObjectEngine

/-- A call that writes. -/
inductive WriteCall
  | one (op : WriteOp)
  | batch (writes : List WriteOp) (transactional : Bool)

/-- What a call that writes answers. -/
inductive WriteAnswer
  | document (d : Document)
  | count (n : Nat)
  | results (outcomes : List (Outcome WriteResult))

namespace Engine

/-- Runs a single write for itself. -/
def writeOne (config : Config) (caller : Caller) : WriteOp → Action WriteAnswer
  | .create className d => do return .document (← create config caller className d)
  | .update className objectId ops => do
    return .document (← update config caller className objectId ops)
  | .updateMany className f ops => do return .count (← updateMany config caller className f ops)
  | .upsert className f ops => do return .document (← upsert config caller className f ops)
  | .delete className f => do return .count (← delete config caller className f)

/-- Runs a call that writes in a world. -/
def write (config : Config) (caller : Caller) (call : WriteCall) (cache : SchemaCache)
    (w : World) : (Outcome WriteAnswer × SchemaCache) × World :=
  match call with
  | .one op => (writeOne config caller op).runIn cache w
  | .batch writes transactional =>
    let ((outcome, cache), w) := executeBatch config caller writes transactional cache w
    ((outcome.map .results, cache), w)

/-- **What an answer reveals**: a document has no field that is hidden from a caller without
privilege. One that was created has fields that were given; of any other document or record that
is answered, `D` is known of its class and id. -/
def Reveals (D : String → String → Prop) (caller : Caller) : WriteCall → WriteAnswer → Prop
  | .one (.create _ d), .document answer =>
    (caller.privileged = false → answer.Conceals caller) ∧ ∀ f ∈ answer.fields, f ∈ d.fields
  | .one (.update className ..), .document answer =>
    (caller.privileged = false → answer.Conceals caller) ∧ D className answer.objectId
  | .one (.upsert className ..), .document answer =>
    (caller.privileged = false → answer.Conceals caller) ∧ D className answer.objectId
  | .one (.updateMany ..), .count _ => True
  | .one (.delete ..), .count _ => True
  | .batch writes _, .results outcomes =>
    List.Forall₂ (fun op outcome => ∀ result, outcome = .ok result →
      result.Carries (D op.className)) writes outcomes
  | _, _ => False

/-! ### Single writes -/

section

variable {I : Store → Prop} {D : String → String → Prop} {config : Config} {caller : Caller}
  (hI : Store.Stable I)

include hI

/-- A record that a write answers, read for the caller. -/
theorem ensures_readResult {className : String} {result : WriteResult}
    (hresult : result.Carries (D className)) {r : Record} (hr : result.record? = some r) :
    Action.Ensures I SchemaCache.Faithful
      (fun d => (caller.privileged = false → d.Conceals caller) ∧ D className d.objectId) (do
        let schema ← Action.schema className
        (readDocument schema caller r : Outcome Document)) :=
  .bind (Action.ensures_schema hI className) fun _ _ => .outcome fun _ hread =>
    ⟨fun hcaller => conceals_of_readDocument hcaller hread,
      hresult r _ hr (of_readDocument hread).1⟩

variable (hrun : ∀ write : Write, write.Authorized caller → ∀ session,
  (write.run session).Ensures I (WriteResult.Carries (D write.collection)))

include hrun

/-- **A creation** answers fields that were given. -/
theorem ensures_create (className : String) (d : Document) :
    (create config caller className d).Ensures I SchemaCache.Faithful fun answer =>
      (caller.privileged = false → answer.Conceals caller) ∧
        ∀ f ∈ answer.fields, f ∈ d.fields := by
  refine .guarded (.bind (ensures_prepareCreate hI className d) fun out hout => ?_)
  refine .bind (.lift (hrun out.1 hout.1 none)) fun _ _ => .pure ⟨fun hcaller f hf => ?_, ?_⟩
  · rw [visible, hcaller, if_neg Bool.false_ne_true] at hf
    simpa using (List.mem_filter.1 hf).2
  · rw [← hout.2.2]
    unfold visible
    split
    · exact fun f hf => hf
    · exact fun f hf => (List.mem_filter.1 hf).1

theorem ensures_update (className objectId : String) (ops : UpdateMap) :
    (update config caller className objectId ops).Ensures I SchemaCache.Faithful fun d =>
      (caller.privileged = false → d.Conceals caller) ∧ D className d.objectId := by
  refine .guarded (.bind (ensures_prepare hI config _) fun write hwrite => ?_)
  refine .bind (.lift (hrun write hwrite.1 none)) fun result hresult => ?_
  rw [hwrite.2] at hresult
  split
  · exact ensures_readResult hI hresult rfl
  · exact .throw

theorem ensures_updateMany (className : String) (f : Filter) (ops : UpdateMap) :
    (updateMany config caller className f ops).Ensures I SchemaCache.Faithful fun _ => True := by
  refine .guarded (.bind (ensures_prepare hI config _) fun write hwrite => ?_)
  refine .bind (.lift (hrun write hwrite.1 none)) fun result _ => ?_
  split
  · exact .pure trivial
  · exact .pure trivial

theorem ensures_upsert (className : String) (f : Filter) (ops : UpdateMap) :
    (upsert config caller className f ops).Ensures I SchemaCache.Faithful fun d =>
      (caller.privileged = false → d.Conceals caller) ∧ D className d.objectId := by
  refine .guarded (.bind (ensures_prepareUpsert hI config className f ops)
    fun write hwrite => ?_)
  refine .bind (.lift (hrun write hwrite.1 none)) fun result hresult => ?_
  rw [hwrite.2] at hresult
  split
  · exact ensures_readResult hI hresult rfl
  · exact .throw

theorem ensures_delete (className : String) (f : Filter) :
    (delete config caller className f).Ensures I SchemaCache.Faithful fun _ => True := by
  refine .guarded (.bind (ensures_prepare hI config _) fun write hwrite => ?_)
  refine .bind (.lift (hrun write hwrite.1 none)) fun result _ => ?_
  split
  · exact .ite (fun _ => .pure trivial) fun _ => .throw
  · exact .throw

theorem ensures_writeOne (op : WriteOp) :
    (writeOne config caller op).Ensures I SchemaCache.Faithful (Reveals D caller (.one op)) := by
  cases op with
  | create className d =>
    exact .bind (ensures_create hI hrun className d) fun _ h => .pure h
  | update className objectId ops =>
    exact .bind (ensures_update hI hrun className objectId ops) fun _ h => .pure h
  | updateMany className f ops =>
    exact .bind (ensures_updateMany hI hrun className f ops) fun _ h => .pure h
  | upsert className f ops =>
    exact .bind (ensures_upsert hI hrun className f ops) fun _ h => .pure h
  | delete className f =>
    exact .bind (ensures_delete hI hrun className f) fun _ h => .pure h

end

/-! ### Batches -/

/-- **The writes planned for a batch** keep to the permission, each on the class it asks for. -/
theorem ensures_prepareAll {I : Store → Prop} (hI : Store.Stable I) (config : Config)
    (caller : Caller) (writes : List WriteOp) :
    (prepareAll config caller writes).Ensures I SchemaCache.Faithful
      (List.Forall₂ (fun op outcome => ∀ write, outcome = .ok write →
        write.Authorized caller ∧ write.collection = op.className) writes) :=
  (Action.judgement I _).forall₂_mapM fun op _ => .outcomeOf (ensures_prepare hI config op)

/-- What is filled in has been executed for a write that was planned. -/
theorem forall₂_fillIn {R : Write → Outcome WriteResult → Prop} {prepared : List (Outcome Write)}
    {executed : List (Outcome WriteResult)}
    (h : List.Forall₂ R (prepared.filterMap Except.toOption) executed) :
    List.Forall₂ (fun planned outcome => ∀ result, outcome = .ok result →
      ∃ write, planned = .ok write ∧ R write outcome) prepared (fillIn prepared executed) := by
  induction prepared generalizing executed with
  | nil => exact .nil
  | cons planned rest ih =>
    cases planned with
    | error e => exact .cons nofun (ih h)
    | ok write =>
      cases h with
      | cons hfirst hrest => exact .cons (fun _ _ => ⟨write, rfl, hfirst⟩) (ih hrest)

section

variable {I : Store → Prop} {S : SessionId → Prop} {D : String → String → Prop} {caller : Caller}
  (hrun : ∀ write : Write, write.Authorized caller → ∀ session,
    (write.run session).Ensures I (WriteResult.Carries (D write.collection)))
  {writes : List WriteOp} {w : World}

include hrun

/-- **A batch in a transaction**: all writes were planned, and each has its result. -/
theorem execute_ensures (hsessions : Batch.Sessions I S) {ready : List Write}
    (hready : List.Forall₂ (fun op write =>
      Write.Authorized caller write ∧ write.collection = op.className) writes ready)
    (retries : Nat) (h : I w.store) :
    I (Batch.execute retries ready true w).2.store ∧
      ∀ outcomes, (Batch.execute retries ready true w).1 = .ok outcomes →
        List.Forall₂ (fun op outcome => ∀ result, outcome = .ok result →
          result.Carries (D op.className)) writes outcomes := by
  have hwrites (session : Option SessionId) (write : Write) (hmem : write ∈ ready) :
      (write.run session).Ensures I (WriteResult.Carries (D write.collection)) := by
    obtain ⟨_, _, hauth, -⟩ := Outcome.exists_of_forall₂ hready hmem
    exact hrun write hauth session
  have hdone := (Batch.ensures_transaction hsessions hwrites retries 1).run h
  simp only [Batch.execute, if_true]
  refine ⟨hdone.1, fun outcomes houtcomes => ?_⟩
  obtain ⟨results, hresults, rfl⟩ := Outcome.map_eq_ok.1 houtcomes
  refine List.forall₂_map_right_iff.2 (Outcome.forall₂_trans
    (fun op write result hwrite hcarries => ?_) hready (hdone.2 results hresults))
  rintro _ ⟨⟩
  exact hwrite.2 ▸ hcarries

/-- **A batch without one**: the writes that could be planned are run, and fill the gaps. -/
theorem independent_ensures {prepared : List (Outcome Write)}
    (hplanned : List.Forall₂ (fun op outcome => ∀ write, outcome = .ok write →
      write.Authorized caller ∧ write.collection = op.className) writes prepared)
    (h : I w.store) :
    I (Batch.independent (prepared.filterMap Except.toOption) w).2.store ∧
      List.Forall₂ (fun op outcome => ∀ result, outcome = .ok result →
          result.Carries (D op.className)) writes
        (fillIn prepared (Batch.independent (prepared.filterMap Except.toOption) w).1) := by
  have hwrites (write : Write) (hmem : write ∈ prepared.filterMap Except.toOption) :
      (write.run none).Ensures I (WriteResult.Carries (D write.collection)) := by
    obtain ⟨planned, hmem, hok⟩ := List.mem_filterMap.1 hmem
    obtain ⟨_, _, hwrite⟩ := Outcome.exists_of_forall₂ hplanned hmem
    exact hrun write (hwrite write (Outcome.toOption_eq_some.1 hok)).1 none
  have hdone := Batch.ensures_independent hwrites h
  refine ⟨hdone.1, Outcome.forall₂_trans ?_ hplanned (forall₂_fillIn hdone.2)⟩
  intro op planned outcome hwrite hfilled result hresult
  obtain ⟨write, hwrite', hcarries⟩ := hfilled result hresult
  exact (hwrite write hwrite').2 ▸ hcarries result hresult

end

/-! ### Calls -/

section

variable {I : Store → Prop} {S : SessionId → Prop} {D : String → String → Prop} {caller : Caller}
  (hI : Store.Stable I) (hsessions : Batch.Sessions I S) (config : Config)
  (hrun : ∀ write : Write, write.Authorized caller → ∀ session,
    (write.run session).Ensures I (WriteResult.Carries (D write.collection)))
  {cache : SchemaCache} (hcache : cache.Faithful) {w : World} (h : I w.store)

include hI hsessions hrun hcache h

/-- **A batch** guarantees what its writes guarantee, in either mode. -/
theorem executeBatch_ensures (writes : List WriteOp) (transactional : Bool) :
    I (executeBatch config caller writes transactional cache w).2.store ∧
      (executeBatch config caller writes transactional cache w).1.2.Faithful ∧
      ∀ outcomes, (executeBatch config caller writes transactional cache w).1.1 = .ok outcomes →
        List.Forall₂ (fun op outcome => ∀ result, outcome = .ok result →
          result.Carries (D op.className)) writes outcomes := by
  have hprepared := (ensures_prepareAll hI config caller writes).runIn hcache h
  unfold executeBatch
  rcases hplan : (prepareAll config caller writes).runIn cache w with ⟨⟨prepared, cache'⟩, w'⟩
  rw [hplan] at hprepared
  obtain ⟨h', hcache', hplanned⟩ := hprepared
  cases prepared with
  | error e => exact ⟨h', hcache', nofun⟩
  | ok prepared =>
    have hplanned := hplanned prepared rfl
    cases transactional with
    | true =>
      -- a write that cannot be planned refuses the whole transaction
      cases hready : (prepared.mapM id : Outcome (List Write)) with
      | error e =>
        simp only [hready]
        exact ⟨h', hcache', nofun⟩
      | ok ready =>
        have hmatched : List.Forall₂ (fun op write =>
            Write.Authorized caller write ∧ write.collection = op.className) writes ready :=
          Outcome.forall₂_trans (fun _ _ write hplanned hok => hplanned write hok) hplanned
            (Outcome.forall₂_of_mapM hready)
        obtain ⟨hkept, hresults⟩ :=
          execute_ensures hrun hsessions hmatched config.transactionRetryLimit h'
        simp only [hready, if_true]
        exact ⟨hkept, hcache', fun outcomes houtcomes =>
          hresults outcomes (Outcome.mapError_eq_ok.1 houtcomes)⟩
    | false =>
      obtain ⟨hkept, hresults⟩ := independent_ensures hrun hplanned h'
      refine ⟨hkept, hcache', fun outcomes houtcomes => ?_⟩
      obtain rfl := Except.ok.inj houtcomes
      refine List.forall₂_map_right_iff.2 (hresults.imp ?_)
      intro op outcome hcarries result hresult
      exact hcarries result (Outcome.mapError_eq_ok.1 hresult)

/-- **A call that writes** guarantees what the writes planned for it guarantee. -/
theorem write_ensures (call : WriteCall) :
    I (write config caller call cache w).2.store ∧
      (write config caller call cache w).1.2.Faithful ∧
      ∀ answer, (write config caller call cache w).1.1 = .ok answer →
        Reveals D caller call answer := by
  cases call with
  | one op => exact (ensures_writeOne hI hrun op).runIn hcache h
  | batch writes transactional =>
    obtain ⟨hkept, hfaithful, houtcomes⟩ :=
      executeBatch_ensures hI hsessions config hrun hcache h writes transactional
    refine ⟨hkept, hfaithful, fun answer hanswer => ?_⟩
    obtain ⟨outcomes, hresult, rfl⟩ := Outcome.map_eq_ok.1 hanswer
    exact houtcomes outcomes hresult

end

/-- **What is withheld from a caller stays** through a call that writes, and what the call
answers stands for what the caller may write. -/
theorem write_upholds (config : Config) (caller : Caller) {cache : SchemaCache}
    (hcache : cache.Faithful) {w : World} (hwf : w.store.WellFormed) (call : WriteCall) :
    w.store.Upholds caller (write config caller call cache w).2.store ∧
      ∀ answer, (write config caller call cache w).1.1 = .ok answer →
        Reveals (w.store.MayWrite caller) caller call answer :=
  let ⟨hkept, _, hanswer⟩ := write_ensures (Store.Upholds.stable w.store caller)
    (Store.Upholds.sessions w.store caller) config
    (fun _ hauth => Write.ensures_upholds w.store hauth) hcache (.refl hwf caller) call
  ⟨hkept, hanswer⟩

/-! ### Two worlds -/

/-- The user `bob`. -/
def bob : Caller := { principal := some ⟨"bob", []⟩ }

/-- An object that `alice` may read and `bob` may write. -/
def handedOverObject : Record :=
  [("_id", .string "x"), ("_rperm", .array [.string "alice"]),
    ("_wperm", .array [.string "bob"]), ("name", .string "n")]

/-- A world with that object and an edge that it owns. -/
def handedOver : World where
  store := { collections := [
    ("N", { records := [("x", handedOverObject)] }),
    ("_Join:rel:N", { records := [("e", [("_id", .string "e"), ("owningId", .string "x"),
      ("relatedId", .string "t")])] }),
    ("_SCHEMA", { records := [("N", [("_id", .string "N"), ("name", .string "string"),
      ("rel", .string "relation<T>"), ("tag", .string "string")])] })] }

theorem wellFormed_handedOver : handedOver.store.WellFormed :=
  .of_sorted [] (by decide)

theorem isDocument_handedOver : handedOver.store.IsDocument "N" "x" handedOverObject where
  stored := rfl
  named := rfl
  alone id r hr _ := by
    by_contra hne
    have hnone : List.lookup id (handedOver.store.collection "N").records = none :=
      (Members.lookup_cons ..).trans (if_neg hne)
    exact absurd (hr.symm.trans hnone) (by simp)

/-- A world with two objects that have the same id, and an edge that this id owns. The first may
be written by `alice` and the second by `bob`. -/
def twins : World where
  store := { collections := [
    ("N", { records := [("a", [("_id", .string "a"), ("_wperm", .array [.string "alice"])]),
      ("b", [("_id", .string "a"), ("_wperm", .array [.string "bob"])])] }),
    ("_Join:rel:N", { records := [("e", [("_id", .string "e"), ("owningId", .string "a"),
      ("relatedId", .string "t")])] }),
    ("_SCHEMA", { records := [("N", [("_id", .string "N"),
      ("rel", .string "relation<T>")])] })] }

theorem wellFormed_twins : twins.store.WellFormed :=
  .of_sorted [] (by decide)

/-! ### What stays -/

/-- **A document that the caller may not write stays** as it is, whatever the caller asks for
and whatever comes of it, and so do the edges that it owns, if it is the one with its id. -/
theorem write_keeps_withheld {config : Config} {caller : Caller} {subjects : List String}
    (hcaller : caller.subjects? = some subjects) {call : WriteCall} {cache : SchemaCache}
    (hcache : cache.Faithful) {w : World} (hwf : w.store.WellFormed) {C k : String} {r : Record}
    (hC : isClassName C = true) (hstored : (w.store.collection C).records.lookup k = some r)
    {writers : List String}
    (hlist : r.lookup Stored.writePermKey = some (.array (writers.map .string)))
    (hwriters : ∀ s ∈ subjects, s ∉ writers) :
    ((write config caller call cache w).2.store.collection C).records.lookup k = some r ∧
      (w.store.IsDocument C k r → ∀ field id e, e.string? Join.owningKey = some k →
        (((write config caller call cache w).2.store.collection
            (Join.collection field C)).records.lookup id = some e ↔
          (w.store.collection (Join.collection field C)).records.lookup id = some e)) := by
  have hw : w.store.Withholds caller C k r :=
    ⟨hC, hstored, Record.not_admits_of_array hcaller hlist hwriters⟩
  have h := (write_upholds config caller hcache hwf call).1 ⟨C, k, r, hw⟩
  refine ⟨hw.lookup h, fun hdocument field id e howner => h.kept _ id e ?_⟩
  exact .inr ⟨⟨r, hdocument⟩, .inr ⟨field, rfl, howner⟩⟩

theorem write_keeps_withheld_handedOver :
    capital.subjects? = some ["*", "BOB"] ∧
      ((write {} capital (.batch [.delete "N" .all] true) { ttlMs := 5000 }
        handedOver).2.store.collection "N").records.lookup "x" =
          (handedOver.store.collection "N").records.lookup "x" ∧
      ∀ field id e, e.string? Join.owningKey = some "x" →
        (((write {} capital (.batch [.delete "N" .all] true) { ttlMs := 5000 }
            handedOver).2.store.collection (Join.collection field "N")).records.lookup id =
              some e ↔
          (handedOver.store.collection (Join.collection field "N")).records.lookup id =
            some e) := by
  have hsubjects : capital.subjects? = some ["*", "BOB"] := rfl
  have hlist : handedOverObject.lookup Stored.writePermKey =
    some (.array (["bob"].map .string)) := rfl
  obtain ⟨hkept, hedges⟩ := @write_keeps_withheld {} capital _ hsubjects
    (.batch [.delete "N" .all] true) _ (SchemaCache.faithful_empty 5000) _ wellFormed_handedOver
    "N" "x" _ (by decide) isDocument_handedOver.stored _ hlist (by decide)
  exact ⟨rfl, hkept, hedges isDocument_handedOver⟩

/-- **Edges are lost** where another object has the same id: `bob` deletes the second object, and
the edge of the first goes with it. -/
theorem not_edges_kept_twins :
    ¬∀ (caller : Caller) (subjects : List String) (call : WriteCall) (cache : SchemaCache)
      (w : World) (C k : String) (r : Record) (writers : List String),
      caller.subjects? = some subjects → cache.Faithful → w.store.WellFormed →
      isClassName C = true → (w.store.collection C).records.lookup k = some r →
      r.id? = some k → r.lookup Stored.writePermKey = some (.array (writers.map .string)) →
      (∀ s ∈ subjects, s ∉ writers) →
      ∀ field id e, e.string? Join.owningKey = some k →
        (((write {} caller call cache w).2.store.collection
            (Join.collection field C)).records.lookup id = some e ↔
          (w.store.collection (Join.collection field C)).records.lookup id = some e) := by
  intro h
  -- the second object is written by `bob`, and its id names the owner of the edge
  have hlost : (((write {} bob (.one (.delete "N" .all)) { ttlMs := 5000 } twins).2.store.collection
      (Join.collection "rel" "N")).records.lookup "e").isSome = false := by decide +kernel
  have hkept := (h bob ["*", "bob"] (.one (.delete "N" .all)) { ttlMs := 5000 } twins "N" "a" _
    ["alice"] rfl (SchemaCache.faithful_empty 5000) wellFormed_twins (by decide) rfl rfl rfl
    (by decide) "rel" "e" _ rfl).2 rfl
  rw [hkept] at hlost
  exact absurd hlost (by simp)

/-! ### What is shown -/

/-- **What a write reveals**: no field that is hidden from a caller without privilege, and no
document that was stored before and that the caller may not write. -/
theorem write_reveals {config : Config} {caller : Caller} {call : WriteCall}
    {cache : SchemaCache} (hcache : cache.Faithful) {w : World} (hwf : w.store.WellFormed)
    {answer : WriteAnswer} (hrun : (write config caller call cache w).1.1 = .ok answer) :
    Reveals (w.store.MayWrite caller) caller call answer :=
  (write_upholds config caller hcache hwf call).2 answer hrun

/-- The update that sets the tag of an object. -/
def tagged : UpdateMap := [("tag", .set (.string "t"))]

theorem write_reveals_handedOver :
    bob.privileged = false ∧ ∃ answer,
      (write {} bob (.one (.update "N" "x" tagged)) { ttlMs := 5000 } handedOver).1.1 =
        .ok answer ∧
      Reveals (handedOver.store.MayWrite bob) bob (.one (.update "N" "x" tagged)) answer := by
  have hsome : (write {} bob (.one (.update "N" "x" tagged)) { ttlMs := 5000 }
      handedOver).1.1.toOption.isSome = true := by decide +kernel
  obtain ⟨answer, hanswer⟩ := Option.isSome_iff_exists.1 hsome
  have hrun := Outcome.toOption_eq_some.1 hanswer
  exact ⟨rfl, answer, hrun,
    write_reveals (SchemaCache.faithful_empty 5000) wellFormed_handedOver hrun⟩

/-- The records that the results of a batch carry. -/
def recordsOf (outcome : Outcome (List (Outcome WriteResult))) : List Record :=
  (outcome.toOption.getD []).filterMap fun result => result.toOption.bind WriteResult.record?

/-- **What a write shows need not be readable**: `bob` updates an object that only `alice` may
read, and is shown it. In a batch he is shown its name even if the name is protected from him. -/
theorem not_readable_handedOver :
    (¬∀ d, ((update {} bob "N" "x" tagged).runIn { ttlMs := 5000 } handedOver).1.1 = .ok d →
      ∀ r, handedOver.store.IsDocument "N" d.objectId r → r.Admits Stored.readPermKey bob) ∧
    ¬∀ r ∈ recordsOf (executeBatch {} { bob with protectedFields := ["name"] }
        [.update "N" "x" tagged] true { ttlMs := 5000 } handedOver).1.1,
      ∀ f ∈ r, f.1 ≠ "name" := by
  refine ⟨fun h => ?_, fun h => ?_⟩
  · have hshown : ((update {} bob "N" "x" tagged).runIn { ttlMs := 5000 }
        handedOver).1.1.toOption.map (fun d => d.objectId) = some "x" := by decide +kernel
    obtain ⟨d, hd, hid⟩ := Option.map_eq_some_iff.1 hshown
    have hdocument : handedOver.store.IsDocument "N" d.objectId handedOverObject := by
      rw [hid]
      exact isDocument_handedOver
    have hlist : handedOverObject.lookup Stored.readPermKey =
      some (.array (["alice"].map .string)) := rfl
    have hsubjects : bob.subjects? = some ["*", "bob"] := rfl
    exact Record.not_admits_of_array hsubjects hlist (by decide)
      (h d (Outcome.toOption_eq_some.1 hd) _ hdocument)
  · have hshown : (recordsOf (executeBatch {} { bob with protectedFields := ["name"] }
        [.update "N" "x" tagged] true { ttlMs := 5000 } handedOver).1.1).any
          (fun r => r.any fun f => f.1 == "name") = true := by decide +kernel
    obtain ⟨r, hr, hany⟩ := List.any_eq_true.1 hshown
    obtain ⟨f, hf, hname⟩ := List.any_eq_true.1 hany
    exact h r hr f hf (by simpa using hname)

end Engine

end ObjectEngine
