import ObjectEngine.Proofs.Engine.Included
import ObjectEngine.Proofs.Engine.Reads

/-!
# What a find shows

A caller that no privilege exempts is shown documents read from stored records. Whatever a find
includes comes from a record that admits the caller, and no document it answers has a hidden
field. Its roots come from records that admit the caller *as the query decides it*: the
permission predicate stands beside the filter in one query, and a filter that asks for an
equality up to case, where an index serves it, makes the whole query ignore case. So a root
may come from a record whose readers are spelled like a subject of the caller up to case
(`Engine.find_shown_iff`, and `Engine.not_readable_lettered` for a world where this happens).
-/

namespace ObjectEngine

/-! ### Documents and the records they are read from -/

/-- The document has no field that is hidden from the caller. -/
def Document.Conceals (caller : Caller) (d : Document) : Prop :=
  ∀ f ∈ d.fields, isInternalField f.1 = false ∧ caller.isProtected f.1 = false

/-- **A document shows a record**: it was read for the caller from what a projection left of the
record, and its references may have been resolved. -/
def Record.Shows (caller : Caller) (r : Record) (d : Document) : Prop :=
  ∃ schema sel d₀, Engine.readDocument schema caller (Store.shown sel r) = .ok d₀ ∧ d₀.Extends d

/-- **What a caller may see**: a document that shows a stored record which admits the caller,
without hidden fields. -/
structure Document.Readable (caller : Caller) (s : Store) (d : Document) : Prop where
  source : ∃ name, ∃ r ∈ Members.values (s.collection name).records,
    r.Admits Stored.readPermKey caller ∧ r.Shows caller d
  conceals : d.Conceals caller

namespace Engine

variable {schema : ClassSchema} {caller : Caller}

/-- A document read for a caller has the id of the record and includes nothing. -/
theorem of_readDocument {r : Record} {d : Document} (h : readDocument schema caller r = .ok d) :
    r.id? = some d.objectId ∧ ∀ e, ¬d.Holds e := by
  obtain ⟨d', hd', h⟩ := Outcome.bind_eq_ok.1 h
  obtain rfl := Except.ok.inj h
  obtain ⟨hid, hnothing⟩ := Stored.of_decodeDocument hd'
  unfold visible
  split
  · exact ⟨hid, hnothing⟩
  · exact ⟨hid, fun e ⟨f, hf, hholds⟩ => hnothing e ⟨f, (List.mem_filter.1 hf).1, hholds⟩⟩

/-- A document read for a caller has no hidden field. -/
theorem conceals_of_readDocument (hcaller : caller.privileged = false) {r : Record}
    {d : Document} (h : readDocument schema caller r = .ok d) : d.Conceals caller := by
  obtain ⟨d', -, h⟩ := Outcome.bind_eq_ok.1 h
  obtain rfl := Except.ok.inj h
  intro f hf
  rw [visible, hcaller, if_neg Bool.false_ne_true] at hf
  simpa using (List.mem_filter.1 hf).2

end Engine

namespace Record.Shows

variable {caller : Caller} {r : Record} {d e : Document}

theorem resolved (h : r.Shows caller d) (hde : d.Extends e) : r.Shows caller e := by
  obtain ⟨schema, sel, d₀, hread, hd⟩ := h
  exact ⟨schema, sel, d₀, hread, hd.trans hde⟩

theorem conceals (h : r.Shows caller d) (hcaller : caller.privileged = false) :
    d.Conceals caller := by
  obtain ⟨schema, sel, d₀, hread, hd⟩ := h
  intro f hf
  obtain ⟨g, hg, hkey⟩ := hd.exists_field hf
  rw [hkey]
  exact Engine.conceals_of_readDocument hcaller hread g hg

/-- A document shows a record with its id. -/
theorem id? (h : r.Shows caller d) : r.id? = some d.objectId := by
  obtain ⟨schema, sel, d₀, hread, hd⟩ := h
  rw [← Store.id?_shown sel, (Engine.of_readDocument hread).1, hd.objectId]

end Record.Shows

namespace Document.Readable

variable {caller : Caller} {s : Store} {d e : Document}

theorem resolved (hcaller : caller.privileged = false) (h : d.Readable caller s)
    (hde : d.Extends e) : e.Readable caller s := by
  obtain ⟨name, r, hr, hadmits, hshows⟩ := h.source
  exact ⟨⟨name, r, hr, hadmits, hshows.resolved hde⟩, (hshows.resolved hde).conceals hcaller⟩

end Document.Readable

/-! ### What the engine fetches and finds -/

/-- The store still has the records and indexes of `s₀`. -/
def Store.Keeps (s₀ s : Store) : Prop := ∀ name, s.collection name = s₀.collection name

theorem Store.stable_keeps (s₀ : Store) : Store.Stable s₀.Keeps :=
  fun _ _ h hs name => (h.1 name).trans (hs name)

/-- **What a query shows** a caller: each document shows one of the records found, which are
stored in the class and grant the caller reading as the query decides it, and every document
that is included is one that the caller may see. -/
structure Engine.Finds (caller : Caller) (s : Store) (className : String)
    (c : Option Collation) (found : List Record) (results : List Document) : Prop where
  shown : List.Forall₂ (Record.Shows caller) found results
  stored : ∀ r ∈ found, r ∈ Members.values (s.collection className).records
  granted : ∀ r ∈ found, r.Grants c Stored.readPermKey caller
  conceals : ∀ d ∈ results, d.Conceals caller
  included : ∀ d ∈ results, ∀ e, d.Holds e → e.Readable caller s

namespace Engine

variable {config : Config} {caller : Caller} {s₀ : Store}

/-- Records answered by a query are read one by one, each into a document that shows it. -/
theorem forall₂_shows_of_mapM {schema : ClassSchema} {sel : Selection} {found : List Record}
    {ds : List Document}
    (h : (found.map (Store.shown sel)).mapM (readDocument schema caller) = .ok ds) :
    List.Forall₂ (Record.Shows caller) found ds :=
  (List.forall₂_map_left_iff.1 (Outcome.forall₂_of_mapM h)).imp
    fun _ d hread => ⟨schema, sel, d, hread, .refl d⟩

/-- **What is fetched** is readable, and includes nothing. -/
theorem ensures_fetch (hcaller : caller.privileged = false) (className : String)
    (ids : List String) :
    Action.Ensures s₀.Keeps (fun _ => True)
      (fun ds => ∀ d ∈ ds, d.Throughout (Document.Readable caller s₀))
      ((fetcher config caller).objects className ids) := by
  have hstable := Store.stable_keeps s₀
  refine .bind (Action.ensures_schema_any hstable className) fun schema _ => ?_
  refine .bind (.lift (StoreAction.ensures_find hstable className _ none))
    fun records hrecords => ?_
  obtain ⟨s, hs, hquery⟩ := hrecords
  obtain ⟨found, rfl, hfound⟩ := Store.exists_found hquery
  refine .outcome fun ds hds d hd => ?_
  obtain ⟨r, hr, hshows⟩ := Outcome.exists_of_forall₂ (forall₂_shows_of_mapM hds) hd
  obtain ⟨hstored, hholds⟩ := hfound r hr
  have hadmits : r.Admits Stored.readPermKey caller :=
    Predicate.admits_of_eval_both split_readPermKey hholds
  refine ⟨⟨⟨className, r, hs className ▸ hstored, hadmits, hshows⟩, hshows.conceals hcaller⟩, ?_⟩
  obtain ⟨r', -, hread⟩ := Outcome.exists_of_forall₂ (Outcome.forall₂_of_mapM hds) hd
  exact fun e he => absurd he ((of_readDocument hread).2 e)

/-- **Resolved results** are the results, and include only what the caller may see. -/
theorem ensures_resolve (hcaller : caller.privileged = false) {results : List Document}
    (hresults : ∀ d ∈ results, ∀ e, ¬d.Holds e) (paths : List String) :
    (resolve config caller results paths).Ensures s₀.Keeps (fun _ => True) fun ds =>
      List.Forall₂ Document.Extends results ds ∧
        ∀ d ∈ ds, ∀ e, d.Holds e → e.Readable caller s₀ :=
  Includes.resolve_guarantees (Action.judgement s₀.Keeps fun _ => True)
    (fun _ => .throw) (fun _ _ h hde => h.resolved hcaller hde)
    (fun c ids => ensures_fetch hcaller c ids)
    (fun c field ids =>
      .ofStore (Join.ensures_relatedIds (Store.stable_keeps s₀).keptByFinds c field ids))
    _ (fun d hd e he => absurd he (hresults d hd e)) paths

/-- The query of a find asks for what the filter asks for and for permission, under the
collation of the filter. -/
theorem exists_of_selection {schema : ClassSchema} {policy : Plan.Policy} {f : Filter}
    {options : FindOptions} {sel : Selection}
    (h : Plan.selection schema policy f options = .ok sel) :
    ∃ p, sel.filter = Predicate.both p (Plan.permission Stored.readPermKey policy.caller) ∧
      sel.collation = Plan.collationOf (f.folds schema) := by
  obtain ⟨planned, sort, keys, hplanned, -, -, rfl⟩ := Plan.parts_of_selection h
  exact ⟨_, rfl, Plan.filter_collation hplanned⟩

/-- **What a find answers**, once the schema of the class is known. -/
theorem ensures_findWithin (hcaller : caller.privileged = false) (className : String)
    (schema : ClassSchema) (f : Filter) (options : FindOptions) :
    Action.Ensures s₀.Keeps (fun _ => True)
      (fun results => ∃ found,
        Finds caller s₀ className (Plan.collationOf (f.folds schema)) found results)
      (do
        let reduced ← (reduceRelations schema f : StoreAction Filter)
        let selection ← (Plan.selection schema (policy config caller) reduced options :
          Outcome Selection)
        let records : List Record ← Program.call (.find className selection none)
        let results ← (records.mapM (readDocument schema caller) : Outcome (List Document))
        if options.includes.isEmpty then return results
        resolve config caller results options.includes) := by
  have hstable := Store.stable_keeps s₀
  refine .bind (.lift (ensures_reduceRelations hstable schema f)) fun reduced hreduced => ?_
  obtain ⟨looked, rfl⟩ := hreduced
  refine .bind (.outcome fun _ h => exists_of_selection h) fun sel hsel => ?_
  obtain ⟨p, hfilter, hcollation⟩ := hsel
  rw [folds_substitute] at hcollation
  refine .bind (.lift (StoreAction.ensures_find hstable className sel none))
    fun records hrecords => ?_
  obtain ⟨s, hs, hquery⟩ := hrecords
  obtain ⟨found, rfl, hfound⟩ := Store.exists_found hquery
  refine .bind (.outcome fun _ h => h) fun ds hds => ?_
  have hshown := forall₂_shows_of_mapM hds
  have hnothing (d : Document) (hd : d ∈ ds) (e : Document) : ¬d.Holds e := by
    obtain ⟨r, -, hread⟩ := Outcome.exists_of_forall₂ (Outcome.forall₂_of_mapM hds) hd
    exact (of_readDocument hread).2 e
  have hstored (r : Record) (hr : r ∈ found) :
      r ∈ Members.values (s₀.collection className).records := hs className ▸ (hfound r hr).1
  have hgranted (r : Record) (hr : r ∈ found) :
      r.Grants (Plan.collationOf (f.folds schema)) Stored.readPermKey caller := by
    have hholds := (hfound r hr).2
    rw [hfilter, hcollation] at hholds
    exact (Predicate.eval_permission split_readPermKey).1 ((Predicate.eval_both _ _).1 hholds).2
  have hconceals {ds : List Document} (h : List.Forall₂ (Record.Shows caller) found ds)
      (d : Document) (hd : d ∈ ds) : d.Conceals caller := by
    obtain ⟨r, -, hshows⟩ := Outcome.exists_of_forall₂ h hd
    exact hshows.conceals hcaller
  split
  · exact .pure ⟨found, hshown, hstored, hgranted, hconceals hshown,
      fun d hd e he => absurd he (hnothing d hd e)⟩
  · refine .mono (fun results hresults => ?_) (ensures_resolve hcaller hnothing options.includes)
    have hshown := Outcome.forall₂_trans (T := Record.Shows caller)
      (fun r d e hshows hde => hshows.resolved hde) hshown hresults.1
    exact ⟨found, hshown, hstored, hgranted, hconceals hshown, hresults.2⟩

end Engine

/-! ### Finds -/

/-- The list under `key` names a subject of the caller, but only up to case. -/
def Record.AdmitsUpToCase (key : String) (caller : Caller) (r : Record) : Prop :=
  r.Grants (some Collation.caseInsensitive) key caller ∧ ¬r.Admits key caller

namespace Engine

variable {config : Config} {caller : Caller}

/-- **What a find shows.** The roots show records that grant the caller reading under the
collation of the filter, nothing hidden is shown, and everything included may be seen. So all
that is shown may be seen if the records found admit the caller; and they do, unless the filter
ignores case and finds a record that admits the caller up to case only. -/
theorem find_shown_iff {className : String} {f : Filter} {options : FindOptions}
    {cache : SchemaCache} {w : World} {results : List Document}
    (hcaller : caller.privileged = false)
    (hrun : ((find config caller className f options).runIn cache w).1.1 = .ok results) :
    ∃ schema found, ((Action.schema className).runIn cache w).1.1 = .ok schema ∧
      Finds caller w.store className (Plan.collationOf (f.folds schema)) found results ∧
      ((∀ r ∈ found, r.Admits Stored.readPermKey caller) →
        ∀ d ∈ results, d.Throughout (Document.Readable caller w.store)) ∧
      ((∀ r ∈ found, r.Admits Stored.readPermKey caller) ↔
        ¬(f.folds schema = true ∧
          ∃ r ∈ found, r.AdmitsUpToCase Stored.readPermKey caller)) := by
  obtain ⟨schema, cache', w', hschema, hrest⟩ :=
    Action.exists_of_runIn_bind (Action.runIn_of_guarded hrun)
  -- to read the schema changes no record, so the query sees the records of `w`
  have hkept : w.store.Keeps ((Action.schema className).runIn cache w).2.store :=
    ((Action.ensures_schema_any (Store.stable_keeps _) className).runIn trivial fun _ => rfl).1
  rw [hschema] at hkept
  have hwithin := @ensures_findWithin config caller w.store hcaller className schema f options
  obtain ⟨found, hfinds⟩ := (hwithin.runIn trivial hkept).2.2 results hrest
  refine ⟨schema, found, by rw [hschema], hfinds,
    fun hadmits d hd => ⟨?_, hfinds.included d hd⟩, ?_⟩
  · obtain ⟨r, hr, hshows⟩ := Outcome.exists_of_forall₂ hfinds.shown hd
    exact ⟨⟨className, r, hfinds.stored r hr, hadmits r hr, hshows⟩, hfinds.conceals d hd⟩
  constructor
  · rintro hadmits ⟨-, r, hr, hupToCase⟩
    exact hupToCase.2 (hadmits r hr)
  · intro hnone r hr
    have hgranted := hfinds.granted r hr
    cases hfolds : f.folds schema with
    | false =>
      rw [hfolds] at hgranted
      exact Record.grants_none_iff.1 hgranted
    | true =>
      rw [hfolds] at hgranted
      by_contra hadmits
      exact hnone ⟨hfolds, r, hr, hgranted, hadmits⟩

/-- A world with one object, which the user `bob` may read, of a class with an index of names up
to case. -/
def lettered : World where
  store := { collections := [
    ("N", { records := [("x", [("_id", .string "x"), ("_rperm", .array [.string "bob"]),
      ("name", .string "n")])] }),
    ("_SCHEMA", { records := [("N", [("_id", .string "N"),
      ("_metadata", .record [("indexes", .record [("case_insensitive_name",
        .record [("caseInsensitive", .bool true),
          ("keys", .array [.array [.string "name", .int 1]]), ("unique", .bool false)])])]),
      ("name", .string "string")])] })] }

/-- Another user, whose id is the same up to case. -/
def capital : Caller := { principal := some ⟨"BOB", []⟩ }

/-- The object of `lettered` as callers are shown it. -/
def letteredObject : Document where
  className := "N"
  objectId := "x"
  createdAt := none
  updatedAt := none
  fields := [("name", .string "n")]

/-- The objects of that name up to case. -/
def namedUpToCase : Filter := .field "name" (.equalsIgnoreCase "N")

theorem find_shown_iff_lettered :
    capital.privileged = false ∧
      ((find {} capital "N" namedUpToCase {}).runIn { ttlMs := 5000 } lettered).1.1 =
        .ok [letteredObject] ∧
      ∃ schema found, ((Action.schema "N").runIn { ttlMs := 5000 } lettered).1.1 = .ok schema ∧
        Finds capital lettered.store "N" (Plan.collationOf (namedUpToCase.folds schema)) found
          [letteredObject] ∧
        ((∀ r ∈ found, r.Admits Stored.readPermKey capital) →
          ∀ d ∈ [letteredObject], d.Throughout (Document.Readable capital lettered.store)) ∧
        ((∀ r ∈ found, r.Admits Stored.readPermKey capital) ↔
          ¬(namedUpToCase.folds schema = true ∧
            ∃ r ∈ found, r.AdmitsUpToCase Stored.readPermKey capital)) := by
  have hrun : ((find {} capital "N" namedUpToCase {}).runIn { ttlMs := 5000 } lettered).1.1 =
      .ok [letteredObject] := rfl
  exact ⟨rfl, hrun, find_shown_iff rfl hrun⟩

/-- **Not all that a find shows may be seen**: the other user is shown the object. -/
theorem not_readable_lettered :
    ¬∀ results,
      ((find {} capital "N" namedUpToCase {}).runIn { ttlMs := 5000 } lettered).1.1 = .ok results →
        ∀ d ∈ results, d.Throughout (Document.Readable capital lettered.store) := by
  intro h
  obtain ⟨name, r, hr, hadmits, hshows⟩ :=
    (h [letteredObject] rfl letteredObject List.mem_cons_self).1.source
  have hid : r.id? = some "x" := hshows.id?
  -- the only record with the id of the object is the one that `bob` alone may read
  by_cases hN : name = "N"
  · subst hN
    obtain rfl := List.mem_singleton.1 hr
    have hlist : List.lookup Stored.readPermKey [("_id", Datum.string "x"),
        ("_rperm", .array [.string "bob"]), ("name", .string "n")] =
          some (.array (["bob"].map .string)) := rfl
    exact Record.not_admits_of_array rfl hlist (by decide) hadmits
  by_cases hschema : name = "_SCHEMA"
  · subst hschema
    obtain rfl := List.mem_singleton.1 hr
    exact absurd hid (by decide)
  · have hnone : lettered.store.collection name = {} := by
      simp [lettered, Store.collection, Store.collection?, Members.lookup_cons, hN, hschema]
    rw [hnone] at hr
    exact absurd hr List.not_mem_nil

end Engine

end ObjectEngine
