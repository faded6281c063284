import ObjectEngine.Proofs.Engine.Batches
import ObjectEngine.Proofs.Engine.Frame
import ObjectEngine.Proofs.Engine.Updates
import ObjectEngine.Proofs.Text.Reading

/-!
# Planned writes keep to their permission

A write is planned for a caller with a predicate that holds of no record the caller may not
write (`Write.Authorized`). This file runs such writes and shows that they keep
`Store.Untouched` for a document withheld from the caller (`Write.ensures_run`), and so for all
of them at once (`Write.ensures_upholds`); what is withheld survives the sessions of batches as
well (`Store.Upholds.sessions`).

The work is in telling what a predicate can find. One within the permission finds no record
that the document owns among those of a class, and the predicates of the join collections name
owners that were found so (`Store.Misses`).
-/

namespace ObjectEngine

/-! ### Names of collections -/

/-- A class name has no colon. -/
theorem colon_not_mem_of_isClassName {name : String} (h : isClassName name = true) :
    ':' ∉ name.toList := by
  rcases (Bool.or_eq_true_iff.1 h) with h | h
  · have hsystem : ∀ name ∈ systemClasses, ':' ∉ name.toList := by decide
    exact hsystem name (List.contains_iff_mem.1 h)
  · intro hcolon
    rcases mem_of_isIdentifier h hcolon with hcolon | hcolon <;> exact absurd hcolon (by decide)

namespace Join

theorem toList_collection (field className : String) :
    (collection field className).toList =
      ("_Join:".toList ++ field.toList) ++ ':' :: className.toList := by
  change ("_Join:" ++ field ++ ":" ++ className).toList = _
  simp [String.toList_append]

/-- A join collection is no class. -/
theorem collection_ne_of_isClassName {name : String} (h : isClassName name = true)
    (field className : String) : collection field className ≠ name := by
  rintro rfl
  refine colon_not_mem_of_isClassName h ?_
  rw [toList_collection]
  exact List.mem_append_right _ List.mem_cons_self

/-- **The class of a join collection** is known from its name. -/
theorem class_of_collection {field field' className className' : String}
    (hclass : isClassName className = true) (hclass' : isClassName className' = true)
    (h : collection field className = collection field' className') : className = className' := by
  have hnames := congrArg String.toList h
  rw [toList_collection, toList_collection] at hnames
  obtain ⟨-, hclasses⟩ := Text.append_last_inj hnames (colon_not_mem_of_isClassName hclass)
    (colon_not_mem_of_isClassName hclass')
  exact String.toList_inj.1 hclasses

end Join

namespace Store

/-! ### Withheld documents -/

/-- **A document withheld from a caller**: it is stored in a class, and its list of writers does
not admit the caller. -/
structure Withholds (s : Store) (caller : Caller) (C k : String) (r : Record) : Prop where
  isClass : isClassName C = true
  stored : (s.collection C).records.lookup k = some r
  refused : ¬r.Admits Stored.writePermKey caller

variable {s₀ s : Store} {caller : Caller} {C k : String} {r₀ : Record}

/-- What the document owns in a class. -/
theorem Owns.of_class {name id : String} {r : Record} (hname : isClassName name = true)
    (h : s₀.Owns C k name id r) :
    name = C ∧ (id = k ∨ (∃ r₀, s₀.IsDocument C k r₀) ∧ r.id? = some k) := by
  rcases h with ⟨hC, hid⟩ | ⟨hdocument, ⟨hC, hid⟩ | ⟨field, hjoin, -⟩⟩
  · exact ⟨hC, .inl hid⟩
  · exact ⟨hC, .inr ⟨hdocument, hid⟩⟩
  · exact absurd hjoin.symm (Join.collection_ne_of_isClassName hname _ _)

/-- What the document owns in a join collection. -/
theorem Owns.of_join {field className id : String} {r : Record} (hC : isClassName C = true)
    (hclass : isClassName className = true)
    (h : s₀.Owns C k (Join.collection field className) id r) :
    className = C ∧ (∃ r₀, s₀.IsDocument C k r₀) ∧ r.string? Join.owningKey = some k := by
  rcases h with ⟨hname, -⟩ | ⟨hdocument, ⟨hname, -⟩ | ⟨field', hjoin, howner⟩⟩
  · exact absurd hname (Join.collection_ne_of_isClassName hC _ _)
  · exact absurd hname (Join.collection_ne_of_isClassName hC _ _)
  · exact ⟨Join.class_of_collection hclass hC hjoin, hdocument, howner⟩

/-- **What a caller may write is not owned** by a document withheld from the caller. -/
theorem Withholds.not_owns_of_admits (hw : s₀.Withholds caller C k r₀)
    (h : Untouched s₀ C k s) {name id : String} (hname : isClassName name = true) {r : Record}
    (hr : (s.collection name).records.lookup id = some r)
    (hadmits : r.Admits Stored.writePermKey caller) : ¬s₀.Owns C k name id r := by
  intro howns
  -- what is owned is as it was in `s₀`, where the caller may not write it
  have hinitial := (h.kept name id r howns).1 hr
  obtain ⟨rfl, hid⟩ := howns.of_class hname
  have hk : id = k := by
    rcases hid with rfl | ⟨⟨r₁, hdocument⟩, hid⟩
    · rfl
    · exact hdocument.alone id r hinitial hid
  subst hk
  obtain rfl : r₀ = r := Option.some.inj (hw.stored.symm.trans hinitial)
  exact hw.refused hadmits

/-- Nothing is withheld from a caller with privilege. -/
theorem Withholds.unprivileged (hw : s₀.Withholds caller C k r₀) : caller.privileged = false := by
  cases hprivileged : caller.privileged with
  | false => rfl
  | true => exact absurd (fun _ h => by simp [Caller.subjects?, hprivileged] at h) hw.refused

/-- The document itself is still there. -/
theorem Withholds.lookup (hw : s₀.Withholds caller C k r₀) (h : Untouched s₀ C k s) :
    (s.collection C).records.lookup k = some r₀ :=
  (h.kept C k r₀ (.inl ⟨rfl, rfl⟩)).2 hw.stored

/-! ### What predicates and updates can reach -/

/-- A predicate that finds no record the document owns, in any store of the invariant. -/
def Misses (s₀ : Store) (C k name : String) (p : Predicate) : Prop :=
  ∀ s, Untouched s₀ C k s → ∀ id r, (s.collection name).records.lookup id = some r →
    (p.eval none r).1 = .ok true → ¬s₀.Owns C k name id r

/-- An update that makes no record one that the document owns. -/
def Disowns (s₀ : Store) (C k name : String) (edit : Edit) : Prop :=
  ∀ id r r', edit.apply false r = .ok r' → s₀.Owns C k name id r' → s₀.Owns C k name id r

/-- **Rewritten records** are not owned, before or after. -/
theorem Misses.spares_rewrites {name : String} {p : Predicate} (hp : Misses s₀ C k name p)
    {edit : Edit} (hedit : Disowns s₀ C k name edit) (h : Untouched s₀ C k s) {firstOnly : Bool}
    {w : Change} (hw : w ∈ s.rewrites name firstOnly p edit) : w.Spares s₀ C k name := by
  obtain ⟨current, next, hw, hlookup, ⟨r, hr, hholds⟩, happly, -⟩ := mem_rewrites hw
  obtain rfl : r = current :=
    Option.some.inj (((h.sorted name).lookup_of_mem hr).symm.trans hlookup)
  have hbefore := hp s h w.id r hlookup hholds
  intro r' hr'
  rw [hw]
  constructor
  · rintro ⟨⟩
    exact hbefore hr'
  · rintro ⟨⟩
    exact hbefore (hedit _ _ _ happly hr')

/-- Records that are taken away were found and are not owned. -/
theorem Misses.spares_removals {name : String} {p : Predicate} (hp : Misses s₀ C k name p)
    (h : Untouched s₀ C k s) {ids : List String}
    (hids : matchingIds false p (s.collection name).records = .ok ids) {w : Change}
    (hw : w ∈ removals (s.collection name).records ids) : w.Spares s₀ C k name := by
  obtain ⟨v, hv, rfl⟩ := List.mem_map.1 hw
  obtain ⟨id, hid, hbound⟩ := List.mem_filterMap.1 hv
  obtain ⟨r, hlookup, rfl⟩ := Option.map_eq_some_iff.1 hbound
  obtain ⟨r', hr', hholds⟩ := mem_matchingIds hids hid
  obtain rfl : r' = r := Option.some.inj (((h.sorted name).lookup_of_mem hr').symm.trans hlookup)
  intro r hr
  refine ⟨?_, nofun⟩
  rintro ⟨⟩
  exact hp s h id r' hlookup hholds hr

/-- A new record of a class is not owned: a document that is stored keeps its id. -/
theorem Withholds.spares_insertion (hw : s₀.Withholds caller C k r₀) (h : Untouched s₀ C k s)
    {name : String} (hname : isClassName name = true) {id : String} {r : Record}
    (hid : r.id? = some id) (hfree : (s.collection name).records.lookup id = none) :
    Change.Spares s₀ C k name ⟨id, none, some r⟩ := by
  intro r' hr'
  refine ⟨nofun, ?_⟩
  rintro ⟨⟩
  obtain ⟨rfl, hk⟩ := hr'.of_class hname
  have hk : id = k := by
    rcases hk with rfl | ⟨-, hk⟩
    · rfl
    · exact Option.some.inj (hid.symm.trans hk)
  rw [hk, hw.lookup h] at hfree
  exact absurd hfree (by simp)

/-! ### Calls that write -/

section

variable {name : String} {p : Predicate} {edit : Edit} (session : Option SessionId)

theorem ensures_insert (hw : s₀.Withholds caller C k r₀) (hname : isClassName name = true)
    (r : Record) : StoreAction.Ensures (Untouched s₀ C k) (fun _ => True)
      (Program.call (.insert name r session)) := by
  refine StoreAction.ensures_of_done (Untouched.stable s₀ C k) fun s _ t h hdone => ⟨?_, trivial⟩
  refine h.of_done hdone (fun _ => rfl) rfl rfl fun w hmem => ?_
  have hfree := (hdone.admitted w hmem).before
  cases hid : r.id? with
  | none => simp [changes, hid] at hmem
  | some id =>
    obtain rfl : w = ⟨id, none, some r⟩ := by simpa [changes, hid] using hmem
    exact hw.spares_insertion h hname hid hfree

theorem ensures_update (hp : Misses s₀ C k name p) (hedit : Disowns s₀ C k name edit) :
    StoreAction.Ensures (Untouched s₀ C k) (fun _ => True)
      (Program.call (.update name p edit session)) :=
  StoreAction.ensures_of_done (Untouched.stable s₀ C k) fun _ _ _ h hdone =>
    ⟨h.of_done hdone (fun _ => rfl) rfl rfl fun _ hw => hp.spares_rewrites hedit h hw, trivial⟩

/-- **An update of the first match** answers a record that the document does not own. -/
theorem ensures_findAndUpdate (hp : Misses s₀ C k name p) (hedit : Disowns s₀ C k name edit) :
    StoreAction.Ensures (Untouched s₀ C k)
      (fun r? : Option Record => ∀ r, r? = some r → ∃ id, ¬s₀.Owns C k name id r)
      (Program.call (.findAndUpdate name p edit session)) := by
  refine StoreAction.ensures_of_done (Untouched.stable s₀ C k) fun s r? t h hdone => ⟨?_, ?_⟩
  · exact h.of_done hdone (fun _ => rfl) rfl rfl fun _ hw => hp.spares_rewrites hedit h hw
  · intro r hr
    obtain ⟨w, hw, hafter⟩ := hdone.answers r hr
    exact ⟨w.id, fun howns => (hp.spares_rewrites hedit h hw r howns).2 hafter⟩

/-- **An update or insertion** answers a record that the document does not own. -/
theorem ensures_upsert (hp : Misses s₀ C k name p) (hedit : Disowns s₀ C k name edit)
    (hinsert : ∀ s, Untouched s₀ C k s → ∀ record, edit.apply true p.seed = .ok record →
      (s.collection name).records.lookup (s.identified record).1 = none →
        Change.Spares s₀ C k name ⟨(s.identified record).1, none, some (s.identified record).2⟩) :
    StoreAction.Ensures (Untouched s₀ C k)
      (fun out : Upserted => ∃ id, ¬s₀.Owns C k name id out.record)
      (Program.call (.upsert name p edit session)) := by
  refine StoreAction.ensures_of_done (Untouched.stable s₀ C k) fun s out t h hdone => ?_
  have hspares (w : Change) (hw : w ∈ s.changes (.upsert name p edit session)) :
      w.Spares s₀ C k name := by
    have hfree := (hdone.admitted w hw).before
    rcases mem_changes_upsert hw with ⟨record, hrecord, rfl⟩ | hw
    · exact hinsert s h record hrecord hfree
    · exact hp.spares_rewrites hedit h hw
  refine ⟨h.of_done hdone (fun _ => rfl) rfl rfl hspares, ?_⟩
  obtain ⟨w, hw, hafter⟩ := hdone.answers
  exact ⟨w.id, fun howns => (hspares w hw _ howns).2 hafter⟩

theorem ensures_delete (hp : Misses s₀ C k name p) :
    StoreAction.Ensures (Untouched s₀ C k) (fun _ => True)
      (Program.call (.delete name p session)) := by
  refine StoreAction.ensures_of_done (Untouched.stable s₀ C k) fun s _ t h hdone => ⟨?_, trivial⟩
  refine h.of_done hdone (fun _ => rfl) rfl rfl fun w hw => ?_
  simp only [changes] at hw
  split at hw
  · rename_i ids hids
    exact hp.spares_removals h hids hw
  · exact absurd hw List.not_mem_nil

end

/-! ### Permissions and owners -/

/-- A predicate within the permission of the caller finds nothing that the document owns. -/
theorem Withholds.misses (hw : s₀.Withholds caller C k r₀) {name : String}
    (hname : isClassName name = true) {p : Predicate}
    (hp : ∀ r, (p.eval none r).1 = .ok true → r.Admits Stored.writePermKey caller) :
    Misses s₀ C k name p :=
  fun _ h _ r hr hholds => hw.not_owns_of_admits h hname hr (hp r hholds)

/-- An update that leaves the id alone changes no owner. -/
theorem disowns_of_avoids {name : String} (hname : isClassName name = true) {edit : Edit}
    (hedit : edit.Avoids Record.idKey) : Disowns s₀ C k name edit := by
  intro id r r' happly howns
  have hsame : r'.id? = r.id? :=
    congrArg (Option.bind · Datum.asString?) (Edit.lookup_of_apply hedit happly)
  obtain ⟨hC, rfl | ⟨hdocument, hid⟩⟩ := howns.of_class hname
  · exact .inl ⟨hC, rfl⟩
  · exact .inr ⟨hdocument, .inl ⟨hC, hsame.symm.trans hid⟩⟩

/-- An id of a class that is not that of the document, if the document is the one with its
id. -/
def Differs (s₀ : Store) (C k className owner : String) : Prop :=
  className = C → (∃ r, s₀.IsDocument C k r) → owner ≠ k

/-- The edges of another owner. -/
theorem misses_of_owners {field className : String} (hC : isClassName C = true)
    (hclass : isClassName className = true) {p : Predicate} {owners : List String}
    (howners : ∀ o ∈ owners, s₀.Differs C k className o)
    (hp : ∀ r, (p.eval none r).1 = .ok true →
      ∃ d, r.lookup Join.owningKey = some d ∧ ∃ o ∈ owners, d.Names none o) :
    Misses s₀ C k (Join.collection field className) p := by
  intro s _ id r _ hholds howns
  obtain ⟨hname, hdocument, howner⟩ := howns.of_join hC hclass
  obtain ⟨d, hd, o, ho, hnames⟩ := hp r hholds
  obtain rfl : .string k = d :=
    Option.some.inj ((Record.lookup_of_string? howner).symm.trans hd)
  exact howners o ho hname hdocument hnames.symm

end Store

namespace Join

open Store

variable {s₀ : Store} {C k : String}

theorem split_owningKey : Text.split '.' owningKey = [owningKey] := rfl

/-- **Edges of another owner** are added and removed without touching those of the document. -/
theorem ensures_apply (hC : isClassName C = true) {className owner : String}
    (hclass : isClassName className = true) (howner : s₀.Differs C k className owner)
    (e : Plan.RelationEdit) (session : Option SessionId) :
    (apply className owner e session).Ensures (Untouched s₀ C k) fun _ => True := by
  have hmisses (q : Predicate) : Misses s₀ C k (collection e.field className)
      ((Predicate.field owningKey (.eq (.string owner))).both q) := by
    have howners : ∀ o ∈ [owner], s₀.Differs C k className o :=
      fun o ho => List.mem_singleton.1 ho ▸ howner
    refine misses_of_owners hC hclass howners fun r hholds => ?_
    obtain ⟨d, hd, hnames⟩ :=
      (Predicate.eval_key_eq split_owningKey).1 ((Predicate.eval_both _ _).1 hholds).1
    exact ⟨d, hd, owner, List.mem_singleton_self _, hnames⟩
  -- an edge that is added has the owner it is added for
  have hinsert (related : String) (s : Store) (record : Record)
      (hrecord : Edit.apply {} true (Predicate.seed
        ((Predicate.field owningKey (.eq (.string owner))).both
          (.field relatedKey (.eq (.string related))))) = .ok record) :
      Change.Spares s₀ C k (collection e.field className)
        ⟨(s.identified record).1, none, some (s.identified record).2⟩ := by
    obtain rfl : Members.ofList [(relatedKey, .string related), (owningKey, .string owner)] =
      record := Except.ok.inj hrecord
    refine fun r hr => ⟨nofun, ?_⟩
    rintro ⟨⟩
    obtain ⟨hname, hdocument, hk⟩ := hr.of_join hC hclass
    have hedge := Record.lookup_of_string? hk
    rw [lookup_identified s _ (by decide), Members.lookup_ofList] at hedge
    have hsame : Datum.string owner = .string k := by
      simpa [Members.lookup_cons] using hedge
    exact howner hname hdocument (Datum.string.inj hsame)
  refine .bind (Q := fun _ => True) ?_ fun _ _ => ?_
  · refine (StoreAction.judgement _).forIn fun related _ => ?_
    refine .bind (ensures_upsert session (hmisses _) (fun id r r' happly howns => ?_)
      fun s _ record hrecord _ => hinsert related s record hrecord) fun _ _ => .pure trivial
    obtain rfl : r = r' := Except.ok.inj happly
    exact howns
  · split
    · exact .bind (ensures_delete session (hmisses _)) fun _ _ => .pure trivial
    · exact .pure trivial

/-- **The edges of other owners** are removed without touching those of the document. -/
theorem ensures_removeOwners (hC : isClassName C = true) {className : String}
    (hclass : isClassName className = true) (field : String) {owners : List String}
    (howners : ∀ o ∈ owners, s₀.Differs C k className o) (session : Option SessionId) :
    (removeOwners className field owners session).Ensures (Untouched s₀ C k) fun _ => True := by
  refine .ite (fun _ => .pure trivial) fun _ => ensures_delete session ?_
  exact misses_of_owners hC hclass howners fun r hholds =>
    (Predicate.eval_key_isIn split_owningKey).1 hholds

end Join

/-! ### Writes -/

/-- A predicate within the permission to write: it holds of no record that does not admit the
caller. -/
def Predicate.Within (caller : Caller) (p : Predicate) : Prop :=
  ∀ r, (p.eval none r).1 = .ok true → r.Admits Stored.writePermKey caller

/-- The record that a result carries, if it carries one. -/
def WriteResult.record? : WriteResult → Option Record
  | .updated _ record => record
  | .upserted _ _ record => some record
  | _ => none

/-- A result that carries no record which the document owns. -/
def WriteResult.Spares (s₀ : Store) (C k name : String) (result : WriteResult) : Prop :=
  ∀ r, result.record? = some r → ∃ id, ¬s₀.Owns C k name id r

namespace Write

/-- **A write within the permission of its caller**: it is on a class, it finds only what the
caller may write, and without privilege it leaves the ids alone. -/
def Authorized (caller : Caller) : Write → Prop
  | .insert name _ => isClassName name = true
  | .update name p plan _ => isClassName name = true ∧ p.Within caller ∧
    (caller.privileged = false → plan.edit.Avoids Record.idKey)
  | .upsert name p edit => isClassName name = true ∧ p.Within caller ∧
    (caller.privileged = false → edit.Avoids Record.idKey)
  | .delete name p _ => isClassName name = true ∧ p.Within caller

theorem Authorized.isClassName {caller : Caller} {w : Write} (h : w.Authorized caller) :
    isClassName w.collection = true := by
  cases w with
  | insert name record => exact h
  | update name p plan many => exact h.1
  | upsert name p edit => exact h.1
  | delete name p relationFields => exact h.1

open Store

variable {s₀ : Store} {caller : Caller} {C k : String} {r₀ : Record}

/-- **The owners found** for a write are not the document. -/
theorem ensures_matchingIds (hw : s₀.Withholds caller C k r₀) {name : String}
    (hname : isClassName name = true) {p : Predicate} (hp : p.Within caller) (limit : Option Nat)
    (session : Option SessionId) :
    (matchingIds name p limit session).Ensures (Untouched s₀ C k) fun ids =>
      ∀ o ∈ ids, s₀.Differs C k name o := by
  refine .bind (StoreAction.ensures_find (Untouched.stable s₀ C k) name _ session)
    fun records hrecords => .pure fun o ho => ?_
  obtain ⟨s, h, hquery⟩ := hrecords
  obtain ⟨found, rfl, hfound⟩ := exists_found hquery
  obtain ⟨shown, hshown, hid⟩ := List.mem_filterMap.1 ho
  obtain ⟨r, hr, rfl⟩ := List.mem_map.1 hshown
  rw [id?_shown] at hid
  obtain ⟨hstored, hholds⟩ := hfound r hr
  obtain ⟨m, hm, rfl⟩ := List.mem_map.1 hstored
  have hlookup := (h.sorted name).lookup_of_mem hm
  -- a record with the id of the document is owned, and the caller may not write it
  rintro rfl hdocument rfl
  exact hw.not_owns_of_admits h hname hlookup (hp m.2 hholds)
    (.inr ⟨hdocument, .inl ⟨rfl, hid⟩⟩)

/-- The update of the records themselves. -/
theorem ensures_updateRecords (hw : s₀.Withholds caller C k r₀) {name : String}
    (hname : isClassName name = true) {p : Predicate} (hp : p.Within caller) {edit : Edit}
    (hedit : edit.Avoids Record.idKey) (many : Bool) (session : Option SessionId) :
    (updateRecords name p edit many session).Ensures (Untouched s₀ C k) fun out =>
      ∀ r, out.2 = some r → ∃ id, ¬s₀.Owns C k name id r := by
  have hmisses := hw.misses hname hp
  have hdisowns : Disowns s₀ C k name edit := disowns_of_avoids hname hedit
  refine .ite (fun _ => ?_) fun _ => .ite (fun _ => ?_) fun _ => ?_
  · exact .bind (StoreAction.ensures_count (Untouched.stable s₀ C k) name p none session)
      fun _ _ => .pure nofun
  · exact .bind (ensures_update session hmisses hdisowns) fun _ _ => .pure nofun
  · exact .bind (ensures_findAndUpdate session hmisses hdisowns) fun r? hr? => .pure hr?

/-- **A write within its permission** touches nothing that the document owns, and answers no
record that it owns. -/
theorem ensures_run (hw : s₀.Withholds caller C k r₀) {w : Write} (hauth : w.Authorized caller)
    (session : Option SessionId) :
    (w.run session).Ensures (Untouched s₀ C k) (WriteResult.Spares s₀ C k w.collection) := by
  cases w with
  | insert name record =>
    exact .bind (ensures_insert session hw hauth record) fun _ _ => .pure nofun
  | update name p plan many =>
    obtain ⟨hname, hp, hedit⟩ := hauth
    -- the owners are looked up before the records change, if there are edges to edit
    refine .ite_bind (fun _ => .pure fun o ho => absurd ho List.not_mem_nil)
      (fun _ => ensures_matchingIds hw hname hp _ session) fun owners howners => ?_
    have hout := ensures_updateRecords hw hname hp (hedit hw.unprivileged) many session
    refine .bind hout fun out hout => ?_
    refine .bind ((StoreAction.judgement _).forIn fun owner ho => ?_) fun _ _ => .pure hout
    refine .bind ((StoreAction.judgement _).forIn fun e _ => ?_) fun _ _ => .pure trivial
    exact .bind (Join.ensures_apply hw.isClass hname (howners owner ho) e session)
      fun _ _ => .pure trivial
  | upsert name p edit =>
    obtain ⟨hname, hp, hedit⟩ := hauth
    have hdisowns : Disowns s₀ C k name edit := disowns_of_avoids hname (hedit hw.unprivileged)
    refine .bind (ensures_upsert session (hw.misses hname hp) hdisowns fun s h record _ hfree =>
      hw.spares_insertion h hname (id?_identified s record) hfree) fun out hout => .pure ?_
    rintro r ⟨⟩
    exact hout
  | delete name p fields =>
    obtain ⟨hname, hp⟩ := hauth
    refine .ite_bind (fun _ => .pure fun o ho => absurd ho List.not_mem_nil)
      (fun _ => ensures_matchingIds hw hname hp _ session) fun owners howners => ?_
    refine .bind (ensures_delete session (hw.misses hname hp)) fun _ _ => ?_
    refine .bind ((StoreAction.judgement _).forIn fun field _ => ?_) fun _ _ => .pure nofun
    exact .bind (Join.ensures_removeOwners hw.isClass hname field howners session)
      fun _ _ => .pure trivial

end Write

/-! ### All withheld documents -/

namespace Store

/-- If a document of a class is stored, the caller may write it. -/
def MayWrite (s : Store) (caller : Caller) (className id : String) : Prop :=
  isClassName className = true → ∀ r, s.IsDocument className id r →
    r.Admits Stored.writePermKey caller

/-- A document that is withheld from a caller. -/
structure Withheld (s : Store) (caller : Caller) where
  className : String
  id : String
  record : Record
  withholds : s.Withholds caller className id record

/-- **The invariant for a caller**: no document withheld from the caller is touched. -/
def Upholds (s₀ : Store) (caller : Caller) (s : Store) : Prop :=
  ∀ d : s₀.Withheld caller, Untouched s₀ d.className d.id s

variable {s₀ : Store} {caller : Caller}

theorem Upholds.refl (h : s₀.WellFormed) (caller : Caller) : Upholds s₀ caller s₀ :=
  fun d => .refl h d.className d.id

theorem Upholds.stable (s₀ : Store) (caller : Caller) : Store.Stable (Upholds s₀ caller) :=
  fun s t hsame h d => Untouched.stable s₀ d.className d.id s t hsame (h d)

/-- The sessions of batches uphold what is withheld, if they were started since. -/
theorem Upholds.sessions (s₀ : Store) (caller : Caller) :
    Batch.Sessions (Upholds s₀ caller)
      fun session => s₀.Withheld caller → s₀.nextSession ≤ session.number :=
  .all fun d => {
    start := Untouched.ensures_startSession s₀ d.className d.id
    openTransaction := fun id _ => Untouched.ensures_startTransaction s₀ d.className d.id id
    commit := fun id _ => Untouched.ensures_commit s₀ d.className d.id id
    abort := fun _ => Untouched.ensures_abort s₀ d.className d.id
    finish := fun _ => Untouched.ensures_endSession s₀ d.className d.id }

end Store

/-- What is known of the id of the record that a result carries. -/
def WriteResult.Carries (D : String → Prop) (result : WriteResult) : Prop :=
  ∀ r id, result.record? = some r → r.id? = some id → D id

/-- **A write within its permission** touches no document withheld from the caller, and the
record it answers stands for one that the caller may write. -/
theorem Write.ensures_upholds (s₀ : Store) {caller : Caller} {w : Write}
    (hauth : w.Authorized caller) (session : Option SessionId) :
    (w.run session).Ensures (s₀.Upholds caller)
      (WriteResult.Carries (s₀.MayWrite caller w.collection)) := by
  refine .mono (fun result hresult r id hr hid hclass r₀ hdocument => ?_)
    (.all fun d : s₀.Withheld caller => Write.ensures_run d.withholds hauth session)
  -- were the document withheld, it would own the record that is answered
  by_contra hrefused
  obtain ⟨key, hnot⟩ := hresult ⟨_, _, r₀, hclass, hdocument.stored, hrefused⟩ r hr
  exact hnot (.inr ⟨⟨r₀, hdocument⟩, .inl ⟨rfl, hid⟩⟩)

end ObjectEngine
