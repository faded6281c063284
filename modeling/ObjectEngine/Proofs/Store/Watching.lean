import ObjectEngine.Proofs.Stored.Access

/-!
# Records that are watched

A property of every record of some collections is kept by calls whose changes are admitted
(`Store.Watch`). If a rollback of admitted changes keeps it too, then it holds whatever a
transaction comes to: `Store.Watch.Kept` is what is to be known of a store while a session works
on it, from its start to its end.

A rollback takes writes back member by member. Members that were only kept or renewed are given
back (`Store.cell_rewound_of_renewed`).

One such property is that the access members of every document agree (`Store.Agrees`). They go on
doing so under calls that put in records whose members agree, and rewrite others as a whole
(`Store.Call.Grants`). A rollback may well leave a record with an old list and new copies; it does
not if the writes renewed the members, since each of them is then given back
(`Store.Traced.agrees_rolledBack`). `Store.Guards` is what is to be known of a store while a session
works on it.
-/

namespace ObjectEngine

section

theorem Renewed.trans {x y z : Option Datum} (h : Renewed x y) (h' : Renewed y z) :
    Renewed x z := by
  rcases h' with rfl | h'
  · exact h
  · exact .inr h'

namespace Store

variable {s t : Store} {id : SessionId} {call : Call} {name rid : String}

/-! ### Members that are given back -/

section

variable {first last : Option Record} {vs : List Revision} {key : String}
  (hleads : Leads first vs last)
  (hvs : ∀ v ∈ vs, ∀ r r', v.before = some r → v.after = some r' →
    Renewed (r.lookup key) (r'.lookup key))

include hleads hvs

/-- Each form of the record has the member of the first, or a renewed one. -/
theorem renewed_of_leads {r : Record} (hfirst : first = some r) :
    ∀ x ∈ valuesOf key vs, Renewed (r.lookup key) x := by
  induction vs generalizing first r with
  | nil => exact fun x hx => absurd hx List.not_mem_nil
  | cons v vs ih =>
    obtain ⟨rfl, hrest⟩ := hleads
    obtain ⟨hv, hvs⟩ := List.forall_mem_cons.1 hvs
    intro x hx
    rw [valuesOf, forms] at hx
    split at hx
    · rename_i next hafter
      have hnext := hv r next hfirst hafter
      rcases List.mem_cons.1 hx with rfl | hx
      · exact hnext
      · exact hnext.trans (ih hrest hvs hafter x hx)
    · exact absurd hx List.not_mem_nil

/-- **A member that was only kept or renewed** is given back. -/
theorem cell_rewound_of_renewed (hinside : ∀ v ∈ vs, v.inside = true) :
    cell key (rewound vs last) = cell key first := by
  rw [cell_rewound key hleads hinside]
  cases hfirst : first with
  | none => rfl
  | some r => exact congrArg some (residue_of_renewed (renewed_of_leads hleads hvs hfirst))

end

/-! ### Histories that a rollback takes back -/

/-- **A record whose history is known** since the transaction of a session began: `F` held of it
then, and each revision since was made by the transaction, logged, and has `K`. -/
def Recalls (s : Store) (id : SessionId) (name rid : String)
    (K : Option Record → Option Record → Prop) (F : Option Record → Prop) : Prop :=
  ∃ first vs, F first ∧ Leads first vs (s.record? name rid) ∧
    (∀ v ∈ vs, v.inside = true ∧ K v.before v.after) ∧ s.Logged id name rid vs

/-- A revision is a change of the record that the call makes. -/
theorem exists_change_of_mem_revisions {v : Revision} (hv : v ∈ s.revisions id name rid call) :
    call.collection = name ∧ v.inside = decide (call.session? = some id) ∧
      ∃ w ∈ s.changes call, w.id = rid ∧ v.before = w.before ∧ v.after = w.after := by
  unfold revisions at hv
  split at hv
  · exact absurd hv List.not_mem_nil
  · split at hv
    · rename_i hname
      obtain ⟨w, hw, rfl⟩ := List.mem_map.1 hv
      obtain ⟨hw, hid⟩ := List.mem_filter.1 hw
      exact ⟨hname, rfl, w, hw, of_decide_eq_true hid, rfl, rfl⟩
    · exact absurd hv List.not_mem_nil

namespace Recalls

variable {K : Option Record → Option Record → Prop} {F : Option Record → Prop}

theorem congr (h : s.Recalls id name rid K F) (hsame : SameContent s t) :
    t.Recalls id name rid K F := by
  obtain ⟨first, vs, hfirst, hleads, hvs, undo, hopen, hundo⟩ := h
  exact ⟨first, vs, hfirst, hsame.record? name rid ▸ hleads, hvs, undo,
    (session?_congr hsame.sessions id).trans hopen, hundo⟩

/-- A transaction begins. -/
theorem of_open (hopen : s.Open id []) (h : F (s.record? name rid)) :
    s.Recalls id name rid K F :=
  ⟨_, [], h, rfl, fun _ hv => absurd hv List.not_mem_nil, [], hopen, rfl⟩

/-- **The step**: a write on the session. -/
theorem run (h : s.Recalls id name rid K F) (hs : s.WellFormed) (hwrites : call.Writes)
    (hsession : call.session? = some id)
    (hchanges : call.collection = name → ∀ w ∈ s.changes call, w.id = rid → K w.before w.after) :
    (s.run call).store.Recalls id name rid K F := by
  obtain ⟨first, vs, hfirst, hleads, hvs, hlogged⟩ := h
  refine ⟨first, vs ++ s.revisions id name rid call, hfirst, ?_, ?_, hlogged.run hwrites⟩
  · exact leads_append.2 ⟨_, hleads, leads_revisions hs id name rid hwrites⟩
  · intro v hv
    rcases List.mem_append.1 hv with hv | hv
    · exact hvs v hv
    · obtain ⟨hname, hinside, w, hw, hid, hbefore, hafter⟩ := exists_change_of_mem_revisions hv
      refine ⟨hinside.trans (decide_eq_true hsession), ?_⟩
      rw [hbefore, hafter]
      exact hchanges hname w hw hid

/-- **The record that a rollback leaves** is rewound to the one before the transaction. -/
theorem rolledBack (h : s.Recalls id name rid K F)
    (hcloses : call = .abort id ∨ call = .endSession id) :
    ∃ first vs last, F first ∧ Leads first vs last ∧
      (∀ v ∈ vs, v.inside = true ∧ K v.before v.after) ∧
      (s.collectionAfter call name).records.lookup rid = rewound vs last := by
  obtain ⟨first, vs, hfirst, hleads, hvs, hlogged⟩ := h
  exact ⟨first, vs, _, hfirst, hleads, hvs, hlogged.lookup_rolledBack hcloses⟩

end Recalls

/-! ### Sessions without a transaction -/

/-- A session that has nothing to give back. -/
def Idle (s : Store) (id : SessionId) : Prop := ∀ state, s.session? id = some state → state = {}

namespace Idle

theorem loggedAll (h : s.Idle id) (entries : List UndoEntry) :
    s.loggedAll (some id) entries = s := by
  refine List.foldlRecOn (motive := fun t => t = s) entries _ rfl fun t ht entry _ => ?_
  rw [ht, logged]
  cases hstate : s.session? id with
  | none => rfl
  | some state =>
    obtain rfl := h state hstate
    rfl

theorem congr (h : s.Idle id) (hsessions : t.sessions = s.sessions) : t.Idle id :=
  fun state hstate => h state ((session?_congr hsessions id).symm.trans hstate)

/-- A write on an idle session is not logged. -/
theorem run (h : s.Idle id) (hwrites : call.Writes) (hsession : call.session? = some id) :
    (s.run call).store.Idle id := by
  cases hrun : (s.run call).outcome with
  | error e => exact h.congr (run_error hrun).sessions
  | ok a =>
    refine h.congr ?_
    rw [(run_ok hrun).sessions_of_writes hwrites, hsession, h.loggedAll]

theorem rolledBack (h : s.Idle id) (hcloses : call = .abort id ∨ call = .endSession id) :
    s.rolledBack call = [] := by
  cases hstate : s.session? id with
  | none => rcases hcloses with rfl | rfl <;> simp [Store.rolledBack, hstate]
  | some state =>
    obtain rfl := h state hstate
    rcases hcloses with rfl | rfl <;> simp [Store.rolledBack, hstate, Option.filter_some]

/-- **A session that is started** is idle: no session before it has its number. -/
theorem of_startSession (hs : s.WellFormed) (hdone : Done s .startSession id t) : t.Idle id := by
  intro state hstate
  obtain rfl : id = ⟨s.nextSession⟩ := hdone.answers
  have hnew : s.sessions.find? (fun entry => entry.1 = ⟨s.nextSession⟩) = none := by
    refine List.find?_eq_none.2 fun entry hentry hid => ?_
    have hlt := hs.numbered entry hentry
    rw [of_decide_eq_true hid] at hlt
    exact absurd hlt (Nat.lt_irrefl _)
  rw [session?, hdone.sessions, show s.sessionsAfter .startSession = s.sessions ++ _ from rfl,
    List.find?_append, hnew] at hstate
  simpa [eq_comm] using hstate

/-- A session whose transaction is given up is idle. -/
theorem of_close {a : call.Answer} (hdone : Done s call a t)
    (hcloses : call = .abort id ∨ call = .endSession id) : t.Idle id := by
  intro state hstate
  rw [session?, hdone.sessions] at hstate
  rcases hcloses with rfl | rfl
  · have habort : ((s.setSession id {}).session? id) = some state := hstate
    rw [session?_setSession, if_pos rfl] at habort
    obtain ⟨-, -, rfl⟩ := Option.map_eq_some_iff.1 habort
    rfl
  · obtain ⟨entry, hentry, -⟩ := Option.map_eq_some_iff.1 hstate
    have hne := (List.mem_filter.1 (List.mem_of_find?_eq_some hentry)).2
    have hid : entry.1 = id := by simpa using List.find?_some hentry
    exact absurd hid (of_decide_eq_true hne)

end Idle

/-! ### Watches -/

/-- **A property of records that is watched**, in some collections: what is to hold of the record
under an id, if there is one, and the changes that are admitted. Those keep the property, and a
rollback of them does. -/
structure Watch where
  on : String → Prop
  holds : String → Option Record → Prop
  admits : String → Option Record → Option Record → Prop
  step {rid : String} {before after : Option Record} :
    admits rid before after → holds rid before → holds rid after
  rewound {rid : String} {first last : Option Record} {vs : List Revision} :
    holds rid first → Leads first vs last →
    (∀ v ∈ vs, v.inside = true ∧ admits rid v.before v.after) → holds rid (rewound vs last)

namespace Watch

variable {W : Watch} {session : Option SessionId}

/-- What is watched holds of every record. -/
def Holds (W : Watch) (s : Store) : Prop :=
  ∀ name, W.on name → ∀ rid, W.holds rid (s.record? name rid)

/-- **A call whose changes are admitted**, where what is watched holds. -/
def Allows (W : Watch) (call : Call) : Prop :=
  W.on call.collection → ∀ s : Store, s.WellFormed → W.Holds s → ∀ w ∈ s.changes call,
    W.admits w.id w.before w.after

/-- **What is to be known of a store while a session works on it**: what is watched holds, and
would do so if the transaction of the session were given up. -/
structure Kept (W : Watch) (session : Option SessionId) (s : Store) : Prop where
  wellFormed : s.WellFormed
  holds : W.Holds s
  restores (id : SessionId) : session = some id →
    s.Idle id ∨ ∀ name, W.on name → ∀ rid, s.Recalls id name rid (W.admits rid) (W.holds rid)

theorem Holds.congr (h : W.Holds s) (hrecord : ∀ name rid, t.record? name rid = s.record? name rid) :
    W.Holds t := fun name hname rid => by
  rw [hrecord]
  exact h name hname rid

/-- **The step**: a write that is allowed. -/
theorem Holds.run (h : W.Holds s) (hs : s.WellFormed) (hwrites : call.Writes)
    (hallows : W.Allows call) : W.Holds (s.run call).store := by
  intro name hname rid
  -- the revisions are the same for whichever session, but for who made them
  refine (leads_revisions hs ⟨0⟩ name rid hwrites).induction (fun v hv => ?_) (h name hname rid)
  obtain ⟨rfl, -, w, hw, rfl, hbefore, hafter⟩ := exists_change_of_mem_revisions hv
  rw [hbefore, hafter]
  exact W.step (hallows hname s hs h w hw)

namespace Kept

theorem of_holds (hs : s.WellFormed) (h : W.Holds s) : W.Kept none s := ⟨hs, h, nofun⟩

theorem leave (h : W.Kept session s) : W.Kept none s := .of_holds h.wellFormed h.holds

theorem of_idle (hs : s.WellFormed) (h : W.Holds s) (hidle : s.Idle id) : W.Kept (some id) s :=
  ⟨hs, h, fun _ hid => .inl (Option.some.inj hid ▸ hidle)⟩

theorem congr (h : W.Kept session s) (hsame : SameContent s t) : W.Kept session t where
  wellFormed := h.wellFormed.congr hsame
  holds := h.holds.congr hsame.record?
  restores id hid := (h.restores id hid).imp (fun hidle => hidle.congr hsame.sessions)
    fun hrecalls name hname rid => (hrecalls name hname rid).congr hsame

/-- **The step**: a write on the session that is allowed. -/
theorem run (h : W.Kept session s) (hwrites : call.Writes) (hallows : W.Allows call)
    (hsession : call.session? = session) : W.Kept session (s.run call).store where
  wellFormed := h.wellFormed.run call
  holds := h.holds.run h.wellFormed hwrites hallows
  restores id hid := by
    refine (h.restores id hid).imp (fun hidle => hidle.run hwrites (hsession.trans hid))
      fun hrecalls name hname rid => ?_
    refine (hrecalls name hname rid).run h.wellFormed hwrites (hsession.trans hid) ?_
    rintro rfl w hw rfl
    exact hallows hname s h.wellFormed h.holds w hw

/-! ### Calls on the session -/

theorem of_startSession (h : W.Kept none s) (hdone : Done s .startSession id t) :
    W.Kept (some id) t := by
  refine of_idle (h.wellFormed.of_done hdone) (h.holds.congr fun name rid => ?_)
    (.of_startSession h.wellFormed hdone)
  rw [record?, hdone.collection]
  exact congrArg (fun c : Collection => c.records.lookup rid) (ite_changed_nil _ _)

/-- A call that resets the session. -/
theorem of_reset (h : W.Kept (some id) s) (hs : t.WellFormed)
    (hcollection : ∀ name, t.collection name = s.collection name) {state : Session}
    (hsessions : t.sessions = (s.setSession id state).sessions)
    (hstate : state.undo = []) : W.Kept (some id) t := by
  have hrecord (name rid : String) : t.record? name rid = s.record? name rid := by
    rw [record?, hcollection]
    rfl
  have hholds : W.Holds t := h.holds.congr hrecord
  have hsession : t.session? id = (s.session? id).map fun _ => state := by
    rw [session?_congr hsessions, session?_setSession, if_pos rfl]
  obtain ⟨inTransaction, undo⟩ := state
  obtain rfl : undo = [] := hstate
  refine ⟨hs, hholds, fun other hother => ?_⟩
  obtain rfl := Option.some.inj hother
  cases hactive : s.session? id with
  | none => exact .inl fun state' h' => absurd (hsession.symm.trans h') (by simp [hactive])
  | some _ =>
    rw [hactive] at hsession
    cases inTransaction with
    | false => exact .inl fun state' h' => Option.some.inj (h'.symm.trans hsession)
    | true => exact .inr fun name hname rid => .of_open hsession (hholds name hname rid)

theorem of_startTransaction (h : W.Kept (some id) s) {a : (Call.startTransaction id).Answer}
    (hdone : Done s (.startTransaction id) a t) : W.Kept (some id) t :=
  h.of_reset (h.wellFormed.of_done hdone)
    (fun name => (hdone.collection name).trans (ite_changed_nil _ _)) hdone.sessions rfl

theorem of_commit (h : W.Kept (some id) s) {a : (Call.commit id).Answer}
    (hdone : Done s (.commit id) a t) : W.Kept (some id) t :=
  h.of_reset (h.wellFormed.of_done hdone)
    (fun name => (hdone.collection name).trans (ite_changed_nil _ _)) hdone.sessions rfl

/-- **A transaction that is given up**, by an abort or with its session. -/
theorem of_close (h : W.Kept (some id) s) {a : call.Answer} (hdone : Done s call a t)
    (hcloses : call = .abort id ∨ call = .endSession id) : W.Kept (some id) t := by
  refine of_idle (h.wellFormed.of_done hdone) (fun name hname rid => ?_) (.of_close hdone hcloses)
  rw [record?, hdone.collection]
  rcases h.restores id rfl with hidle | hrecalls
  · rw [collectionAfter_of_closes hcloses, hidle.rolledBack hcloses]
    exact h.holds name hname rid
  · obtain ⟨first, vs, last, hfirst, hleads, hvs, hlookup⟩ :=
      (hrecalls name hname rid).rolledBack hcloses
    rw [hlookup]
    exact W.rewound hfirst hleads hvs

end Kept

end Watch

end Store

end

open Plan (aclKeys)

/-! ### Records that are granted as a whole -/

/-- **A change that grants as a whole**: a record whose members agreed has members that agree,
and each of them is kept or renewed. -/
structure Granted (before after : Option Record) : Prop where
  agrees : (∀ r, before = some r → r.Agrees) → ∀ r, after = some r → r.Agrees
  renewed (r r' : Record) : before = some r → after = some r' →
    ∀ key ∈ aclKeys, Renewed (r.lookup key) (r'.lookup key)

namespace Granted

theorem removed (before : Option Record) : Granted before none :=
  ⟨fun _ => nofun, fun _ _ _ => nofun⟩

theorem inserted {r : Record} (h : r.Agrees) : Granted none (some r) :=
  ⟨fun _ _ hr => Option.some.inj hr ▸ h, nofun⟩

/-- **A record that is updated as a whole.** -/
theorem rewritten {e : Edit} (he : e.Grants) {inserting : Bool} {r r' : Record}
    (happly : e.apply inserting r = .ok r') : Granted (some r) (some r') := by
  constructor
  · rintro hr _ ⟨⟩
    exact (he.agrees_iff happly).2 (.inl (hr r rfl))
  · rintro _ _ ⟨⟩ ⟨⟩ key hkey
    exact he.renewed happly hkey

end Granted

namespace Store

/-! ### Revisions -/

/-- **A record that is rewound** has the access members of its first form. -/
theorem agrees_rewound {first last : Option Record} {vs : List Revision}
    (hleads : Leads first vs last) (hvs : ∀ v ∈ vs, v.inside = true ∧ Granted v.before v.after)
    (hfirst : ∀ r, first = some r → r.Agrees) : ∀ r, rewound vs last = some r → r.Agrees := by
  intro r hr
  have hcell (key : String) (hkey : key ∈ aclKeys) : cell key (rewound vs last) = cell key first :=
    cell_rewound_of_renewed hleads
      (fun v hv r r' hbefore hafter => (hvs v hv).2.renewed r r' hbefore hafter key hkey)
      fun v hv => (hvs v hv).1
  rw [hr] at hcell
  cases hstart : first with
  | none =>
    rw [hstart] at hcell
    exact absurd (hcell Stored.aclKey (by decide)) (by simp [cell])
  | some start =>
    rw [hstart] at hcell
    exact (hfirst start hstart).congr fun key hkey => Option.some.inj (hcell key hkey)

/-! ### Stores whose documents agree -/

/-- **The access members of every document agree.** -/
def Agrees (s : Store) : Prop :=
  ∀ name, isClassName name = true → ∀ id r, s.record? name id = some r → r.Agrees

/-- An id is no access member. -/
theorem agrees_identified_iff (s : Store) (r : Record) : (s.identified r).2.Agrees ↔ r.Agrees := by
  have hids : ∀ key ∈ aclKeys, key ≠ Record.idKey := by decide
  have hsame (key : String) (hkey : key ∈ aclKeys) :
      (s.identified r).2.lookup key = r.lookup key := lookup_identified s r (hids key hkey)
  exact ⟨fun h => h.congr fun key hkey => (hsame key hkey).symm, fun h => h.congr hsame⟩

/-- **A call that grants as a whole**, if it is on a class. -/
def Call.Grants (call : Call) : Prop :=
  isClassName call.collection = true → ∀ s : Store, ∀ w ∈ s.changes call, Granted w.before w.after

namespace Call

variable {name : String} {session : Option SessionId} {p : Predicate} {e : Edit}

theorem grants_insert {r : Record} (h : r.Agrees) : Grants (.insert name r session) := by
  intro _ s w hw
  obtain ⟨id, -, rfl⟩ := Option.map_eq_some_iff.1 (Option.mem_toList.1 hw)
  exact .inserted h

/-- Rewritten records are updated. -/
theorem granted_of_mem_rewrites (he : e.Grants) {s : Store} {firstOnly : Bool} {w : Change}
    (hw : w ∈ s.rewrites name firstOnly p e) : Granted w.before w.after := by
  obtain ⟨r, r', hw, -, -, happly, -⟩ := mem_rewrites hw
  rw [hw]
  exact .rewritten he happly

theorem grants_update (he : e.Grants) : Grants (.update name p e session) :=
  fun _ _ _ hw => granted_of_mem_rewrites he hw

theorem grants_findAndUpdate (he : e.Grants) : Grants (.findAndUpdate name p e session) :=
  fun _ _ _ hw => granted_of_mem_rewrites he hw

theorem grants_upsert (he : e.Grants) (hseed : ∀ r, e.apply true p.seed = .ok r → r.Agrees) :
    Grants (.upsert name p e session) := by
  intro _ s w hw
  rcases mem_changes_upsert hw with ⟨r, hr, rfl⟩ | hw
  · exact .inserted ((s.agrees_identified_iff r).2 (hseed r hr))
  · exact granted_of_mem_rewrites he hw

theorem grants_delete : Grants (.delete name p session) := by
  intro _ s w hw
  simp only [changes] at hw
  split at hw
  · obtain ⟨v, -, rfl⟩ := List.mem_map.1 hw
    exact .removed _
  · exact absurd hw List.not_mem_nil

end Call

variable {s t : Store} {id : SessionId} {call : Call}

/-- A store where the access members of the record under an id agree if and only if `D`, if there
is one. -/
structure AgreesIff (name rid : String) (D : Prop) (s : Store) : Prop where
  wellFormed : s.WellFormed
  agrees_iff (r : Record) : s.record? name rid = some r → (r.Agrees ↔ D)

namespace AgreesIff

variable {name rid : String} {D : Prop}

theorem congr (h : s.AgreesIff name rid D) (hsame : SameContent s t) : t.AgreesIff name rid D :=
  ⟨h.wellFormed.congr hsame, fun r hr => h.agrees_iff r (hsame.record? name rid ▸ hr)⟩

/-- **An upsert** leaves a record whose access members agree if and only if `D`, if that is so of
what it inserts, and `D` holds if it sets or removes the list. -/
theorem run_upsert (h : s.AgreesIff name rid D) {p : Predicate} {e : Edit}
    {session : Option SessionId} (he : e.Grants) (hregrants : e.Regrants → D)
    (hinserted : ∀ r, e.apply true p.seed = .ok r → (r.Agrees ↔ D)) :
    (s.run (.upsert name p e session)).store.AgreesIff name rid D := by
  have hwrites : (Call.upsert name p e session).Writes := trivial
  have hleads := leads_revisions h.wellFormed ⟨0⟩ name rid hwrites
  refine ⟨h.wellFormed.run _, hleads.induction
    (P := fun record => ∀ r, record = some r → (r.Agrees ↔ D)) (fun v hv hbefore => ?_)
    h.agrees_iff⟩
  obtain ⟨-, -, w, hw, hb, ha⟩ := mem_revisions hv
  rcases mem_changes_upsert hw with ⟨record, hrecord, rfl⟩ | hrewritten
  · rw [ha]
    rintro _ ⟨⟩
    exact (s.agrees_identified_iff record).trans (hinserted record hrecord)
  · obtain ⟨current, next, hw, -, -, happly, -⟩ := mem_rewrites hrewritten
    rw [hb, hw] at hbefore
    rw [ha, hw]
    rintro _ ⟨⟩
    rw [he.agrees_iff happly, hbefore current rfl]
    exact or_iff_left_of_imp hregrants

end AgreesIff

/-! ### Sessions -/

/-- **A record whose access members a rollback gives back**: the revisions of it that are logged
lead from a form whose members agree, and each grants as a whole. -/
def Traced (s : Store) (id : SessionId) (name rid : String) : Prop :=
  ∃ first vs, (∀ r, first = some r → r.Agrees) ∧ Leads first vs (s.record? name rid) ∧
    (∀ v ∈ vs, v.inside = true ∧ Granted v.before v.after) ∧ s.Logged id name rid vs

/-- **What is to be known of a store while a session works on it**: the access members of every
document agree, and would do so if the transaction of the session were given up. -/
structure Guards (session : Option SessionId) (s : Store) : Prop where
  wellFormed : s.WellFormed
  agrees : s.Agrees
  restores (id : SessionId) : session = some id →
    s.Idle id ∨ ∀ name, isClassName name = true → ∀ rid, s.Traced id name rid

/-- **The watch on access lists.** -/
def access : Watch where
  on name := isClassName name = true
  holds _ record := ∀ r, record = some r → r.Agrees
  admits _ := Granted
  step h := h.agrees
  rewound hfirst hleads hvs := agrees_rewound hleads hvs hfirst

theorem guards_eq (session : Option SessionId) : Guards session = access.Kept session :=
  funext fun _ => propext
    ⟨fun h => ⟨h.wellFormed, h.agrees, h.restores⟩, fun h => ⟨h.wellFormed, h.holds, h.restores⟩⟩

theorem Guards.of_agrees (hs : s.WellFormed) (h : s.Agrees) : s.Guards none := ⟨hs, h, nofun⟩

theorem Call.Grants.allows (h : call.Grants) : access.Allows call :=
  fun hname s _ _ w hw => h hname s w hw

end Store

end ObjectEngine
