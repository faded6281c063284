import ObjectEngine.Proofs.Engine.Edges

/-!
# Refusals

A request is refused for what it asks: the schema does not allow it, a value has another type, a
name or the form of a query is wrong, or the caller lacks a permission
(`EngineError.Refusal`). Such an error comes from a plan, or from a predicate or an update in the
store. To read what is stored gives other errors (`Engine.accepts_readDocument`,
`Catalog.accepts_ofRecord`), and so do the calls that change the edges of a relation
(`Store.Quiet.accepts_link`, `Store.Quiet.accepts_unlink`).
-/

namespace ObjectEngine

variable {α β : Type}

/-- **An error that refuses a request**, for what it asks. -/
def EngineError.Refusal : EngineError → Prop
  | .schemaViolation _ | .typeMismatch .. | .invalidKeyName _ | .invalidQuery _
  | .permissionDenied _ => True
  | _ => False

namespace EngineError

/-- A refusal is shown as one. -/
theorem refusal_sanitized (enabled : Bool) (e : EngineError) :
    (e.sanitized enabled).Refusal ↔ e.Refusal := by
  cases enabled <;> cases e <;> exact Iff.rfl

theorem refusal_inField (field : String) (e : EngineError) :
    (e.inField field).Refusal ↔ e.Refusal := by
  unfold inField
  split <;> exact Iff.rfl

end EngineError

/-! ### Outcomes -/

namespace Outcome

/-- **An outcome that refuses nothing**: it is no refusal. -/
def Accepts (x : Outcome α) : Prop := ∀ e, x = .error e → ¬e.Refusal

theorem Accepts.ok (a : α) : Accepts (.ok a : Outcome α) := nofun

theorem Accepts.error {e : EngineError} (h : ¬e.Refusal) : Accepts (.error e : Outcome α) :=
  fun _ he => Except.error.inj he ▸ h

theorem Accepts.bind {x : Outcome α} {f : α → Outcome β} (hx : x.Accepts)
    (hf : ∀ a, (f a).Accepts) : (x >>= f).Accepts := by
  cases x with
  | ok a => exact hf a
  | error e => exact .error (hx e rfl)

theorem Accepts.inField {x : Outcome α} (hx : x.Accepts) (field : String) :
    (x.inField field).Accepts := by
  cases x with
  | ok a => exact .ok a
  | error e => exact .error fun h => hx e rfl ((EngineError.refusal_inField field e).1 h)

theorem Accepts.ofOption {e : EngineError} (h : ¬e.Refusal) (x : Option α) :
    (Outcome.ofOption e x).Accepts := by
  cases x with
  | none => exact .error h
  | some a => exact .ok a

theorem Accepts.foldlM {f : β → α → Outcome β} (hf : ∀ b a, (f b a).Accepts) (xs : List α)
    (b : β) : (xs.foldlM f b).Accepts := by
  induction xs generalizing b with
  | nil => exact .ok b
  | cons a rest ih => exact .bind (hf b a) ih

theorem map_eq_error {x : Outcome α} {f : α → β} {e : EngineError} :
    x.map f = .error e ↔ x = .error e := by
  cases x <;> simp [Except.map]

/-- Work on a list that fails for an item fails as it does for one of them. -/
theorem exists_error_of_mapM {f : α → Outcome β} {xs : List α}
    (h : ∃ x ∈ xs, ∃ e, f x = .error e) : ∃ x ∈ xs, ∃ e, f x = .error e ∧ xs.mapM f = .error e := by
  induction xs with
  | nil => simp at h
  | cons x rest ih =>
    rw [List.mapM_cons]
    cases hx : f x with
    | error e => exact ⟨x, List.mem_cons_self, e, hx, rfl⟩
    | ok y =>
      obtain ⟨x', hx', e, he⟩ := h
      rcases List.mem_cons.1 hx' with rfl | hx'
      · exact absurd (hx.symm.trans he) (by simp)
      · obtain ⟨x'', hmem, e, he, hrest⟩ := ih ⟨x', hx', e, he⟩
        refine ⟨x'', List.mem_cons_of_mem _ hmem, e, he, ?_⟩
        change (rest.mapM f >>= _) = _
        rw [hrest]
        rfl

end Outcome

open Outcome (Accepts)

/-! ### Stored documents -/

namespace Stored

theorem accepts_pointerOfKey (key : String) : (pointerOfKey key).Accepts := by
  unfold pointerOfKey
  split
  · split
    · exact .error id
    · exact .ok _
  · exact .error id

theorem accepts_decodeTagged (tag : String) (members : List (String × Datum)) :
    (decodeTagged tag members).Accepts := by
  have hstring (tag key : String) : (stringMember members tag key).Accepts := .ofOption id _
  have hdouble (tag key : String) : (doubleMember members tag key).Accepts := .ofOption id _
  unfold decodeTagged
  split
  · exact .bind (hstring _ _) fun _ => .bind (hstring _ _) fun _ => .ok _
  · exact .bind (hstring _ _) fun _ => .ok _
  · exact .bind (hdouble _ _) fun _ => .bind (hdouble _ _) fun _ => .ok _
  · split
    · split
      · exact .ok _
      · exact .error id
    · exact .error id
  · exact .bind (hstring _ _) fun _ => .ok _
  · split
    · exact .ok _
    · exact .error id
  · exact .ok _

mutual

/-- **Reading a stored value** refuses nothing. -/
theorem accepts_decodeFree (d : Datum) : (decodeFree d).Accepts := by
  cases d with
  | array items =>
    rw [decodeFree]
    exact .bind (accepts_decodeItems items) fun _ => .ok _
  | record members =>
    rw [decodeFree]
    have hmembers : Accepts (do return .object (← decodeMembers members) : Outcome Value) :=
      .bind (accepts_decodeMembers members) fun _ => .ok _
    split
    · refine .bind (accepts_decodeTagged _ members) fun v => ?_
      cases v with
      | some v => exact .ok v
      | none => exact hmembers
    · exact hmembers
  | _ => exact .ok _

theorem accepts_decodeItems (items : List Datum) : (decodeItems items).Accepts := by
  cases items with
  | nil => exact .ok _
  | cons d rest =>
    rw [decodeItems]
    exact .bind (accepts_decodeFree d) fun _ => .bind (accepts_decodeItems rest) fun _ => .ok _

theorem accepts_decodeMembers (members : List (String × Datum)) :
    (decodeMembers members).Accepts := by
  cases members with
  | nil => exact .ok _
  | cons m rest =>
    rw [decodeMembers]
    exact .bind (accepts_decodeFree m.2) fun _ => .bind (accepts_decodeMembers rest) fun _ => .ok _

end

theorem accepts_decode (ty : FieldType) (d : Datum) : (decode ty d).Accepts := by
  unfold decode
  split
  case h_9 => exact .bind (accepts_pointerOfKey _) fun _ => .ok _
  case h_10 =>
    split
    · exact .ok _
    · exact accepts_decodeFree _
  case h_11 =>
    split
    · exact .ok _
    · exact accepts_decodeFree _
  case h_13 => exact accepts_decodeFree _
  all_goals exact .ok _

theorem accepts_decodeMember (schema : ClassSchema) (doc : Document) (key : String) (d : Datum) :
    (decodeMember schema doc key d).Accepts := by
  unfold decodeMember
  dsimp only
  split
  · exact .ok _
  split
  · exact .ok _
  split
  · exact .ok _
  split
  · split <;> exact .ok _
  split
  · exact .bind ((accepts_decode _ _).inField _) fun _ => .ok _
  split
  · exact .bind ((accepts_decode _ _).inField _) fun _ => .ok _
  · exact .bind (accepts_decodeFree _) fun _ => .ok _

end Stored

/-- **Reading a stored document** refuses nothing. -/
theorem Engine.accepts_readDocument (schema : ClassSchema) (caller : Caller) (r : Record) :
    (readDocument schema caller r).Accepts := by
  refine .bind (.bind (.ofOption id _) fun id => ?_) fun _ => .ok _
  refine .bind (.foldlM (fun doc m => ?_) _ _) fun _ => .ok _
  exact Stored.accepts_decodeMember schema doc m.1 m.2

/-! ### Stored schemas -/

namespace Catalog

theorem accepts_indexOfDatum (name : String) (d : Datum) : (indexOfDatum name d).Accepts := by
  unfold indexOfDatum
  dsimp only
  split
  · split
    · split
      · exact .ok _
      · exact .error id
    · exact .error id
  · exact .error id

theorem accepts_ofStoredText (text : String) : (FieldType.ofStoredText text).Accepts := by
  unfold FieldType.ofStoredText
  split
  · exact .ok _
  · split
    · exact .ok _
    · exact .ofOption id _

theorem accepts_readMember (schema : ClassSchema) (key : String) (d : Datum) :
    (readMember schema key d).Accepts := by
  unfold readMember
  split
  · exact .ok _
  split
  · split
    · refine .foldlM (fun schema m => ?_) _ _
      exact .bind (accepts_indexOfDatum m.1 m.2) fun _ => .ok _
    · exact .ok _
  · exact .bind (accepts_ofStoredText _) fun _ => .ok _
  · exact .error id

/-- **Reading a stored schema** refuses nothing. -/
theorem accepts_ofRecord (r : Record) : (ofRecord r).Accepts := by
  have hmembers (start : ClassSchema) :
      (r.foldlM (fun schema m => readMember schema m.1 m.2) start).Accepts :=
    .foldlM (fun (schema : ClassSchema) (m : String × Datum) =>
      accepts_readMember schema m.1 m.2) _ _
  refine .bind (.ofOption id _) fun className => ?_
  dsimp only
  split
  · exact hmembers _
  · exact .error id

end Catalog

/-! ### Edges -/

namespace Store

/-- **Work that refuses nothing**, on whatever store. -/
def Accepting (x : Work α) : Prop := ∀ s, Accepts (x.run s).1

namespace Accepting

theorem pure (a : α) : Accepting (pure a : Work α) := fun _ => .ok a

theorem bind {x : Work α} {f : α → Work β} (hx : Accepting x) (hf : ∀ a, Accepting (f a)) :
    Accepting (x >>= f) := by
  intro s
  have hfirst := hx s
  rw [run_bind]
  rcases hrun : x.run s with ⟨_ | a, t⟩ <;> rw [hrun] at hfirst
  · exact .error (hfirst _ rfl)
  · exact hf a t

theorem get_bind {f : Store → Work β} (hf : ∀ s, Accepting (f s)) : Accepting (get >>= f) :=
  fun s => hf s s

theorem ite {p : Prop} [Decidable p] {x y : Work α} (hx : Accepting x) (hy : Accepting y) :
    Accepting (if p then x else y) := by
  split
  · exact hx
  · exact hy

theorem finish (operation : String) {x : Outcome α} (hx : x.Accepts) :
    Accepting (finish operation x) := by
  intro s
  rw [run_finish]
  cases x with
  | ok a => exact .ok a
  | error e => exact .error (hx e rfl)

end Accepting

theorem accepts_checkUnique (name : String) (c : Collection) (r : Record) :
    (checkUnique name c r).Accepts := by
  unfold checkUnique
  split
  · exact .error id
  · exact .ok _

namespace Accepting

/-- An update that fits every record may only take a key that is taken. -/
theorem updateIds (operation name : String) {edit : Edit}
    (hedit : ∀ r, ∃ r', edit.apply false r = .ok r') (session : Option SessionId)
    (ids : List String) : Accepting (updateIds operation name edit session ids) := by
  intro s
  have hstage : (stage name (s.collection name) edit ids).Accepts := by
    induction ids with
    | nil => exact .ok _
    | cons id rest ih =>
      rw [stage]
      split
      · exact ih
      · rename_i r _
        obtain ⟨r', hr'⟩ := hedit r
        rw [hr']
        exact .bind (.ok r') fun _ => .bind (accepts_checkUnique _ _ _) fun _ => .bind ih fun _ =>
          .ok _
  rw [run_updateIds]
  split
  · rename_i e he
    exact .error (hstage e he)
  · exact .ok _

theorem insertRecord (operation name : String) (session : Option SessionId) (id : String)
    (r : Record) : Accepting (insertRecord operation name session id r) := by
  intro s
  have hadmission : (admission name (s.collection name) id r).Accepts := by
    unfold admission
    split
    · exact .error fun h => h
    · exact accepts_checkUnique _ _ _
  rw [run_insertRecord]
  split
  · rename_i e he
    exact .error (hadmission e he)
  · exact .ok _

theorem deleteIds (name : String) (session : Option SessionId) (ids : List String) :
    Accepting (deleteIds name session ids) := by
  intro s
  rw [run_deleteIds]
  split <;> exact .ok _

end Accepting

variable {s : Store} {name : String} {p : Predicate}

/-- A predicate that can be evaluated on every record finds some records. -/
theorem exists_filterRecords {c : Option Collation} {records : List Record}
    (h : ∀ r ∈ records, ∃ b, (p.eval c r).1 = .ok b) :
    ∃ found, (filterRecords c p records).1 = .ok found := by
  induction records with
  | nil => exact ⟨[], rfl⟩
  | cons r rest ih =>
    obtain ⟨⟨b, hb⟩, hrest⟩ := List.forall_mem_cons.1 h
    obtain ⟨found, hfound⟩ := ih hrest
    rw [filterRecords]
    rcases heval : p.eval c r with ⟨x, delay⟩
    obtain rfl : x = .ok b := by rw [← hb, heval]
    simp only [hfound]
    exact ⟨_, rfl⟩

/-- **A look-up by an id** refuses nothing. -/
theorem Quiet.accepts_find_byId (hs : s.Quiet) (name id : String) :
    Accepts (s.run (.find name { filter := .byId id, limit := some 1 } none)).outcome := by
  have htells (r : Record) : ∃ b, ((Predicate.byId id).eval none r).1 = .ok b :=
    ⟨_, by rw [Predicate.byId, Predicate.eval]; rfl⟩
  obtain ⟨found, hfound⟩ : ∃ found, (filterRecords none (.byId id)
      (Members.values (s.collection name).records)).1 = .ok found :=
    exists_filterRecords fun r _ => htells r
  obtain ⟨houtcome, -⟩ := hs.run_find name { filter := .byId id, limit := some 1 } none
  rw [houtcome, underLimit, query]
  simp only [hfound]
  exact .ok _

theorem Quiet.accepts_of_perform (hs : s.Quiet) {c : Call} (h : Accepting (perform c)) :
    Accepts (s.run c).outcome := by
  have hrun := h (s.noted c.operation c.collection c.session?)
  rw [← hs.run_answer] at hrun
  exact hrun

/-- **Adding a record by a predicate** refuses nothing, whether or not it is there. -/
theorem Quiet.accepts_link (hs : s.Quiet)
    (hp : ∀ r, ∃ b, (p.eval none r).1 = .ok b) :
    Accepts (s.run (.upsert name p {} none)).outcome := by
  refine hs.accepts_of_perform (.bind (.pure _) fun _ => .get_bind fun t => ?_)
  obtain ⟨ids, hids⟩ : ∃ ids, matchingIds true p (t.collection name).records = .ok ids :=
    exists_matchingIds true fun m _ => hp m.2
  refine .bind (.finish _ (by rw [hids]; exact .ok _)) fun ids => ?_
  have happly (inserting : Bool) (r : Record) : ({} : Edit).apply inserting r = .ok r := by
    cases inserting <;> rfl
  refine .ite (.bind (.finish _ (by rw [happly]; exact .ok _)) fun r => ?_)
    (.bind (.updateIds _ _ (fun r => ⟨r, happly false r⟩) _ _) fun _ => .pure _)
  have hinsert (found : String × Record) : Accepting (do
      insertRecord "upsert" name none found.1 found.2
      return { matched := 0, id := some found.1, record := found.2 } : Work Upserted) :=
    .bind (.insertRecord _ _ _ _ _) fun _ => .pure _
  dsimp only
  split
  · exact .bind (.pure _) hinsert
  · exact .bind (fun _ => .ok _) fun _ => .bind (.pure _) hinsert

/-- **Removing records by a predicate** refuses nothing. -/
theorem Quiet.accepts_unlink (hs : s.Quiet)
    (hp : ∀ r, ∃ b, (p.eval none r).1 = .ok b) :
    Accepts (s.run (.delete name p none)).outcome := by
  refine hs.accepts_of_perform (.bind (.pure _) fun _ => .get_bind fun t => ?_)
  obtain ⟨ids, hids⟩ : ∃ ids, matchingIds false p (t.collection name).records = .ok ids :=
    exists_matchingIds false fun m _ => hp m.2
  exact .bind (.finish _ (by rw [hids]; exact .ok _)) fun ids => .deleteIds _ _ _

end Store

end ObjectEngine
