import ObjectEngine.Members.Lemmas
import ObjectEngine.Proofs.Engine.Ensures
import ObjectEngine.Proofs.Outcome

/-!
# Included objects

A document read from a record includes no other (`Stored.of_decodeDocument`), and
resolving includes only puts fetched objects in place of references. So everything that a
resolved document holds at any depth was fetched, and apart from references the document is
still the one that was read: `Includes.resolve_guarantees` says so for every judgement of the
fetcher's work.

`Document.Holds` is inclusion at any depth, and `Document.Extends` the relation of a document
as it was read to the same document with objects in place of references.
-/

namespace ObjectEngine

/-! ### Inclusion at any depth -/

/-- **Inclusion**: a document stands in place of a reference somewhere in a value, or in a
document that does. -/
inductive Value.Holds : Value → Document → Prop
  | here (d : Document) : Holds (.included d) d
  | inner {d e : Document} {f : String × Value} : f ∈ d.fields → Holds f.2 e → Holds (.included d) e
  | item {items : List Value} {v : Value} {e : Document} :
    v ∈ items → Holds v e → Holds (.array items) e
  | member {members : List (String × Value)} {m : String × Value} {e : Document} :
    m ∈ members → Holds m.2 e → Holds (.object members) e

/-- A document includes another in one of its fields, at any depth. -/
def Document.Holds (d e : Document) : Prop := ∃ f ∈ d.fields, f.2.Holds e

namespace Stored

/-- A tagged record is read as a value that includes nothing. -/
theorem not_holds_of_decodeTagged {tag : String} {members : List (String × Datum)} {v : Value}
    (h : decodeTagged tag members = .ok (some v)) (e : Document) : ¬v.Holds e := by
  unfold decodeTagged at h
  split at h
  · obtain ⟨className, -, h⟩ := Outcome.bind_eq_ok.1 h
    obtain ⟨objectId, -, h⟩ := Outcome.bind_eq_ok.1 h
    obtain rfl := Option.some.inj (Except.ok.inj h)
    nofun
  · obtain ⟨className, -, h⟩ := Outcome.bind_eq_ok.1 h
    obtain rfl := Option.some.inj (Except.ok.inj h)
    nofun
  · obtain ⟨latitude, -, h⟩ := Outcome.bind_eq_ok.1 h
    obtain ⟨longitude, -, h⟩ := Outcome.bind_eq_ok.1 h
    obtain rfl := Option.some.inj (Except.ok.inj h)
    nofun
  · split at h
    · split at h
      · obtain rfl := Option.some.inj (Except.ok.inj h)
        nofun
      · exact absurd h (by simp)
    · exact absurd h (by simp)
  · obtain ⟨name, -, h⟩ := Outcome.bind_eq_ok.1 h
    obtain rfl := Option.some.inj (Except.ok.inj h)
    nofun
  · split at h
    · obtain rfl := Option.some.inj (Except.ok.inj h)
      nofun
    · exact absurd h (by simp)
  · exact absurd h (by simp)

mutual

/-- A value read freely includes nothing. -/
theorem not_holds_of_decodeFree {d : Datum} {v : Value} (h : decodeFree d = .ok v)
    (e : Document) : ¬v.Holds e := by
  cases d with
  | array items =>
    obtain ⟨vs, hvs, h⟩ := Outcome.bind_eq_ok.1 h
    obtain rfl := Except.ok.inj h
    rintro (_ | _ | ⟨hv, hholds⟩)
    exact not_holds_of_decodeItems hvs _ hv e hholds
  | record members =>
    -- with a tag that is not known, or without one, the record is an object
    have hobject (h : (decodeMembers members >>= fun vs => pure (Value.object vs)) = .ok v) :
        ¬v.Holds e := by
      obtain ⟨vs, hvs, h⟩ := Outcome.bind_eq_ok.1 h
      obtain rfl := Except.ok.inj h
      rintro (_ | _ | _ | ⟨hm, hholds⟩)
      exact not_holds_of_decodeMembers hvs _ hm e hholds
    rw [decodeFree] at h
    split at h
    · obtain ⟨tagged, htagged, h⟩ := Outcome.bind_eq_ok.1 h
      cases tagged with
      | none => exact hobject h
      | some u =>
        obtain rfl := Except.ok.inj h
        exact not_holds_of_decodeTagged htagged e
    · exact hobject h
  | _ =>
    obtain rfl := Except.ok.inj h
    nofun

/-- The items of an array read freely include nothing. -/
theorem not_holds_of_decodeItems {ds : List Datum} {vs : List Value}
    (h : decodeItems ds = .ok vs) : ∀ v ∈ vs, ∀ e, ¬v.Holds e := by
  cases ds with
  | nil =>
    obtain rfl := Except.ok.inj h
    exact fun v hv => absurd hv List.not_mem_nil
  | cons d rest =>
    obtain ⟨v, hv, h⟩ := Outcome.bind_eq_ok.1 h
    obtain ⟨vs', hvs, h⟩ := Outcome.bind_eq_ok.1 h
    obtain rfl := Except.ok.inj h
    intro u hu
    rcases List.mem_cons.1 hu with rfl | hu
    · exact not_holds_of_decodeFree hv
    · exact not_holds_of_decodeItems hvs u hu

/-- The members of a record read freely include nothing. -/
theorem not_holds_of_decodeMembers {ds : List (String × Datum)} {vs : List (String × Value)}
    (h : decodeMembers ds = .ok vs) : ∀ m ∈ vs, ∀ e, ¬m.2.Holds e := by
  cases ds with
  | nil =>
    obtain rfl := Except.ok.inj h
    exact fun v hv => absurd hv List.not_mem_nil
  | cons d rest =>
    obtain ⟨k, d⟩ := d
    obtain ⟨v, hv, h⟩ := Outcome.bind_eq_ok.1 h
    obtain ⟨vs', hvs, h⟩ := Outcome.bind_eq_ok.1 h
    obtain rfl := Except.ok.inj h
    intro u hu
    rcases List.mem_cons.1 hu with rfl | hu
    · exact not_holds_of_decodeFree hv
    · exact not_holds_of_decodeMembers hvs u hu

end

/-- A value of a declared type includes nothing. -/
theorem not_holds_of_decode {ty : FieldType} {d : Datum} {v : Value} (h : decode ty d = .ok v)
    (e : Document) : ¬v.Holds e := by
  unfold decode at h
  split at h
  case h_9 =>
    obtain ⟨p, -, h⟩ := Outcome.bind_eq_ok.1 h
    obtain rfl := Except.ok.inj h
    nofun
  -- points and polygons are read freely if they do not fit
  case h_10 | h_11 =>
    split at h
    · obtain rfl := Except.ok.inj h
      nofun
    · exact not_holds_of_decodeFree h e
  all_goals first
    | exact not_holds_of_decodeFree h e
    | obtain rfl := Except.ok.inj h
      nofun

/-- **One more member** leaves the id of the document and at most adds a field, whose value
includes nothing. -/
theorem decodeMember_cases {schema : ClassSchema} {d d' : Document} {key : String} {v : Datum}
    (h : decodeMember schema d key v = .ok d') :
    d'.objectId = d.objectId ∧ (d'.fields = d.fields ∨
      ∃ name u, (∀ e, ¬Value.Holds u e) ∧ d'.fields = Members.insert name u d.fields) := by
  have hfield {name : String} {read : Outcome Value} (hread : ∀ u, read = .ok u → ∀ e, ¬u.Holds e)
      (h : (read >>= fun u => pure { d with fields := Members.insert name u d.fields }) = .ok d') :
      d'.objectId = d.objectId ∧ (d'.fields = d.fields ∨
        ∃ name u, (∀ e, ¬Value.Holds u e) ∧ d'.fields = Members.insert name u d.fields) := by
    obtain ⟨u, hu, h⟩ := Outcome.bind_eq_ok.1 h
    obtain rfl := Except.ok.inj h
    exact ⟨rfl, .inr ⟨name, u, hread u hu, rfl⟩⟩
  have hin {ty : FieldType} {name : String} (u : Value)
      (h : (decode ty v).inField name = .ok u) : ∀ e, ¬u.Holds e :=
    not_holds_of_decode (Outcome.inField_eq_ok.1 h)
  -- the id, the permission lists and the time stamps become no fields
  unfold decodeMember at h
  split at h
  · exact Except.ok.inj h ▸ ⟨rfl, .inl rfl⟩
  split at h
  · exact Except.ok.inj h ▸ ⟨rfl, .inl rfl⟩
  split at h
  · exact Except.ok.inj h ▸ ⟨rfl, .inl rfl⟩
  split at h
  · split at h
    · obtain rfl := Except.ok.inj h
      exact ⟨rfl, .inr ⟨"ACL", .acl _, nofun, rfl⟩⟩
    · exact Except.ok.inj h ▸ ⟨rfl, .inl rfl⟩
  split at h
  · exact hfield hin h
  · split at h
    · exact hfield hin h
    · exact hfield (fun _ => not_holds_of_decodeFree) h

/-- **A document read from a record** has its id and includes nothing. -/
theorem of_decodeDocument {schema : ClassSchema} {r : Record} {d : Document}
    (h : decodeDocument schema r = .ok d) : r.id? = some d.objectId ∧ ∀ e, ¬d.Holds e := by
  obtain ⟨id, hid, h⟩ := Outcome.bind_eq_ok.1 h
  obtain ⟨d', hd', h⟩ := Outcome.bind_eq_ok.1 h
  obtain rfl := Except.ok.inj h
  obtain ⟨hread, hnothing⟩ : d'.objectId = id ∧ ∀ e, ¬d'.Holds e := by
    refine Outcome.foldlM_induction (P := fun d => d.objectId = id ∧ ∀ e, ¬Document.Holds d e) hd'
      ⟨rfl, fun e ⟨_, hf, _⟩ => absurd hf List.not_mem_nil⟩ ?_
    rintro d ⟨hread, hnothing⟩ m - d'' hd''
    obtain ⟨hsame, hfields⟩ := decodeMember_cases hd''
    refine ⟨hsame.trans hread, fun e ⟨f, hf, hholds⟩ => ?_⟩
    rcases hfields with hfields | ⟨name, u, hu, hfields⟩
    · exact hnothing e ⟨f, hfields ▸ hf, hholds⟩
    · rcases Members.mem_insert (hfields ▸ hf) with rfl | hf
      · exact hu e hholds
      · exact hnothing e ⟨f, hf, hholds⟩
  constructor
  · rw [Outcome.ofOption_eq_ok.1 hid]
    exact congrArg some hread.symm
  · rintro e ⟨f, hf, hholds⟩
    rcases Members.mem_insertAll hf with hf | hf
    · obtain ⟨relation, -, rfl⟩ := List.mem_map.1 hf
      exact nomatch hholds
    · exact hnothing e ⟨f, hf, hholds⟩

end Stored

/-! ### Putting objects in place -/

/-- The values that resolving includes may change: references, relations, and arrays. -/
def Value.Refers : Value → Prop
  | .pointer _ | .relation _ | .array _ => True
  | _ => False

/-- **The same document**, read before and after its references were resolved: it has the same
header and the same fields, and a field has another value only if it held references. -/
structure Document.Extends (d e : Document) : Prop where
  className : e.className = d.className
  objectId : e.objectId = d.objectId
  createdAt : e.createdAt = d.createdAt
  updatedAt : e.updatedAt = d.updatedAt
  fields : List.Forall₂ (fun f g => g.1 = f.1 ∧ (g.2 = f.2 ∨ f.2.Refers)) d.fields e.fields

/-- A document with everything that it includes. -/
def Document.Throughout (P : Document → Prop) (d : Document) : Prop := P d ∧ ∀ e, d.Holds e → P e

namespace Document.Extends

theorem refl (d : Document) : d.Extends d where
  className := rfl
  objectId := rfl
  createdAt := rfl
  updatedAt := rfl
  fields := List.forall₂_same.2 fun _ _ => ⟨rfl, .inl rfl⟩

theorem trans {d e e' : Document} (h : d.Extends e) (h' : e.Extends e') : d.Extends e' where
  className := h'.className.trans h.className
  objectId := h'.objectId.trans h.objectId
  createdAt := h'.createdAt.trans h.createdAt
  updatedAt := h'.updatedAt.trans h.updatedAt
  fields := by
    refine Outcome.forall₂_trans ?_ h.fields h'.fields
    rintro f g g' ⟨hkey, heq | hrefers⟩ ⟨hkey', hvalue'⟩
    · exact ⟨hkey'.trans hkey, heq ▸ hvalue'⟩
    · exact ⟨hkey'.trans hkey, .inr hrefers⟩

/-- Every field was one of the document as it was read. -/
theorem exists_field {d e : Document} (h : d.Extends e) {f : String × Value}
    (hf : f ∈ e.fields) : ∃ g ∈ d.fields, f.1 = g.1 := by
  obtain ⟨g, hg, hkey, -⟩ := Outcome.exists_of_forall₂ h.fields hf
  exact ⟨g, hg, hkey⟩

end Document.Extends

namespace Includes

variable {P : Document → Prop} {objects : Members Document}

/-- What stands in place of a reference holds nothing but what was reached. -/
theorem of_holds_expand (hobjects : ∀ d ∈ Members.values objects, d.Throughout P) {p : Pointer}
    {e : Document} (h : (expand objects p).Holds e) : P e := by
  unfold expand at h
  split at h
  · rename_i d hd
    have hthroughout := hobjects d (Members.mem_values_of_lookup hd)
    cases h with
    | here => exact hthroughout.1
    | inner hf hholds => exact hthroughout.2 e ⟨_, hf, hholds⟩
  · exact nomatch h

/-- **Putting objects in place** of references, a value holds what it held and what was
reached. -/
theorem of_holds_splice (hobjects : ∀ d ∈ Members.values objects, d.Throughout P)
    {links : Option (List Pointer)} {v : Value} (hv : ∀ e, v.Holds e → P e) {e : Document}
    (h : (splice objects links v).Holds e) : P e := by
  cases v with
  | pointer p => exact of_holds_expand hobjects h
  | relation className =>
    obtain _ | _ | ⟨hmem, hholds⟩ := h
    obtain ⟨p, -, hp⟩ := List.mem_filterMap.1 hmem
    refine of_holds_expand hobjects (p := p) ?_
    obtain ⟨d, hd, rfl⟩ := Option.map_eq_some_iff.1 hp
    rwa [expand, hd]
  | array items =>
    obtain _ | _ | ⟨hmem, hholds⟩ := h
    obtain ⟨item, hitem, rfl⟩ := List.mem_map.1 hmem
    split at hholds
    · exact of_holds_expand hobjects hholds
    · exact hv e (.item hitem hholds)
  | _ => exact hv e h

theorem refers_of_splice {links : Option (List Pointer)} (v : Value) :
    splice objects links v = v ∨ v.Refers := by
  cases v with
  | pointer _ | relation _ | array _ => exact .inr trivial
  | _ => exact .inl rfl

/-- A document stays the same while objects are put in place. -/
theorem extends_spliceDocument (reached : Reached) (key : String) (d : Document) :
    d.Extends (spliceDocument reached key d) where
  className := rfl
  objectId := rfl
  createdAt := rfl
  updatedAt := rfl
  fields := by
    refine List.forall₂_map_right_iff.2 (List.forall₂_same.2 fun f _ => ?_)
    by_cases hkey : f.1 = key
    · simp only [hkey, if_true, true_and]
      exact refers_of_splice f.2
    · simp [hkey]

/-- With objects in place, a document includes what it included and what was reached. -/
theorem of_holds_spliceDocument {reached : Reached} {key : String} {d : Document}
    (hreached : ∀ d ∈ Members.values reached.objects, d.Throughout P)
    (hd : ∀ e, d.Holds e → P e) {e : Document}
    (h : (spliceDocument reached key d).Holds e) : P e := by
  obtain ⟨f, hf, hholds⟩ := h
  obtain ⟨g, hg, rfl⟩ := List.mem_map.1 hf
  split at hholds
  · exact of_holds_splice hreached (fun e he => hd e ⟨g, hg, he⟩) hholds
  · exact hd e ⟨g, hg, hholds⟩

/-- Everything reached satisfies `P`, with everything that it includes. -/
def Pool.Throughout (P : Document → Prop) (pool : Pool) : Prop :=
  ∀ reached ∈ Members.values pool, ∀ d ∈ Members.values reached.objects, d.Throughout P

theorem throughout_lookup {pool : Pool} (h : Pool.Throughout P pool) (path : String) :
    ∀ d ∈ Members.values ((pool.lookup path).getD {}).objects, d.Throughout P := by
  cases hreached : pool.lookup path with
  | none => exact fun d hd => absurd hd List.not_mem_nil
  | some reached => exact h reached (Members.mem_values_of_lookup hreached)

/-- What holds while objects are put in place: the results are the documents they were, and
everything they include, and everything reached, satisfies `P`. -/
structure Resolving (P : Document → Prop) (results : List Document)
    (state : List Document × Pool) : Prop where
  same : List.Forall₂ Document.Extends results state.1
  included : ∀ d ∈ state.1, ∀ e, d.Holds e → P e
  reached : Pool.Throughout P state.2

/-- **One edge** more put in place. -/
theorem Resolving.spliceEdge (hP : ∀ d e, P d → Document.Extends d e → P e)
    {results : List Document} {state : List Document × Pool} (h : Resolving P results state)
    (edge : IncludeEdge) : Resolving P results (spliceEdge state edge) := by
  have hreached := throughout_lookup h.reached edge.path
  rw [Includes.spliceEdge]
  split
  case h_1 =>
    refine ⟨?_, fun d hd e he => ?_, h.reached⟩
    · refine Outcome.forall₂_trans (fun _ _ _ hd he => hd.trans he) h.same ?_
      exact List.forall₂_map_right_iff.2
        (List.forall₂_same.2 fun d _ => extends_spliceDocument _ _ d)
    · obtain ⟨d', hd', rfl⟩ := List.mem_map.1 hd
      exact of_holds_spliceDocument hreached (h.included d' hd') he
  case h_2 path _ =>
    -- below the roots, the objects that the parent path reached are replaced
    refine ⟨h.same, h.included, fun reached hmem d hd => ?_⟩
    obtain ⟨m, hm, rfl⟩ := List.mem_map.1 hmem
    obtain ⟨m', hm', rfl⟩ := List.mem_map.1 hm
    have hold := h.reached m'.2 (List.mem_map_of_mem hm')
    split at hd
    · obtain ⟨n, hn, rfl⟩ := List.mem_map.1 hd
      obtain ⟨n', hn', rfl⟩ := List.mem_map.1 hn
      obtain ⟨hhere, hinside⟩ := hold n'.2 (List.mem_map_of_mem hn')
      exact ⟨hP _ _ hhere (extends_spliceDocument _ _ _),
        fun e he => of_holds_spliceDocument hreached hinside he⟩
    · exact hold d hd

/-! ### Following paths -/

section

variable {m : Type → Type} [Monad m] (J : Judgement m) {fetcher : Fetcher m}

/-- **One level** reaches what the fetcher answers. -/
theorem throughout_resolveLevel
    (hobjects : ∀ c ids, J.holds (fun ds => ∀ d ∈ ds, d.Throughout P) (fetcher.objects c ids))
    (hlinks : ∀ c field ids, J.holds (fun _ => True) (fetcher.links c field ids)) (size : Nat)
    (results : List Document) {pool : Pool} (hpool : Pool.Throughout P pool)
    (level : List IncludeEdge) :
    J.holds (Pool.Throughout P) (resolveLevel fetcher size results pool level) := by
  have htargets (edge : IncludeEdge) (docs : List Document) :
      J.holds (fun _ => True) (edgeTargets fetcher edge docs) :=
    J.foldlM (fun _ _ _ _ => J.bind (hlinks _ _ _) fun _ _ => J.ofPure trivial) trivial
  refine J.bind (J.mapM (R := fun _ => True) fun edge _ => htargets edge _) fun perEdge _ => ?_
  refine J.bind (J.mapM fun batch _ => hobjects batch.1 batch.2) fun fetched hfetched => ?_
  have hobjects : ∀ d ∈ Members.values
      (fetched.flatten.foldl (fun acc d => Members.insert (keyOf d) d acc) []),
      d.Throughout P := by
    refine List.foldlRecOn
      (motive := fun acc => ∀ d ∈ Members.values acc, Document.Throughout P d) _ _
      (fun d hd => absurd hd List.not_mem_nil) fun acc hacc d hd => ?_
    obtain ⟨ds, hds, hd⟩ := List.mem_flatten.1 hd
    exact Members.forall_values_insert (hfetched ds hds d hd) hacc
  refine J.ofPure (List.foldlRecOn _ _ hpool fun pool hpool e _ => ?_)
  refine Members.forall_values_insert ?_ hpool
  -- what one edge reached is a part of what the level fetched
  refine List.foldlRecOn
    (motive := fun acc => ∀ d ∈ Members.values acc, Document.Throughout P d) _ _
    (fun d hd => absurd hd List.not_mem_nil) fun acc hacc p _ => ?_
  split
  · rename_i d hd
    exact Members.forall_values_insert (hobjects d (Members.mem_values_of_lookup hd)) hacc
  · exact hacc

/-- All levels reach what the fetcher answers. -/
theorem throughout_resolveLevels
    (hobjects : ∀ c ids, J.holds (fun ds => ∀ d ∈ ds, d.Throughout P) (fetcher.objects c ids))
    (hlinks : ∀ c field ids, J.holds (fun _ => True) (fetcher.links c field ids)) (size : Nat)
    (results : List Document) {pool : Pool} (hpool : Pool.Throughout P pool)
    (levels : List (List IncludeEdge)) :
    J.holds (Pool.Throughout P) (resolveLevels fetcher size results pool levels) := by
  induction levels generalizing pool with
  | nil => exact J.ofPure hpool
  | cons level rest ih =>
    exact J.bind (throughout_resolveLevel J hobjects hlinks size results hpool level)
      fun _ hpool => ih hpool

/-- **Resolved documents** are the documents they were, and everything that they include was
fetched, if they included nothing else before. -/
theorem resolve_guarantees [MonadExceptOf EngineError m]
    (hthrow : ∀ {α : Type} {Q : α → Prop} (e : EngineError), J.holds Q (throw e : m α))
    (hP : ∀ d e, P d → Document.Extends d e → P e)
    (hobjects : ∀ c ids, J.holds (fun ds => ∀ d ∈ ds, d.Throughout P) (fetcher.objects c ids))
    (hlinks : ∀ c field ids, J.holds (fun _ => True) (fetcher.links c field ids))
    (batchSize : Nat) {results : List Document}
    (hresults : ∀ d ∈ results, ∀ e, d.Holds e → P e) (paths : List String) :
    J.holds (fun ds => List.Forall₂ Document.Extends results ds ∧
      ∀ d ∈ ds, ∀ e, d.Holds e → P e) (resolve fetcher batchSize results paths) := by
  have hsame : List.Forall₂ Document.Extends results results :=
    List.forall₂_same.2 fun d _ => .refl d
  rw [resolve]
  split
  · exact hthrow _
  · rename_i tree _
    split
    · exact J.ofPure ⟨hsame, hresults⟩
    · refine J.bind (throughout_resolveLevels J hobjects hlinks _ results
        (fun _ h => absurd h List.not_mem_nil) _) fun pool hpool => J.ofPure ?_
      -- objects are put in place from the deepest level up, so those put in are whole
      have hstart : Resolving P results (results, pool) := ⟨hsame, hresults, hpool⟩
      have hend := List.foldlRecOn tree.levels.reverse.flatten _ hstart
        fun state h edge _ => h.spliceEdge hP edge
      exact ⟨hend.same, hend.included⟩

end

end Includes

end ObjectEngine
