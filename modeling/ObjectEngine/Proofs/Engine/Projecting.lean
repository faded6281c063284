import ObjectEngine.Proofs.Engine.Counting
import ObjectEngine.Proofs.Engine.Visibility
import ObjectEngine.Proofs.Store.Limits
import ObjectEngine.Proofs.Stored.Projecting

/-!
# Finds that return some of the fields

A find with keys is planned like that without, and a projection is added to its query
(`Plan.selection_keys`). The projection comes after everything else that the query does
(`Store.query_project`), so the same records are found, in the same order, and each of them is read
from the members under the projected keys. These are the keys that hold the header and the access
control list, and the keys of the fields that are asked for, but for those that are protected and
for relations, which are read from the schema (`Plan.ProjectsTo`).

So what is read has the fields that are kept (`Plan.isKept`), and each of them as it is in the whole
document, if the key of the field is the one that is heard. An internal field whose name is that of
a declared field with the mark of references is read as that field, but not projected with it, so it
is the fields that are usurped (`Stored.Usurped`) for which the two finds differ
(`Engine.find_keys_iff`). `Engine.not_find_keys_usurped` is a world with such a field.
-/

namespace ObjectEngine

/-- The document with the fields whose names are of a kind. -/
def Document.keeping (p : String → Bool) (d : Document) : Document :=
  { d with fields := d.fields.filter fun f => p f.1 }

/-- Whether a document has certain fields of another is decided field by field. -/
theorem Document.keeping_eq_iff {doc : Document} {fields : Members Value}
    (hdoc : Members.Sorted doc.fields) (hfields : fields.Sorted) {p q : String → Bool} :
    Document.keeping p { doc with fields } = (doc.keeping p).keeping q ↔ ∀ name, p name = true →
      fields.lookup name = if q name = true then doc.fields.lookup name else none := by
  have hlookup (name : String) : ((doc.keeping p).keeping q).fields.lookup name =
      if p name = true then if q name = true then doc.fields.lookup name else none else none := by
    rw [keeping, keeping, Members.lookup_filter_key, Members.lookup_filter_key]
    cases p name <;> cases q name <;> rfl
  constructor
  · intro h name hp
    have hname := congrArg (fun d : Document => d.fields.lookup name) h
    rw [hlookup, if_pos hp] at hname
    rw [← hname, keeping, Members.lookup_filter_key, if_pos hp]
  · intro h
    have hsame : (Document.keeping p { doc with fields }).fields =
        ((doc.keeping p).keeping q).fields := by
      refine Members.Sorted.ext (hfields.filter _) ((hdoc.filter _).filter _) fun name => ?_
      rw [hlookup, keeping, Members.lookup_filter_key]
      split
      · exact h name ‹_›
      · rfl
    exact congrArg (fun fields => { doc with fields }) hsame

theorem Stored.isRelation_iff {schema : ClassSchema} {field : String} :
    Stored.IsRelation schema field ↔ Indexing.isRelationField schema field = true := by
  rw [IsRelation, Indexing.isRelationField]
  cases schema.fieldType? field with
  | none => simp
  | some ty => cases ty <;> simp [FieldType.isRelation]

/-! ### Projections -/

namespace Plan

variable {schema : ClassSchema} {caller : Caller} {keys stored : List String}
  {field key : String}

/-- **A declared field** that is not protected is one that the key policy lets through. -/
theorem resolve_of_declared (hs : schema.Built) {ty : FieldType}
    (hty : schema.fieldType? field = some ty) (hprotected : caller.isProtected field = false) :
    resolve schema caller field = .ok (.declared ty false) := by
  have hname : isIdentifier field = true := hs.isIdentifier (Members.mem_of_lookup hty)
  have hdot := not_mem_of_isIdentifier hname
  obtain ⟨c, rest, hchars, hc⟩ := head_of_isIdentifier hname
  have hhead : field.toList.head? ≠ some '$' := by
    rw [hchars, List.head?_cons]
    exact fun h => absurd (Option.some.inj h ▸ hc) (by decide)
  have hempty : field ≠ "" := fun h => by
    rw [h] at hchars
    exact absurd hchars (by simp)
  unfold resolve
  simp only [Text.splitFirst_eq_none hdot, Text.split_of_not_mem hdot, pure_bind]
  simp [hhead, hempty, hprotected, isInternalField_of_isIdentifier hname, hty]
  rfl

/-- **The key that a projection returns** for a field that is asked for, if the field is neither
protected nor a relation. -/
def Projected (schema : ClassSchema) (caller : Caller) (asked key : String) : Prop :=
  ∃ ty, schema.fieldType? (Text.root asked) = some ty ∧ ty.isRelation = false ∧
    caller.isProtected (Text.root asked) = false ∧ Stored.rootKey schema (Text.root asked) = key

/-- **What a projection returns**: the header, the access control list, and what is asked for. -/
def ProjectsTo (schema : ClassSchema) (caller : Caller) (keys stored : List String) : Prop :=
  ∀ key, key ∈ stored ↔
    key ∈ projectionBase ∨ ∃ asked ∈ keys, Projected schema caller asked key

/-- **Keys that may be asked for**: each begins with a declared field, or with a protected one. -/
def Askable (schema : ClassSchema) (caller : Caller) (keys : List String) : Prop :=
  ∀ asked ∈ keys, schema.hasField (Text.root asked) = true ∨
    caller.isProtected (Text.root asked) = true

theorem Askable.hasField (h : Askable schema caller keys) {asked : String} (hasked : asked ∈ keys)
    (hprotected : caller.isProtected (Text.root asked) = false) :
    schema.hasField (Text.root asked) = true :=
  (h asked hasked).resolve_right (by simp [hprotected])

theorem marked_not_mem_projectionBase : Stored.pointerMark ++ field ∉ projectionBase := by
  intro h
  have hmark := (by decide : ∀ key ∈ projectionBase,
    (Text.afterStart? Stored.pointerMark key).isSome = false) _ h
  rw [Text.afterStart?_append] at hmark
  exact absurd hmark (by simp)

/-- Names are gathered one after another. -/
theorem exists_foldlM_gathering {α : Type} {step : List String → α → Outcome (List String)}
    {P : α → String → Prop} {asked : List α} (h : ∀ a ∈ asked, ∀ out,
      ∃ next, step out a = .ok next ∧ ∀ key, key ∈ next ↔ key ∈ out ∨ P a key) (out : List String) :
    ∃ stored, asked.foldlM step out = .ok stored ∧
      ∀ key, key ∈ stored ↔ key ∈ out ∨ ∃ a ∈ asked, P a key := by
  induction asked generalizing out with
  | nil => exact ⟨out, rfl, by simp⟩
  | cons a rest ih =>
    obtain ⟨hfirst, hrest⟩ := List.forall_mem_cons.1 h
    obtain ⟨next, hnext, hmem⟩ := hfirst out
    obtain ⟨stored, hstored, hmem'⟩ := ih hrest next
    refine ⟨stored, ?_, fun key => ?_⟩
    · rw [List.foldlM_cons]
      exact Outcome.bind_eq_ok.2 ⟨next, hnext, hstored⟩
    · rw [hmem', hmem]
      simp [or_assoc]

/-- **A projection succeeds** for declared and for protected fields. -/
theorem exists_projection (hs : schema.Built) (hkeys : Askable schema caller keys) :
    ∃ stored, projection schema caller keys = .ok stored ∧
      ProjectsTo schema caller keys stored := by
  refine exists_foldlM_gathering (fun asked hasked out => ?_) projectionBase
  dsimp only
  cases hprotected : caller.isProtected (Text.root asked) with
  | true =>
    refine ⟨out, rfl, fun key => (or_iff_left ?_).symm⟩
    rintro ⟨-, -, -, h, -⟩
    exact Bool.noConfusion (hprotected.symm.trans h)
  | false =>
    obtain ⟨ty, hty⟩ := Option.isSome_iff_exists.1 (hkeys.hasField hasked hprotected)
    rw [if_neg Bool.false_ne_true, resolve_of_declared hs hty hprotected]
    cases hrelation : ty.isRelation with
    | true =>
      refine ⟨out, if_pos hrelation, fun key => (or_iff_left ?_).symm⟩
      rintro ⟨ty', hty', h, -⟩
      obtain rfl := Option.some.inj (hty.symm.trans hty')
      exact Bool.noConfusion (hrelation.symm.trans h)
    | false =>
      have hname := hs.isIdentifier (Members.mem_of_lookup hty)
      have hkey : Stored.keyPath schema (Text.root asked) =
          Stored.rootKey schema (Text.root asked) := Stored.keyPath_eq hname
      have hprojected {key : String} : Projected schema caller asked key ↔
          Stored.rootKey schema (Text.root asked) = key :=
        ⟨fun ⟨_, _, _, _, h⟩ => h, fun h => ⟨ty, hty, hrelation, hprotected, h⟩⟩
      have hplain : ¬(Target.declared ty false).isRelation = true := by
        simpa [Target.isRelation] using hrelation
      refine ⟨_, Outcome.bind_eq_ok.2 ⟨_, rfl, if_neg hplain⟩, fun key => ?_⟩
      rw [hkey, hprojected]
      split
      case isTrue hmem =>
        refine (or_iff_left_of_imp ?_).symm
        rintro rfl
        simpa using hmem
      case isFalse => simp [eq_comm]

/-- A key that is projected has no full stop. -/
theorem root_of_projected (hs : schema.Built) (h : Projected schema caller field key) :
    Text.root key = key := by
  obtain ⟨ty, hty, -, -, rfl⟩ := h
  have hname := hs.isIdentifier (Members.mem_of_lookup hty)
  have hroot : Text.root (Text.root field) = Text.root field :=
    Text.root_of_split (Text.split_of_not_mem (Text.dot_not_mem_root field))
  have hkey := Stored.root_keyPath schema (Text.root field)
  rwa [hroot, Stored.keyPath_eq hname] at hkey

/-- **What a projection leaves of a record** are the members with the keys that it returns. -/
theorem project_eq_filter (hs : schema.Built) (hmem : ProjectsTo schema caller keys stored)
    (r : Record) : r.project stored = r.filter fun m => stored.contains m.1 := by
  have hroot {key : String} (hkey : key ∈ stored) : Text.root key = key := by
    rcases (hmem key).1 hkey with hbase | ⟨asked, -, hasked⟩
    · exact (by decide : ∀ key ∈ projectionBase, Text.root key = key) key hbase
    · exact root_of_projected hs hasked
  have hid : Record.idKey ∈ stored := (hmem _).2 (.inl (by decide))
  refine List.filter_congr fun m _ => ?_
  rw [Bool.eq_iff_iff]
  simp only [Bool.or_eq_true, decide_eq_true_eq, List.any_eq_true, List.contains_iff_mem]
  constructor
  · rintro (h | ⟨key, hkey, h⟩)
    · exact h ▸ hid
    · rwa [← h, hroot hkey]
  · exact fun h => .inr ⟨m.1, h, hroot h⟩

/-- **Whether a find with keys keeps a field**: the access control list, a relation, or a field that
one of the keys begins with. -/
def isKept (schema : ClassSchema) (keys : List String) (field : String) : Bool :=
  field = "ACL" || Indexing.isRelationField schema field ||
    keys.any fun key => Text.root key = field

theorem isKept_iff : isKept schema keys field = true ↔
    field = "ACL" ∨ Stored.IsRelation schema field ∨ ∃ asked ∈ keys, Text.root asked = field := by
  simp [isKept, Stored.isRelation_iff, or_assoc]

end Plan

/-! ### Documents -/

namespace Engine

open Plan (isKept projectionBase Askable ProjectsTo)

variable {schema : ClassSchema} {caller : Caller} {keys stored : List String} {r : Record}
  {d : Document}

theorem visible_eq (hcaller : caller.privileged = false) (d : Document) : visible caller d =
    d.keeping fun field => !isInternalField field && !caller.isProtected field := by
  rw [visible, hcaller]
  rfl

section

variable (hs : schema.Built) (hmem : ProjectsTo schema caller keys stored) {field : String}

include hs hmem

/-- The marked name of a field is projected only if it is the key of the field. -/
theorem eq_rootKey_of_projected (h : Stored.pointerMark ++ field ∈ stored) :
    Stored.pointerMark ++ field = Stored.rootKey schema field := by
  rcases (hmem _).1 h with hbase | ⟨asked, -, ty, hty, -, -, hkey⟩
  · exact absurd hbase Plan.marked_not_mem_projectionBase
  · have hfield := Plan.fieldOf_rootKey_of_declared hs hty
    rw [hkey, Stored.fieldOf_pointerMark] at hfield
    rw [← hkey, hfield]

/-- **What is projected speaks for kept fields** only. -/
theorem isKept_of_speaker {key : String} {v : Value} (hkey : key ∈ stored)
    (h : Stored.Says schema r key field v) : isKept schema keys field = true := by
  have hfield := h.fieldOf_eq
  rw [Plan.isKept_iff]
  rcases (hmem key).1 hkey with hbase | ⟨asked, hasked, ty, hty, -, -, hroot⟩
  · rcases h.key_eq with rfl | rfl | rfl
    · exact .inl hfield.symm
    · exact absurd hbase Plan.marked_not_mem_projectionBase
    · exact absurd hfield
        ((by decide : ∀ key ∈ projectionBase, Stored.fieldOf key ≠ key) key hbase)
  · rw [← hroot, Plan.fieldOf_rootKey_of_declared hs hty] at hfield
    exact .inr (.inr ⟨asked, hasked, hfield⟩)

/-- The key of a kept field is projected, if the field is shown to the caller and no relation. -/
theorem rootKey_mem_of_isKept (hkeys : Askable schema caller keys)
    (hkept : isKept schema keys field = true) (hprotected : caller.isProtected field = false)
    (hrelation : ¬Stored.IsRelation schema field) :
    schema.hasField field = true ∧ Stored.rootKey schema field ∈ stored := by
  have haccess : Stored.aclKey ∈ projectionBase := by decide
  rcases Plan.isKept_iff.1 hkept with rfl | h | ⟨asked, hasked, rfl⟩
  · exact ⟨Option.isSome_of_eq_some (Stored.fieldType?_access hs), (hmem _).2 (.inl haccess)⟩
  · exact absurd h hrelation
  · have hdeclared := hkeys.hasField hasked hprotected
    obtain ⟨ty, hty⟩ := Option.isSome_iff_exists.1 hdeclared
    refine ⟨hdeclared, (hmem _).2 (.inr ⟨asked, hasked, ty, hty, ?_, hprotected, rfl⟩)⟩
    cases ty with
    | relation target => exact absurd ⟨target, hty⟩ hrelation
    | _ => rfl

/-- **A field of a projected record** is read as it is kept of the whole record, if it is a
relation, not kept, or not usurped, and only then. -/
theorem lookup_projected_iff (hkeys : Askable schema caller keys) {written doc part : Document}
    (hr : Stored.encodeDocument schema written = .ok r)
    (hdoc : Stored.decodeDocument schema r = .ok doc)
    (hpart : Stored.decodeDocument schema (r.filter fun m => stored.contains m.1) = .ok part)
    (hprotected : caller.isProtected field = false) :
    (part.fields.lookup field =
        if isKept schema keys field = true then doc.fields.lookup field else none) ↔
      (isKept schema keys field = true → ¬Stored.IsRelation schema field →
        ¬Stored.Usurped schema r field) := by
  by_cases hrelation : Stored.IsRelation schema field
  · refine iff_of_true ?_ fun _ h => absurd hrelation h
    obtain ⟨target, hty⟩ := hrelation
    rw [if_pos (Plan.isKept_iff.2 (.inr (.inl ⟨target, hty⟩))),
      Stored.lookup_decodeDocument_relation hs hpart hty,
      Stored.lookup_decodeDocument_relation hs hdoc hty]
  by_cases hkept : isKept schema keys field = true
  · obtain ⟨hdeclared, hown⟩ := rootKey_mem_of_isKept hs hmem hkeys hkept hprotected hrelation
    rw [if_pos hkept, Stored.lookup_eq_iff_not_usurped hs hr hdoc hpart hdeclared hrelation
      (List.contains_iff_mem.2 hown)
      fun h => eq_rootKey_of_projected hs hmem (List.contains_iff_mem.1 h)]
    exact ⟨fun h _ _ => h, fun h => h hkept hrelation⟩
  · refine iff_of_true ?_ fun h => absurd h hkept
    rw [if_neg hkept]
    exact Stored.lookup_filter_eq_none hs (Stored.sorted_encodeDocument hr) hpart hrelation
      fun key v hkey h => hkept (isKept_of_speaker hs hmem (List.contains_iff_mem.1 hkey) h)

/-- **A projected record is read for a caller** as a document with the same header, which has
exactly the kept fields of the whole document if and only if none of them is usurped. -/
theorem readDocument_project_iff (hcaller : caller.privileged = false)
    (hkeys : Askable schema caller keys) {written : Document}
    (hr : Stored.encodeDocument schema written = .ok r)
    (hread : readDocument schema caller r = .ok d) :
    ∃ fields, readDocument schema caller (r.project stored) = .ok { d with fields } ∧
      ({ d with fields } = d.keeping (isKept schema keys) ↔ ∀ field,
        isKept schema keys field = true → caller.isProtected field = false →
          ¬Stored.IsRelation schema field → ¬Stored.Usurped schema r field) := by
  obtain ⟨doc, hdoc, hread⟩ := Outcome.bind_eq_ok.1 hread
  obtain rfl := Except.ok.inj hread
  have hbase {key : String} (h : key ∈ projectionBase) : stored.contains key = true :=
    List.contains_iff_mem.2 ((hmem key).2 (.inl h))
  obtain ⟨fields, hpart⟩ := Stored.exists_decodeDocument_filter stored.contains
    (hbase (by decide)) (hbase (by decide)) (hbase (by decide)) hdoc
  rw [Plan.project_eq_filter hs hmem, visible_eq hcaller]
  refine ⟨_, Outcome.bind_eq_ok.2 ⟨_, hpart, congrArg Except.ok (visible_eq hcaller _)⟩, ?_⟩
  have hlookup {field : String} (hprotected : caller.isProtected field = false) :=
    lookup_projected_iff hs hmem hkeys hr hdoc hpart hprotected
  have hsame := Document.keeping_eq_iff (Stored.sorted_decodeDocument hdoc)
    (Stored.sorted_decodeDocument hpart) (q := isKept schema keys)
    (p := fun field => !isInternalField field && !caller.isProtected field)
  refine hsame.trans ⟨fun h field hkept hprotected hrelation => ?_, fun h field hshown => ?_⟩
  · obtain ⟨hdeclared, -⟩ := rootKey_mem_of_isKept hs hmem hkeys hkept hprotected hrelation
    obtain ⟨ty, hty⟩ := Option.isSome_iff_exists.1 hdeclared
    have hinternal := isInternalField_of_isIdentifier (hs.isIdentifier (Members.mem_of_lookup hty))
    refine (hlookup hprotected).1 (h field ?_) hkept hrelation
    rw [hinternal, hprotected]
    rfl
  · obtain ⟨-, hprotected⟩ := Bool.and_eq_true_iff.1 hshown
    have hprotected : caller.isProtected field = false := by simpa using hprotected
    exact (hlookup hprotected).2 fun hkept => h field hkept hprotected

/-- **Projected records are read** one by one like the whole ones. -/
theorem mapM_readDocument_project_iff (hcaller : caller.privileged = false)
    (hkeys : Askable schema caller keys) {records : List Record} {results : List Document}
    (hrecords : ∀ r ∈ records, ∃ written, Stored.encodeDocument schema written = .ok r)
    (hread : records.mapM (readDocument schema caller) = .ok results) :
    ∃ results', (records.map (Record.project stored)).mapM (readDocument schema caller) =
        .ok results' ∧
      List.Forall₂ (fun d d' => ∃ fields, d' = { d with fields }) results results' ∧
      (results' = results.map (Document.keeping (isKept schema keys)) ↔ ∀ r ∈ records, ∀ field,
        isKept schema keys field = true → caller.isProtected field = false →
          ¬Stored.IsRelation schema field → ¬Stored.Usurped schema r field) := by
  induction records generalizing results with
  | nil =>
    obtain rfl := Except.ok.inj hread
    exact ⟨[], rfl, .nil, by simp⟩
  | cons r rest ih =>
    obtain ⟨⟨written, hwritten⟩, hrest⟩ := List.forall_mem_cons.1 hrecords
    rw [List.mapM_cons] at hread
    obtain ⟨d, hd, hread⟩ := Outcome.bind_eq_ok.1 hread
    obtain ⟨ds, hds, hread⟩ := Outcome.bind_eq_ok.1 hread
    obtain rfl := Except.ok.inj hread
    obtain ⟨fields, hproject, hfirst⟩ :=
      readDocument_project_iff hs hmem hcaller hkeys hwritten hd
    obtain ⟨ds', hds', hheaders, hothers⟩ := ih hrest hds
    refine ⟨{ d with fields } :: ds', ?_, .cons ⟨fields, rfl⟩ hheaders, ?_⟩
    · rw [List.map_cons, List.mapM_cons]
      exact Outcome.bind_eq_ok.2 ⟨_, hproject, Outcome.bind_eq_ok.2 ⟨_, hds', rfl⟩⟩
    · rw [List.map_cons, List.cons.injEq, hfirst, hothers, List.forall_mem_cons]

end

end Engine

/-! ### Queries -/

namespace Store

variable {s : Store} {name : String} {sel : Selection} {keys : List String} {rs : List Record}

theorem shape_project (hsel : sel.projection = none) (found : List Record) :
    shape { sel with projection := some keys } found =
      (shape sel found).map (Record.project keys) := by
  simp only [shape, hsel]

/-- **A projection comes last**: it changes neither what a query finds nor how long it takes. -/
theorem query_project (hsel : sel.projection = none) :
    s.query name { sel with projection := some keys } =
      ((s.query name sel).1.map (List.map (Record.project keys)), (s.query name sel).2) := by
  rw [show s.query name sel = _ from query_eq s name sel sel.maxTimeMs]
  refine (query_eq s name { sel with projection := some keys } sel.maxTimeMs).trans ?_
  refine Prod.ext ?_ rfl
  dsimp only
  cases (filterRecords sel.collation sel.filter
    (Members.values (s.collection name).records)).1 with
  | error e => rfl
  | ok found => exact congrArg Except.ok (shape_project hsel found)

theorem fst_underLimit_map {α β : Type} (limit : Option Nat) (work : Outcome α × Nat)
    (f : α → β) : (underLimit limit (work.1.map f, work.2)).1 =
      (underLimit limit work).1.map f := by
  obtain ⟨_ | a, delay⟩ := work
  · rfl
  · cases limit with
    | none => rfl
    | some ms =>
      simp only [underLimit, Except.map]
      split <;> rfl

/-- So a query that succeeds also does with a projection. -/
theorem run_find_project (keys : List String) (hsel : sel.projection = none)
    (h : (s.run (.find name sel none)).outcome = .ok rs) :
    (s.run (.find name { sel with projection := some keys } none)).outcome =
      .ok (rs.map (Record.project keys)) := by
  have hdue := not_due_of_run h
  rw [outcome_find hdue] at h ⊢
  rw [query_project hsel, fst_underLimit_map, h]
  rfl

end Store

/-- The options of a find that is asked for some of the fields. -/
def FindOptions.withKeys (options : FindOptions) (keys : List String) : FindOptions :=
  { options with keys := some keys }

/-- **The query of a find with keys** is that without, and a projection. -/
theorem Plan.selection_keys {schema : ClassSchema} {policy : Policy} {f : Filter}
    {options : FindOptions} {sel : Selection} {keys stored : List String}
    (h : selection schema policy f options = .ok sel) (hnone : options.keys = none)
    (hstored : projection schema policy.caller keys = .ok stored) :
    sel.projection = none ∧ selection schema policy f (options.withKeys keys) =
      .ok { sel with projection := some stored } := by
  obtain ⟨planned, sort, none?, hplanned, hsort, hkeys, rfl⟩ := parts_of_selection h
  rw [hnone] at hkeys
  obtain rfl := Except.ok.inj hkeys
  refine ⟨rfl, ?_⟩
  simp only [selection, FindOptions.withKeys, hplanned, hsort, hstored]
  rfl

/-! ### Finds -/

namespace Engine

open Plan (isKept Askable)

variable {config : Config} {caller : Caller} {className : String} {schema : ClassSchema}
  {f : Filter} {options : FindOptions} {keys : List String} {cache : SchemaCache} {w : World}
  {results : List Document}

/-- Work that goes on after a success comes to what it then comes to. -/
theorem outcome_runIn_bind {α β : Type} {work : Action α} {next : α → Action β}
    {cache' : SchemaCache} {w' : World} {a : α} (h : work.runIn cache w = ((.ok a, cache'), w')) :
    ((work >>= next).runIn cache w).1.1 = ((next a).runIn cache' w').1.1 := by
  rw [Action.runIn_bind, h]

theorem outcome_runIn_guarded {α : Type} {work : Action α} {a : α}
    (h : (work.runIn cache w).1.1 = .ok a) : ((guarded config work).runIn cache w).1.1 = .ok a := by
  rw [Action.runIn_guarded]
  rcases hwork : work.runIn cache w with ⟨⟨_ | a', cache'⟩, w'⟩
  · simp [hwork] at h
  · rw [hwork] at h
    exact h

/-- **A find without includes** reads the schema and looks up the relations of its filter, plans a
query, and reads what the query answers. -/
theorem find_eq_ok_iff (hincludes : options.includes = []) :
    ((find config caller className f options).runIn cache w).1.1 = .ok results ↔
      ∃ schema reduced v sel, ∃ records : List Record,
        Prepared className f cache w schema reduced v ∧
        Plan.selection schema (policy config caller) reduced options = .ok sel ∧
        (v.store.run (.find className sel none)).outcome = .ok records ∧
        records.mapM (readDocument schema caller) = .ok results := by
  constructor
  · intro h
    obtain ⟨schema, reduced, cache', v, hprepared, h⟩ := exists_prepared (Action.runIn_of_guarded h)
    obtain ⟨sel, cache₁, v₁, hselected, h⟩ := Action.exists_of_runIn_bind h
    obtain ⟨hout, rfl⟩ := Prod.mk.inj hselected
    obtain ⟨hsel, -⟩ := Prod.mk.inj hout
    obtain ⟨records, cache₂, v₂, hfind, h⟩ := Action.exists_of_runIn_bind h
    obtain ⟨read, cache₃, v₃, hdecoded, h⟩ := Action.exists_of_runIn_bind h
    obtain ⟨hread, -⟩ := Prod.mk.inj (Prod.mk.inj hdecoded).1
    rw [hincludes] at h
    obtain rfl : read = results := Except.ok.inj h
    exact ⟨schema, reduced, v, sel, records, hprepared, hsel, congrArg (fun r => r.1.1) hfind,
      hread⟩
  · rintro ⟨schema, reduced, v, sel, records, hprepared, hsel, hfind, hread⟩
    obtain ⟨cache', w', hschema, hreduced⟩ := hprepared.read
    have hlooked : Action.runIn (liftM (reduceRelations schema f) : Action Filter) cache' w' =
        ((.ok reduced, cache'), v) := by
      refine (Action.runIn_ofStore (reduceRelations schema f) cache' w').trans ?_
      rw [StoreAction.outcomeIn, hreduced]
    have hplanned : Action.runIn (liftM (Plan.selection schema (policy config caller) reduced
        options) : Action Selection) cache' v = ((.ok sel, cache'), v) :=
      congrArg (fun outcome => ((outcome, cache'), v)) hsel
    obtain ⟨v', hcalled⟩ : ∃ v', Action.runIn (liftM (Program.call (.find className sel none)) :
        Action (List Record)) cache' v = ((.ok records, cache'), v') :=
      ⟨_, congrArg (fun outcome => ((outcome, cache'), _)) hfind⟩
    have hdecoded : Action.runIn (liftM (records.mapM (readDocument schema caller)) :
        Action (List Document)) cache' v' = ((.ok results, cache'), v') :=
      congrArg (fun outcome => ((outcome, cache'), v')) hread
    refine outcome_runIn_guarded ((outcome_runIn_bind hschema).trans ?_)
    refine (outcome_runIn_bind hlooked).trans ((outcome_runIn_bind hplanned).trans ?_)
    refine (outcome_runIn_bind hcalled).trans ((outcome_runIn_bind hdecoded).trans ?_)
    rw [hincludes]
    rfl

/-- **Projection commutes with reading** where no field is usurped, and only there. A find for a
caller without privilege that succeeds without keys also does with them. It returns documents with
the same headers in the same order, and each has exactly the kept fields of the whole document, if
and only if none of these is usurped in the records that are found. -/
theorem find_keys_iff (hs : schema.Built) (hcaller : caller.privileged = false)
    (hschema : ((Action.schema className).runIn cache w).1.1 = .ok schema)
    (hrecords : ∀ r ∈ Members.values (w.store.collection className).records,
      ∃ written, Stored.encodeDocument schema written = .ok r)
    (hkeys : Askable schema caller keys)
    (hnone : options.keys = none) (hincludes : options.includes = [])
    (h : ((find config caller className f options).runIn cache w).1.1 = .ok results) :
    ∃ (found : List Record) (results' : List Document),
      (∀ r ∈ found, r ∈ Members.values (w.store.collection className).records) ∧
      found.mapM (readDocument schema caller) = .ok results ∧
      ((find config caller className f (options.withKeys keys)).runIn cache w).1.1 =
        .ok results' ∧
      List.Forall₂ (fun d d' => ∃ fields, d' = { d with fields }) results results' ∧
      (results' = results.map (Document.keeping (isKept schema keys)) ↔ ∀ r ∈ found, ∀ field,
        isKept schema keys field = true → caller.isProtected field = false →
          ¬Stored.IsRelation schema field → ¬Stored.Usurped schema r field) := by
  obtain ⟨schema', reduced, v, sel, records, hprepared, hsel, hanswered, hread⟩ :=
    (find_eq_ok_iff hincludes).1 h
  obtain rfl : schema' = schema := Except.ok.inj (hprepared.schema_eq.symm.trans hschema)
  -- the keys come into the projection, which comes last in the query
  obtain ⟨stored, hstored, hmem⟩ := Plan.exists_projection hs hkeys
  obtain ⟨hwhole, hsel'⟩ := Plan.selection_keys hsel hnone hstored
  have hanswered' := Store.run_find_project stored hwhole hanswered
  obtain ⟨found, hfound, hstored⟩ := Store.exists_found (Store.run_ok hanswered).answers
  obtain rfl : records = found := by rw [hfound, Store.map_shown, hwhole]
  have hin (r : Record) (hr : r ∈ records) :
      r ∈ Members.values (w.store.collection className).records :=
    hprepared.keeps className ▸ (hstored r hr).1
  obtain ⟨results', hread', hheaders, hiff⟩ := mapM_readDocument_project_iff hs hmem hcaller hkeys
    (fun r hr => hrecords r (hin r hr)) hread
  have hincludes' : (options.withKeys keys).includes = [] := hincludes
  exact ⟨records, results', hin, hread, (find_eq_ok_iff hincludes').2
    ⟨schema', reduced, v, _, _, hprepared, hsel', hanswered', hread'⟩, hheaders, hiff⟩

/-- A world with objects of a class. -/
def diaryOf (records : List (String × Record)) : World where
  store := { collections := [
    ("Diary", { records }),
    ("_SCHEMA", { records := [("Diary", [("_id", .string "Diary"), ("author", .string "*_User"),
      ("likes", .string "relation<_User>"), ("secret", .string "string"),
      ("title", .string "string")])] })] }

/-- Of two objects one has an internal field under the name of its text with the mark of references,
and the text itself, which is heard. -/
def diary : World :=
  diaryOf [
    ("a", [("_id", .string "a"), ("_p_author", .string "_User$u"), ("secret", .string "s")]),
    ("b", [("_id", .string "b"), ("_p_title", .string "A$b"), ("title", .string "t")])]

/-- What the caller asks for: the text, or what is below it, a relation, and a protected field. -/
def diaryKeys : List String := ["title.first", "likes", "secret"]

/-- The objects are asked for in the order of their texts. -/
def diaryOptions : FindOptions := { sort := [⟨"title", true⟩] }

theorem records_diary : Members.values (diary.store.collection "Diary").records =
    [[("_id", .string "a"), ("_p_author", .string "_User$u"), ("secret", .string "s")],
      [("_id", .string "b"), ("_p_title", .string "A$b"), ("title", .string "t")]] := rfl

/-- The text is heard, and no other field that is kept has the mark. -/
theorem not_usurped_diary {r : Record} {field : String}
    (hr : r ∈ Members.values (diary.store.collection "Diary").records)
    (hkept : isKept Plan.diarySchema diaryKeys field = true) :
    ¬Stored.Usurped Plan.diarySchema r field := by
  rintro ⟨v, ⟨x, part, hx, -⟩, hown⟩
  have hfield : Stored.fieldOf (Stored.pointerMark ++ field) = field :=
    Stored.fieldOf_pointerMark field
  have hmem := List.mem_map_of_mem (f := Prod.fst) hx
  rw [records_diary, List.mem_pair] at hr
  rcases hr with rfl | rfl
  · have hauthor : ∀ key ∈ ["_id", "_p_author", "secret"],
        key = Stored.pointerMark ++ Stored.fieldOf key →
          isKept Plan.diarySchema diaryKeys (Stored.fieldOf key) = false := by decide
    have hnone := hauthor _ hmem (by rw [hfield])
    rw [hfield, hkept] at hnone
    exact absurd hnone (by decide)
  · have htitle : ∀ key ∈ ["_id", "_p_title", "title"],
        key = Stored.pointerMark ++ Stored.fieldOf key → Stored.fieldOf key = "title" := by decide
    obtain rfl : field = "title" := hfield.symm.trans (htitle _ hmem (by rw [hfield]))
    have htext := hown (.string "t")
      ⟨.string "t", { Stored.blank with fields := [("title", .string "t")] },
        List.mem_cons_of_mem _ (List.mem_cons_of_mem _ List.mem_cons_self), rfl,
        List.mem_singleton.2 rfl⟩
    exact absurd htext.1 (by decide)

theorem find_diary : ∃ results, ((find {} Plan.stranger.caller "Diary" .all diaryOptions).runIn
    { ttlMs := 5000 } diary).1.1 = .ok results := by
  have hfound : ((find {} Plan.stranger.caller "Diary" .all diaryOptions).runIn { ttlMs := 5000 }
      diary).1.1.toOption.map List.length = some 2 := by decide +kernel
  obtain ⟨results, hresults, -⟩ := Option.map_eq_some_iff.1 hfound
  exact ⟨results, Outcome.toOption_eq_some.1 hresults⟩

theorem find_keys_iff_diary : ∃ results results',
    ((find {} Plan.stranger.caller "Diary" .all diaryOptions).runIn { ttlMs := 5000 } diary).1.1 =
      .ok results ∧
    ((find {} Plan.stranger.caller "Diary" .all
      (diaryOptions.withKeys diaryKeys)).runIn { ttlMs := 5000 } diary).1.1 = .ok results' ∧
    results' = results.map (Document.keeping (isKept Plan.diarySchema diaryKeys)) := by
  obtain ⟨results, hfind⟩ := find_diary
  have hcaller : Plan.stranger.caller.privileged = false := rfl
  have hschema : ((Action.schema "Diary").runIn { ttlMs := 5000 } diary).1.1 =
      .ok Plan.diarySchema := rfl
  have hrecords : ∀ r ∈ Members.values (diary.store.collection "Diary").records,
      ∃ written, Stored.encodeDocument Plan.diarySchema written = .ok r := by
    intro r hr
    rw [records_diary, List.mem_pair] at hr
    rcases hr with rfl | rfl
    · exact ⟨⟨"Diary", "a", none, none,
        [("author", .pointer ⟨"_User", "u"⟩), ("secret", .string "s")]⟩, rfl⟩
    · exact ⟨⟨"Diary", "b", none, none,
        [("_p_title", .string "A$b"), ("title", .string "t")]⟩, rfl⟩
  have hasked : Askable Plan.diarySchema Plan.stranger.caller diaryKeys := by
    unfold Askable
    decide
  obtain ⟨found, results', hin, -, hkeys, -, hiff⟩ := find_keys_iff Plan.built_diarySchema hcaller
    hschema hrecords hasked rfl rfl hfind
  exact ⟨results, results', hfind, hkeys, hiff.2 fun r hr field hkept _ _ =>
    not_usurped_diary (hin r hr) hkept⟩

/-- An object has an internal field under the name of a text with the mark of references. -/
def usurpedDiary : World :=
  diaryOf [("c", [("_id", .string "c"), ("_p_title", .string "A$b")])]

/-- **An internal field that is read as a text** is left out of what is found with the text as a
key. -/
theorem not_find_keys_usurped :
    ¬∀ (config : Config) (caller : Caller) (className : String) (schema : ClassSchema) (f : Filter)
      (options : FindOptions) (keys : List String) (cache : SchemaCache) (w : World)
      (results : List Document), schema.Built → caller.privileged = false →
      ((Action.schema className).runIn cache w).1.1 = .ok schema →
      (∀ r ∈ Members.values (w.store.collection className).records,
        ∃ written, Stored.encodeDocument schema written = .ok r) →
      Askable schema caller keys → options.keys = none → options.includes = [] →
      ((find config caller className f options).runIn cache w).1.1 = .ok results →
      ((find config caller className f (options.withKeys keys)).runIn cache w).1.1 =
        .ok (results.map (Document.keeping (isKept schema keys))) := by
  intro h
  have hwhole : ((find {} Plan.stranger.caller "Diary" .all {}).runIn { ttlMs := 5000 }
      usurpedDiary).1.1.toOption.map (List.map fun d => d.fields.map Prod.fst) =
        some [["likes", "title"]] := by decide +kernel
  have hpart : ((find {} Plan.stranger.caller "Diary" .all
      (FindOptions.withKeys {} ["title"])).runIn { ttlMs := 5000 }
      usurpedDiary).1.1.toOption.map (List.map fun d => d.fields.map Prod.fst) =
        some [["likes"]] := by decide +kernel
  have hschema : ((Action.schema "Diary").runIn { ttlMs := 5000 } usurpedDiary).1.1 =
      .ok Plan.diarySchema := rfl
  obtain ⟨results, hfind, hnames⟩ := Option.map_eq_some_iff.1 hwhole
  have hkept := h {} Plan.stranger.caller "Diary" Plan.diarySchema .all {} ["title"] _ _ results
    Plan.built_diarySchema rfl hschema
    (fun r hr => ⟨⟨"Diary", "c", none, none, [("_p_title", .string "A$b")]⟩,
      List.mem_singleton.1 hr ▸ rfl⟩)
    (by unfold Askable; decide) rfl rfl (Outcome.toOption_eq_some.1 hfind)
  rw [hkept] at hpart
  have hsame : (results.map (Document.keeping (isKept Plan.diarySchema ["title"]))).map
        (fun d => d.fields.map Prod.fst) = (results.map fun d => d.fields.map Prod.fst).map
          (List.filter (isKept Plan.diarySchema ["title"])) := by
    simp [Document.keeping, List.filter_map, Function.comp_def]
  have hlost := hsame.symm.trans (Option.some.inj hpart)
  rw [hnames] at hlost
  exact absurd hlost (by decide)

end Engine

end ObjectEngine
