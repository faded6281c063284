import ObjectEngine.Proofs.Store.Separate
import ObjectEngine.Proofs.Store.Watching

/-!
# Records under their own ids

The id of an object is kept twice: a record of a class stands under an id, and has it as a member
(`Store.Identified`). To insert a record puts it under its member, so only an update may part the
two. It does not if it spares the member (`Edit.Spares`): an operator that is no removal and sets
no value leaves a text as it is, or is refused.

Calls that spare ids are allowed by the watch on them (`Store.identity`), so that a transaction
that is taken back keeps them as well.
-/

namespace ObjectEngine

/-! ### Updates that spare a text -/

namespace Text

/-- A text of one piece is that piece. -/
theorem eq_of_split_eq_singleton {path key : String} (h : split '.' path = [key]) :
    path = key := by
  obtain ⟨piece, hpieces, rfl⟩ := List.map_eq_singleton_iff.1 h
  have hchars := eq_of_splitChars hpieces
  rw [List.flatMap_nil, List.append_nil] at hchars
  rw [← hchars, String.ofList_toList]

end Text

namespace Record

variable {path key text : String} {r : Record}

/-- **A text stays** where a change is made at another path, even below it. -/
theorem lookup_alterAlong_string {change : Option Datum → Outcome Datum}
    {segments : List String} (hr : r.lookup key = some (.string text)) (h : segments ≠ [key]) :
    (alterAlong path change segments r).2.lookup key = some (.string text) := by
  have hother {s : String} (hs : s ≠ key) (d : Datum) :
      (Members.insert s d r).lookup key = some (.string text) := by
    rw [Members.lookup_insert, if_neg hs.symm, hr]
  match segments with
  | [] => exact hr
  | [leaf] =>
    rw [alterAlong]
    split
    · exact hother (fun he => h (by rw [he])) _
    · exact hr
  | s :: next :: rest =>
    rw [alterAlong]
    · by_cases hs : s = key
      · rw [hs, hr]
        exact hr
      · split
        · exact hother hs _
        · exact hother hs _
        · exact hr
    · simp

theorem lookup_unsetPath_string (hr : r.lookup key = some (.string text))
    (h : Text.split '.' path ≠ [key]) : (r.unsetPath path).lookup key = some (.string text) := by
  unfold unsetPath
  generalize Text.split '.' path = segments at h
  match segments with
  | [] => exact hr
  | [leaf] => rw [unsetAlong, Members.lookup_erase, if_neg fun he => h (by rw [he]), hr]
  | s :: next :: rest =>
    rw [unsetAlong]
    · by_cases hs : s = key
      · rw [hs, hr]
        exact hr
      · split
        · rw [Members.lookup_insert, if_neg (Ne.symm hs), hr]
        · exact hr
    · simp

end Record

namespace Edit

variable {e : Edit} {path id : String} {r r' : Record}

/-- **An update that spares an id**: it does not remove the member, and sets it to the id only. -/
structure Spares (id : String) (e : Edit) : Prop where
  set : ∀ m ∈ e.set, m.1 = Record.idKey → m.2 = .string id
  unset : Record.idKey ∉ e.unset

section

variable {key text : String} (hr : r.lookup key = some (.string text))

include hr

/-- Nothing is added to a text. -/
theorem lookup_incPath_string (amount : Datum) :
    (incPath r path amount).2.lookup key = some (.string text) := by
  by_cases hpath : Text.split '.' path = [key]
  · obtain rfl := Text.eq_of_split_eq_singleton hpath
    rw [incPath, Record.get?_key hpath, hr]
    exact hr
  · unfold incPath
    split
    · split
      · exact Record.lookup_alterAlong_string hr hpath
      · exact hr
    · exact Record.lookup_alterAlong_string hr hpath

/-- A text is no array. -/
theorem lookup_arrayPath_string (op : String) (change : List Datum → List Datum) :
    (arrayPath op change r path).2.lookup key = some (.string text) := by
  by_cases hpath : Text.split '.' path = [key]
  · rw [arrayPath, hpath, Record.alterAlong, hr]
    exact hr
  · exact Record.lookup_alterAlong_string hr hpath

theorem lookup_pullPath_string (ds : List Datum) :
    (pullPath r path ds).2.lookup key = some (.string text) := by
  by_cases hpath : Text.split '.' path = [key]
  · obtain rfl := Text.eq_of_split_eq_singleton hpath
    rw [pullPath, Record.get?_key hpath, hr]
    exact hr
  · unfold pullPath
    split
    · exact hr
    · exact Record.lookup_alterAlong_string hr hpath
    · exact hr

end

theorem Spares.setPath (h : e.Spares id) {m : String × Datum} (hm : m ∈ e.set)
    (hr : r.lookup Record.idKey = some (.string id)) :
    (r.setPath m.1 m.2).2.lookup Record.idKey = some (.string id) := by
  have hkey : Text.split '.' Record.idKey = [Record.idKey] := rfl
  by_cases hpath : Text.split '.' m.1 = [Record.idKey]
  · have hname := Text.eq_of_split_eq_singleton hpath
    rw [h.set m hm hname, hname, Record.setPath_key hkey, Members.lookup_insert, if_pos rfl]
  · exact Record.lookup_alterAlong_string hr hpath

/-- **An update that spares the id of a record** keeps it. -/
theorem Spares.lookup_of_apply (h : e.Spares id) (hr : r.lookup Record.idKey = some (.string id))
    (happly : e.apply false r = .ok r') : r'.lookup Record.idKey = some (.string id) := by
  have hkey : Text.split '.' Record.idKey = [Record.idKey] := rfl
  have hstep {x y : Record} {step : Outcome Unit × Record}
      (hlookup : step.2.lookup Record.idKey = some (.string id)) (hx : step = (.ok (), y)) :
      y.lookup Record.idKey = some (.string id) := by
    rwa [hx] at hlookup
  refine apply_induction (P := fun x => x.lookup Record.idKey = some (.string id)) happly hr
    { set := fun m hm x y hx => hstep (x := x) (h.setPath hm hx)
      unset := fun path hpath x hx => Record.lookup_unsetPath_string hx fun hsplit => ?_
      inc := fun m _ x y hx => hstep (x := x) (lookup_incPath_string hx m.2)
      push := fun m _ x y hx => hstep (x := x) (lookup_arrayPath_string hx _ _)
      addToSet := fun m _ x y hx => hstep (x := x) (lookup_arrayPath_string hx _ _)
      pull := fun m _ x y hx => hstep (x := x) (lookup_pullPath_string hx m.2)
      setOnInsert := nofun }
  exact h.unset (Text.eq_of_split_eq_singleton hsplit ▸ hpath)

end Edit

/-! ### The watch on ids -/

namespace Store

/-- **Every record of a class** has the id under which it is. -/
def Identified (s : Store) : Prop :=
  ∀ name, isClassName name = true → ∀ id r, s.record? name id = some r → r.id? = some id

theorem identified_of_records {s : Store} (h : ∀ m ∈ s.collections, isClassName m.1 = true →
    ∀ r ∈ m.2.records, r.2.id? = some r.1) : s.Identified := by
  intro name hname id r hr
  unfold record? collection collection? at hr
  cases hfound : s.collections.lookup name with
  | none =>
    rw [hfound] at hr
    simp at hr
  | some c =>
    rw [hfound] at hr
    exact h _ (Members.mem_of_lookup hfound) hname _ (Members.mem_of_lookup hr)

/-- The id of a record is a text under its key. -/
theorem id?_eq_some_iff {r : Record} {id : String} :
    r.id? = some id ↔ r.lookup Record.idKey = some (.string id) := by
  refine ⟨fun h => ?_, fun h => by rw [Record.id?, Record.string?, h]; rfl⟩
  obtain ⟨d, hd, htext⟩ := Option.bind_eq_some_iff.1 h
  cases d <;> simp [Datum.asString?] at htext
  rw [hd, htext]

/-- **The watch on ids.** The id of a record under its id equals no other value, so it is given
back by a rollback. -/
def identity : Watch where
  on name := isClassName name = true
  holds id record := ∀ r, record = some r → r.id? = some id
  admits id _ after := ∀ r, after = some r → r.id? = some id
  step hafter _ := hafter
  rewound {id first last vs} hfirst hleads hvs := by
    intro r hr
    have hcell : cell Record.idKey (Store.rewound vs last) = cell Record.idKey first := by
      refine cell_rewound_of_renewed hleads (fun v hv _ r' _ hafter => .inr fun d hd => ?_)
        fun v hv => (hvs v hv).1
      have hid := id?_eq_some_iff.1 ((hvs v hv).2 r' hafter)
      obtain rfl : .string id = d := Option.some.inj (hid.symm.trans hd)
      exact Datum.exact_string id
    rw [hr] at hcell
    obtain ⟨r', hr', hlookup⟩ := Option.map_eq_some_iff.1 hcell.symm
    rw [id?_eq_some_iff, ← hlookup]
    exact id?_eq_some_iff.1 (hfirst r' hr')

namespace Call

variable {name : String} {p : Predicate} {e : Edit} {session : Option SessionId}

theorem allows_insert (r : Record) : identity.Allows (.insert name r session) := by
  rintro - s - - w hw _ hafter
  obtain ⟨id, hid, rfl⟩ := Option.map_eq_some_iff.1 (Option.mem_toList.1 hw)
  exact Option.some.inj hafter ▸ hid

theorem allows_delete : identity.Allows (.delete name p session) := by
  rintro - s - - w hw r hafter
  simp only [changes] at hw
  split at hw
  · obtain ⟨v, -, rfl⟩ := List.mem_map.1 hw
    exact absurd hafter (by simp)
  · exact absurd hw List.not_mem_nil

variable (hspares : ∀ r id, r.id? = some id → (p.eval none r).1 = .ok true → e.Spares id)

include hspares

/-- Records that are rewritten keep their ids. -/
theorem identified_of_mem_rewrites {s : Store} (hs : s.WellFormed) (hids : s.Identified)
    (hname : isClassName name = true) {firstOnly : Bool} {w : Change}
    (hw : w ∈ s.rewrites name firstOnly p e) {r : Record} (hafter : w.after = some r) :
    r.id? = some w.id := by
  obtain ⟨current, next, hchange, hcurrent, ⟨found, hfound, hp⟩, happly, -⟩ := mem_rewrites hw
  obtain rfl : found = current :=
    Option.some.inj (((hs.sorted name).lookup_of_mem hfound).symm.trans hcurrent)
  obtain rfl : next = r := by
    rw [hchange] at hafter
    exact Option.some.inj hafter
  have hid := hids name hname w.id found hcurrent
  exact id?_eq_some_iff.2
    ((hspares found w.id hid hp).lookup_of_apply (id?_eq_some_iff.1 hid) happly)

theorem allows_update : identity.Allows (.update name p e session) :=
  fun hname _ hs hids _ hw _ => identified_of_mem_rewrites hspares hs hids hname hw

theorem allows_findAndUpdate : identity.Allows (.findAndUpdate name p e session) :=
  fun hname _ hs hids _ hw _ => identified_of_mem_rewrites hspares hs hids hname hw

/-- What an upsert inserts is put under its own id. -/
theorem allows_upsert : identity.Allows (.upsert name p e session) := by
  intro hname s hs hids w hw r hafter
  rcases mem_changes_upsert hw with ⟨record, -, rfl⟩ | hw
  · exact Option.some.inj hafter ▸ s.id?_identified record
  · exact identified_of_mem_rewrites hspares hs hids hname hw hafter

end Call

end Store

end ObjectEngine
