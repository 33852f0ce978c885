/-
# Reading what was written, in another order

A record that was written as an object is read from any object that has the same members in some order,
and others beside them. What its members say is read in the same way, down to the scalars.

* `Json.Restates` : the same value with the members of its objects in another order, and with more
  members where that is allowed;
* `Json.Drafting` : what readers are given for values, by their text or as they are;
* `Json.Reads` : a reader gets the same from every restatement of a value;
* `Fields.read_object` : what a record needs of the members of an object;
* `Fields.Accepts`, `Json.reads_record` : a record is read if each of its fields is.
-/
import OrderDesk.Json.Reader
import OrderDesk.Proofs.Json.Text

namespace OrderDesk

namespace Json

/-! ## Restatements -/

mutual

/-- The same value with the members of every object in some order. If more is allowed, objects may
have other members beside their own, of any other names. -/
inductive Restates (more : Bool) : Json → Json → Prop
  | scalar (s : Scalar) : Restates more (.scalar s) (.scalar s)
  | array {vs ws : List Json} : RestatesItems more vs ws → Restates more (.array vs) (.array ws)
  | object {vs kept others ws : List (String × Json)} :
      RestatesMembers more vs kept → ws.Perm (kept ++ others) →
      (∀ m ∈ others, m.1 ∉ vs.map Prod.fst) → (more = false → others = []) →
      Restates more (.object vs) (.object ws)

/-- The same items, each restated. -/
inductive RestatesItems (more : Bool) : List Json → List Json → Prop
  | nil : RestatesItems more [] []
  | cons {v w : Json} {vs ws : List Json} :
      Restates more v w → RestatesItems more vs ws → RestatesItems more (v :: vs) (w :: ws)

/-- The same names, the value of each restated. -/
inductive RestatesMembers (more : Bool) : List (String × Json) → List (String × Json) → Prop
  | nil : RestatesMembers more [] []
  | cons {name : String} {v w : Json} {vs ws : List (String × Json)} :
      Restates more v w → RestatesMembers more vs ws →
      RestatesMembers more ((name, v) :: vs) ((name, w) :: ws)

end

variable {more : Bool}

theorem RestatesMembers.names {vs ws : List (String × Json)} (h : RestatesMembers more vs ws) :
    ws.map Prod.fst = vs.map Prod.fst := by
  induction vs generalizing ws with
  | nil =>
      cases h
      rfl
  | cons m vs ih =>
      cases h with
      | cons _ hrest => rw [List.map_cons, List.map_cons, ih hrest]

/-- What stands under a name is restated under the same name. -/
theorem RestatesMembers.lookup {vs ws : List (String × Json)} (h : RestatesMembers more vs ws)
    {name : String} {v : Json} (hv : vs.lookup name = some v) :
    ∃ w, ws.lookup name = some w ∧ Restates more v w := by
  induction vs generalizing ws with
  | nil => cases hv
  | cons m vs ih =>
      cases h with
      | @cons other u w _ ws hw hrest =>
          simp only [List.lookup_cons] at hv ⊢
          cases hname : name == other with
          | true =>
              rw [hname] at hv
              cases hv
              exact ⟨w, rfl, hw⟩
          | false =>
              rw [hname] at hv
              exact ih hrest hv

theorem RestatesMembers.lookup_eq_none {vs ws : List (String × Json)}
    (h : RestatesMembers more vs ws) {name : String} (hv : name ∉ vs.map Prod.fst) :
    ws.lookup name = none := by
  rw [List.lookup_eq_none_iff]
  intro m hm
  have hmem : m.1 ∈ vs.map Prod.fst := h.names ▸ List.mem_map_of_mem hm
  simp only [bne_iff_ne]
  rintro rfl
  exact hv hmem

mutual

/-- A value restates itself. -/
theorem Restates.refl (more : Bool) : (v : Json) → Restates more v v
  | .scalar s => .scalar s
  | .array vs => .array (RestatesItems.refl more vs)
  | .object ms =>
      .object (RestatesMembers.refl more ms) (.of_eq (List.append_nil ms).symm) (by simp) fun _ => rfl

theorem RestatesItems.refl (more : Bool) : (vs : List Json) → RestatesItems more vs vs
  | [] => .nil
  | v :: rest => .cons (Restates.refl more v) (RestatesItems.refl more rest)

theorem RestatesMembers.refl (more : Bool) : (ms : List (String × Json)) → RestatesMembers more ms ms
  | [] => .nil
  | (_, v) :: rest => .cons (Restates.refl more v) (RestatesMembers.refl more rest)

end

mutual

/-- So does the value with the members of every object in the order of their names. -/
theorem restates_sorted (more : Bool) : (v : Json) → Restates more v v.sorted
  | .scalar s => .scalar s
  | .array vs => .array (restates_sortedItems more vs)
  | .object ms =>
      .object (restates_sortedMembers more ms)
        ((List.mergeSort_perm _ _).trans (.of_eq (List.append_nil _).symm)) (by simp) fun _ => rfl

theorem restates_sortedItems (more : Bool) : (vs : List Json) → RestatesItems more vs (sortedItems vs)
  | [] => .nil
  | v :: rest => .cons (restates_sorted more v) (restates_sortedItems more rest)

theorem restates_sortedMembers (more : Bool) :
    (ms : List (String × Json)) → RestatesMembers more ms (sortedMembers ms)
  | [] => .nil
  | (_, v) :: rest => .cons (restates_sorted more v) (restates_sortedMembers more rest)

end

/-! ## What readers are given -/

/-- What readers are given for a value: faultless, in the shape of the value, and for all scalars but
some numbers the scalar itself. -/
structure Drafting (D : Json → Draft) : Prop where
  scalar : ∀ s, Exact s → D (.scalar s) = .scalar s
  array : ∀ vs, D (.array vs) = .array (vs.map D) .closed
  object : ∀ ms, D (.object ms) = .object (ms.map fun m => (.ok m.1, D m.2)) .closed
  skip : ∀ v, (D v).skip = .ok ()

theorem itemDrafts_eq (vs : List Json) : itemDrafts vs = vs.map draft := by
  induction vs with
  | nil => rfl
  | cons v rest ih => rw [itemDrafts, ih, List.map_cons]

theorem memberDrafts_eq (ms : List (String × Json)) :
    memberDrafts ms = ms.map fun m => (.ok m.1, draft m.2) := by
  induction ms with
  | nil => rfl
  | cons m rest ih => rw [memberDrafts, ih, List.map_cons]

/-- What is read from the text of a value. -/
theorem drafting_draft : Drafting draft where
  scalar s hs := by rw [draft, scalarToken_of_exact hs, Token.draft]
  array vs := by rw [draft, itemDrafts_eq]
  object ms := by rw [draft, memberDrafts_eq]
  skip := skip_draft

theorem draftItems_eq (vs : List Json) : draftItems vs = vs.map toDraft := by
  induction vs with
  | nil => rfl
  | cons v rest ih => rw [draftItems, ih, List.map_cons]

theorem draftMembers_eq (ms : List (String × Json)) :
    draftMembers ms = ms.map fun m => (.ok m.1, toDraft m.2) := by
  induction ms with
  | nil => rfl
  | cons m rest ih => rw [draftMembers, ih, List.map_cons]

mutual

theorem skip_toDraft : (v : Json) → v.toDraft.skip = .ok ()
  | .scalar s => rfl
  | .array items => by
      rw [toDraft, Draft.skip, skip_draftItems items]
      rfl
  | .object members => by
      rw [toDraft, Draft.skip, skip_draftMembers members]
      rfl

theorem skip_draftItems : (items : List Json) → Draft.skipItems (draftItems items) = .ok ()
  | [] => rfl
  | v :: rest => by
      rw [draftItems, Draft.skipItems, skip_toDraft v, skip_draftItems rest]
      rfl

theorem skip_draftMembers : (members : List (String × Json)) →
    Draft.skipMembers (draftMembers members) = .ok ()
  | [] => rfl
  | (name, v) :: rest => by
      rw [draftMembers, Draft.skipMembers, skip_toDraft v, skip_draftMembers rest]
      rfl

end

/-- The value as it is. -/
theorem drafting_toDraft : Drafting toDraft where
  scalar _ _ := rfl
  array vs := by rw [toDraft, draftItems_eq]
  object ms := by rw [toDraft, draftMembers_eq]
  skip := skip_toDraft

end Json

/-! ## Records -/

/-- A list of pairs without repeated names gives under a name what is paired with it. -/
theorem lookup_eq_some_iff_mem {α : Type} {l : List (String × α)} (h : (l.map Prod.fst).Nodup)
    {name : String} {a : α} : l.lookup name = some a ↔ (name, a) ∈ l := by
  induction l with
  | nil => simp
  | cons m rest ih =>
      rw [List.map_cons, List.nodup_cons] at h
      rw [List.lookup_cons, List.mem_cons]
      cases hname : name == m.1 with
      | true =>
          obtain rfl := beq_iff_eq.1 hname
          constructor
          · intro ha
            cases ha
            exact Or.inl rfl
          · rintro (ha | ha)
            · rw [← ha]
            · exact absurd (List.mem_map_of_mem ha) h.1
      | false =>
          have hne : name ≠ m.1 := by simpa using hname
          rw [ih h.2]
          refine ⟨Or.inr, ?_⟩
          rintro (ha | ha)
          · exact absurd (congrArg Prod.fst ha) hne
          · exact ha

/-- Without repeated names the order does not matter. -/
theorem lookup_perm {α : Type} {l k : List (String × α)} (hl : l.Perm k)
    (h : (k.map Prod.fst).Nodup) (name : String) : l.lookup name = k.lookup name := by
  have hnodup : (l.map Prod.fst).Nodup := (hl.map Prod.fst).nodup_iff.2 h
  apply Option.ext
  intro a
  rw [lookup_eq_some_iff_mem hnodup, lookup_eq_some_iff_mem h, hl.mem_iff]

namespace Fields

variable {α β : Type}

/-- The names of the fields. -/
def names (f : Fields α) : List String :=
  f.slots.map Slot.name

/-- What is found under the names of the fields passes their checks and makes up a value. -/
structure Fits (f : Fields α) (find : String → Option Draft) (a : α) : Prop where
  checks : ∀ slot ∈ f.slots, ∀ d, find slot.name = some d → slot.check d = .ok ()
  build : ∀ other, (∀ name ∈ f.names, other name = find name) → f.build other = .ok a

theorem Fits.congr {f : Fields α} {find other : String → Option Draft} {a : α} (h : f.Fits find a)
    (heq : ∀ name ∈ f.names, other name = find name) : f.Fits other a where
  checks slot hslot d hd := h.checks slot hslot d (heq slot.name (List.mem_map_of_mem hslot) ▸ hd)
  build another hother :=
    h.build another fun name hname => (hother name hname).trans (heq name hname)

/-- Walking over the members of an object collects those that are fields. -/
theorem walkMembers_eq {slots : List Slot} {ms found : List (String × Draft)}
    (hpass : ∀ m ∈ ms, m.1 ∉ slots.map Slot.name → m.2.skip = .ok ())
    (hcheck : ∀ m ∈ ms, ∀ slot ∈ slots, slot.name = m.1 → slot.check m.2 = .ok ())
    (hnodup : ((found ++ ms.filter (·.1 ∈ slots.map Slot.name)).map Prod.fst).Nodup) :
    walkMembers slots .closed (ms.map fun m => (.ok m.1, m.2)) found =
      .ok (found ++ ms.filter (·.1 ∈ slots.map Slot.name)) := by
  induction ms generalizing found with
  | nil => simp [walkMembers, Ending.check, Except.map]
  | cons m rest ih =>
      have hpass' := fun n hn => hpass n (List.mem_cons_of_mem m hn)
      have hcheck' := fun n hn => hcheck n (List.mem_cons_of_mem m hn)
      rw [List.map_cons, walkMembers]
      by_cases hname : m.1 ∈ slots.map Slot.name
      · -- the member is a field, and no member of its name was found before
        obtain ⟨slot, hslot⟩ : ∃ slot, slots.find? (·.name = m.1) = some slot := by
          obtain ⟨slot, hmem, hslot⟩ := List.mem_map.1 hname
          exact Option.isSome_iff_exists.1 (List.find?_isSome.2 ⟨slot, hmem, by simpa using hslot⟩)
        have hname' : slot.name = m.1 := by simpa using List.find?_some hslot
        have hchecked := hcheck m List.mem_cons_self slot (List.mem_of_find?_eq_some hslot) hname'
        rw [List.filter_cons_of_pos (by simpa using hname)] at hnodup ⊢
        have hfresh : found.any (·.1 = m.1) = false := by
          rw [List.map_append, List.nodup_append] at hnodup
          rw [List.any_eq_false]
          intro n hn heq
          exact hnodup.2.2 n.1 (List.mem_map_of_mem hn) m.1 (by simp) (of_decide_eq_true heq)
        have happend := List.append_cons found m (rest.filter (·.1 ∈ slots.map Slot.name))
        rw [happend] at hnodup ⊢
        simp only [hslot, hfresh, hchecked, Bool.false_eq_true, if_false]
        exact ih hpass' hcheck' hnodup
      · have hslot : slots.find? (·.name = m.1) = none := by
          rw [List.find?_eq_none]
          intro slot hmem heq
          exact hname (List.mem_map.2 ⟨slot, hmem, of_decide_eq_true heq⟩)
        rw [List.filter_cons_of_neg (by simpa using hname)] at hnodup ⊢
        simp only [hslot, Draft.pass, hpass m List.mem_cons_self hname]
        exact ih hpass' hcheck' hnodup

/-- A record is read from an object in which its fields stand at most once, in any order, and all
other members can be passed over. -/
theorem read_object {f : Fields α} {a : α} {ms known : List (String × Draft)}
    (hpass : ∀ m ∈ ms, m.1 ∉ f.names → m.2.skip = .ok ())
    (hknown : (ms.filter (·.1 ∈ f.names)).Perm known) (hnodup : (known.map Prod.fst).Nodup)
    (hfits : f.Fits (known.lookup ·) a) :
    f.read (.object (ms.map fun m => (.ok m.1, m.2)) .closed) = .ok a := by
  have hfound : ((ms.filter (·.1 ∈ f.names)).map Prod.fst).Nodup :=
    (hknown.map Prod.fst).nodup_iff.2 hnodup
  have hlookup : ∀ name, (ms.filter (·.1 ∈ f.names)).lookup name = known.lookup name :=
    lookup_perm hknown hnodup
  have hcheck : ∀ m ∈ ms, ∀ slot ∈ f.slots, slot.name = m.1 → slot.check m.2 = .ok () := by
    intro m hm slot hslot hname
    refine hfits.checks slot hslot m.2 ?_
    rw [← hlookup, lookup_eq_some_iff_mem hfound, List.mem_filter, hname]
    exact ⟨hm, decide_eq_true (hname ▸ List.mem_map_of_mem hslot)⟩
  have hwalk : walkMembers f.slots .closed (ms.map fun m => (.ok m.1, m.2)) [] =
      .ok (ms.filter (·.1 ∈ f.names)) := walkMembers_eq hpass hcheck hfound
  rw [read, hwalk]
  exact hfits.build _ fun name _ => hlookup name

/-! ## Fields one after the other -/

theorem Fits.pure (find : String → Option Draft) (a : α) : (pure a : Fields α).Fits find a where
  checks slot hslot := by cases hslot
  build _ _ := rfl

theorem Fits.seq {f : Fields (α → β)} {x : Fields α} {find : String → Option Draft} {g : α → β}
    {a : α} (hf : f.Fits find g) (hx : x.Fits find a) : (f.seq x).Fits find (g a) where
  checks slot hslot := by
    rcases List.mem_append.1 hslot with hslot | hslot
    · exact hf.checks slot hslot
    · exact hx.checks slot hslot
  build other hother := by
    have hnames : (f.seq x).names = f.names ++ x.names := List.map_append
    rw [hnames] at hother
    have hg := hf.build other fun name hname => hother name (List.mem_append_left _ hname)
    have ha := hx.build other fun name hname => hother name (List.mem_append_right _ hname)
    have hbuild : (f.seq x).build other = (f.build other).bind fun g => (x.build other).map g := rfl
    rw [hbuild, hg, ha]
    rfl

end Fields

/-! ## Readers of what was written -/

namespace Json

variable {α : Type} {D : Json → Draft} {more : Bool}

/-- A reader gets this from every restatement of a value. -/
def Reads (D : Json → Draft) (more : Bool) (v : Json) (read : Reader α) (a : α) : Prop :=
  ∀ w, Restates more v w → read (D w) = .ok a

theorem reads_scalar {s : Scalar} {read : Reader α} {a : α} (hs : D (.scalar s) = .scalar s)
    (h : read (.scalar s) = .ok a) : Reads D more (.scalar s) read a := by
  intro w hw
  cases hw
  rw [hs, h]

/-- A list is read if each of its items is. -/
theorem reads_list (hD : Drafting D) {f : α → Json} {read : Reader α} {as : List α}
    (h : ∀ a ∈ as, Reads D more (f a) read a) :
    Reads D more (.array (as.map f)) (Reader.list read) as := by
  intro w hw
  cases hw with
  | @array _ ws hitems =>
      rw [hD.array, Reader.list]
      induction as generalizing ws with
      | nil =>
          cases hitems
          rfl
      | cons a rest ih =>
          cases hitems with
          | cons hw hrest =>
              rw [List.map_cons, Reader.items, h a List.mem_cons_self _ hw,
                ih (fun b hb => h b (List.mem_cons_of_mem a hb)) hrest]
              rfl

/-- A value that may be absent is read if it is an object where it is present. -/
theorem reads_option (hD : Drafting D) {f : α → Json} {read : Reader α} {found : Option α}
    (hobject : ∀ a, ∃ ms, f a = .object ms) (h : ∀ a ∈ found, Reads D more (f a) read a) :
    Reads D more (Json.ofOption f found) (Reader.option read) found := by
  intro w hw
  cases found with
  | none =>
      cases hw
      have hnull : Exact .null := trivial
      rw [hD.scalar _ hnull]
      rfl
  | some a =>
      have hread := h a rfl w hw
      obtain ⟨ms, hms⟩ := hobject a
      rw [Json.ofOption, hms] at hw
      cases hw with
      | @object _ _ _ ws =>
          rw [hD.object] at hread ⊢
          have hoption : ∀ drafts, Reader.option read (.object drafts .closed) =
              (read (.object drafts .closed)).map some := fun _ => rfl
          rw [hoption, hread]
          rfl

end Json

namespace Fields

variable {α β : Type} {D : Json → Draft} {more : Bool} {vs : List (String × Json)}

/-- The fields of a record make up this value, whichever way the members of an object are restated. -/
def Accepts (D : Json → Draft) (more : Bool) (f : Fields α) (vs : List (String × Json)) (a : α) : Prop :=
  ∀ kept, Json.RestatesMembers more vs kept → f.Fits (fun name => (kept.lookup name).map D) a

theorem Accepts.seq {f : Fields (α → β)} {x : Fields α} {g : α → β} {a : α}
    (hf : Accepts D more f vs g) (hx : Accepts D more x vs a) : Accepts D more (f <*> x) vs (g a) :=
  fun kept hkept => (hf kept hkept).seq (hx kept hkept)

theorem Accepts.map {x : Fields α} {a : α} (g : α → β) (hx : Accepts D more x vs a) :
    Accepts D more (g <$> x) vs (g a) :=
  fun kept hkept => (Fits.pure _ g).seq (hx kept hkept)

/-- A field whose member is read has what is read. -/
theorem accepts_of_reads {name : String} {v : Json} {read : Reader α} {optional droppable : Bool}
    {missing : Except ReadError α} {a : α} (hv : vs.lookup name = some v)
    (h : Json.Reads D more v read a) :
    Accepts D more ⟨[⟨name, fun d => (read d).map fun _ => (), optional, droppable⟩], fun find =>
      match find name with
      | some d => read d
      | none => missing⟩ vs a := by
  intro kept hkept
  obtain ⟨w, hw, hrestates⟩ := hkept.lookup hv
  have hfind : (kept.lookup name).map D = some (D w) := by rw [hw, Option.map_some]
  refine ⟨?_, ?_⟩
  · intro slot hslot d hd
    obtain rfl := List.mem_singleton.1 hslot
    obtain rfl := Option.some.inj (hfind.symm.trans hd)
    simp only [h w hrestates]
    rfl
  · intro other hother
    have hsame : other name = some (D w) := (hother name List.mem_cons_self).trans hfind
    simp only [hsame, h w hrestates]

theorem Accepts.required {name : String} {v : Json} {read : Reader α} {a : α}
    (hv : vs.lookup name = some v) (h : Json.Reads D more v read a) :
    Accepts D more (required name read) vs a :=
  accepts_of_reads hv h

theorem Accepts.optional {name : String} {v : Json} {read : Reader α} {a : Option α}
    (hv : vs.lookup name = some v) (h : Json.Reads D more v (Reader.option read) a) :
    Accepts D more (optional name read) vs a :=
  accepts_of_reads hv h

theorem Accepts.withDefault {name : String} {v : Json} {read : Reader α} {a b : α}
    (hv : vs.lookup name = some v) (h : Json.Reads D more v read a) :
    Accepts D more (withDefault name read b) vs a :=
  accepts_of_reads hv h

/-- A field that is absent has its own value. -/
theorem Accepts.absent {name : String} {read : Reader α} {a : α} (hv : name ∉ vs.map Prod.fst) :
    Accepts D more (Fields.withDefault name read a) vs a := by
  intro kept hkept
  have hnone : (kept.lookup name).map D = none := by
    rw [hkept.lookup_eq_none hv, Option.map_none]
  refine ⟨?_, ?_⟩
  · intro slot hslot d hd
    obtain rfl := List.mem_singleton.1 hslot
    rw [hnone] at hd
    cases hd
  · intro other hother
    have hsame : other name = none := (hother name List.mem_cons_self).trans hnone
    simp only [Fields.withDefault, hsame]

/-- The members of an object that are fields, as they are given to readers. -/
def known (D : Json → Draft) (names : List String) (ms : List (String × Json)) :
    List (String × Draft) :=
  (ms.filter (·.1 ∈ names)).map fun m => (m.1, D m.2)

theorem lookup_known {names : List String} {ms : List (String × Json)}
    (hnodup : (ms.map Prod.fst).Nodup) {name : String} (hname : name ∈ names) :
    (known D names ms).lookup name = (ms.lookup name).map D := by
  have hkeys : ((known D names ms).map Prod.fst).Nodup := by
    rw [known, List.map_map]
    exact hnodup.sublist (List.filter_sublist.map Prod.fst)
  apply Option.ext
  intro d
  rw [lookup_eq_some_iff_mem hkeys, Option.map_eq_some_iff]
  simp only [lookup_eq_some_iff_mem hnodup, known, List.mem_map, List.mem_filter, decide_eq_true_eq]
  constructor
  · rintro ⟨⟨other, v⟩, ⟨hm, -⟩, heq⟩
    cases heq
    exact ⟨v, hm, rfl⟩
  · rintro ⟨v, hm, rfl⟩
    exact ⟨(name, v), ⟨hm, hname⟩, rfl⟩

/-- A record is read from every restatement of an object that has its fields, if its other members do
not bear the name of a field that is absent. -/
theorem Accepts.read (hD : Json.Drafting D) {f : Fields α} {a : α} (h : Accepts D more f vs a)
    (hnodup : (vs.map Prod.fst).Nodup) {ws : List (String × Json)}
    (hws : Json.Restates more (.object vs) (.object ws))
    (hnames : ∀ m ∈ ws, m.1 ∈ f.names → m.1 ∈ vs.map Prod.fst) :
    f.read (D (.object ws)) = .ok a := by
  cases hws with
  | @object _ kept others _ hkept hperm hother hmore =>
      have hkeptNodup : (kept.map Prod.fst).Nodup := by
        rw [hkept.names]
        exact hnodup
      have hnone : others.filter (·.1 ∈ f.names) = [] := by
        rw [List.filter_eq_nil_iff]
        intro m hm hname
        have hmem : m ∈ ws := hperm.mem_iff.2 (List.mem_append_right _ hm)
        exact hother m hm (hnames m hmem (of_decide_eq_true hname))
      have hfields : (ws.filter (·.1 ∈ f.names)).Perm (kept.filter (·.1 ∈ f.names)) := by
        have hfilter := hperm.filter (·.1 ∈ f.names)
        rwa [List.filter_append, hnone, List.append_nil] at hfilter
      have hgiven : ((ws.map fun m => (m.1, D m.2)).filter (·.1 ∈ f.names)).Perm
          (known D f.names kept) := by
        rw [List.filter_map]
        exact hfields.map _
      have hpass : ∀ m ∈ ws.map fun m => (m.1, D m.2), m.1 ∉ f.names → m.2.skip = .ok () := by
        intro m hm _
        obtain ⟨n, -, rfl⟩ := List.mem_map.1 hm
        exact hD.skip n.2
      have hkeys : ((known D f.names kept).map Prod.fst).Nodup := by
        rw [known, List.map_map]
        exact hkeptNodup.sublist (List.filter_sublist.map Prod.fst)
      have hread := read_object hpass hgiven hkeys
        ((h kept hkept).congr fun name hname => lookup_known hkeptNodup hname)
      rw [List.map_map] at hread
      rw [hD.object]
      exact hread

end Fields

namespace Json

variable {α : Type} {D : Json → Draft} {more : Bool} {vs : List (String × Json)}

/-- A record is read from every restatement of an object that has all of its fields. -/
theorem reads_record (hD : Drafting D) {f : Fields α} {a : α} (h : f.Accepts D more vs a)
    (hnodup : (vs.map Prod.fst).Nodup) (hnames : f.names = vs.map Prod.fst) :
    Reads D more (.object vs) f.read a := by
  intro w hw
  cases hw with
  | object hkept hperm hother hmore =>
      exact h.read hD hnodup (.object hkept hperm hother hmore) fun m _ hm => hnames ▸ hm

end Json

end OrderDesk
