/-
# Orders survive being written

The text of an order is read as the same order: whatever its status, with or without a payment, and with
any parts, total, version and times. So is the text with its members in another order and with members
that no reader knows; and a version of zero may be left out.

* `Json.without` : an object without a member;
* `Wire.reads_order` : the reader of orders gets the order from every restatement;
* `order_round_trip` : the same for texts.
-/
import OrderDesk.Wire.Order
import OrderDesk.Proofs.Wire.Basic

namespace OrderDesk

/-- An object without the members of a name. -/
def Json.without (name : String) : Json → Json
  | .object members => .object (members.filter (·.1 ≠ name))
  | v => v

namespace Wire

open Json (Drafting Reads Restates reads_list reads_option reads_record)

variable {D : Json → Draft} {more : Bool}

/-! ## Orders -/

theorem reads_payment (hD : Drafting D) (p : PaymentDetails) : Reads D more (write p) read p := by
  have hmethod : Reads D more (write p.method) read p.method :=
    reads_choice hD (PaymentMethod.ofName?_name p.method)
  exact reads_record hD
    (.seq (.map PaymentDetails.mk (.required rfl hmethod)) (.required rfl (reads_id hD p.transaction)))
    (by simp) rfl

/-- The fields of an order, with the version as it is found. -/
theorem accepts_order (hD : Drafting D) (o : Order) {vs : List (String × Json)}
    (hvs : ∀ m ∈ orderMembers o, m.1 ≠ "version" → vs.lookup m.1 = some m.2)
    (hversion : (Fields.withDefault "version" read Version.initial).Accepts D more vs o.version) :
    orderFields.Accepts D more vs o := by
  have hstatus : Reads D more (write o.status) read o.status :=
    reads_choice hD (OrderStatus.lookup_name o.status)
  have hpayment : Reads D more (writeOption o.payment) (Reader.option read) o.payment :=
    reads_option hD (fun _ => ⟨_, rfl⟩) fun p _ => reads_payment hD p
  have hparts : Reads D more (writeList o.parts) (Reader.list read) o.parts :=
    reads_list hD fun id _ => reads_id hD id
  simp only [orderMembers, List.forall_mem_cons] at hvs
  obtain ⟨hid, huser, hpart, htotal, hstat, hpay, -, hcreated, hupdated, -⟩ := hvs
  refine .seq (.seq (.seq (.seq (.seq (.seq (.seq (.seq (.map Order.mk ?_) ?_) ?_) ?_) ?_) ?_) ?_) ?_) ?_
  · exact .required (hid (by decide)) (reads_id hD o.id)
  · exact .required (huser (by decide)) (reads_id hD o.user)
  · exact .required (hpart (by decide)) hparts
  · exact .required (htotal (by decide)) (reads_money hD o.total)
  · exact .required (hstat (by decide)) hstatus
  · exact .optional (hpay (by decide)) hpayment
  · exact hversion
  · exact .required (hcreated (by decide)) (reads_instant hD o.createdAt)
  · exact .required (hupdated (by decide)) (reads_instant hD o.updatedAt)

/-- The names of the members of a written order are those of its fields. -/
theorem names_orderMembers (o : Order) : (orderMembers o).map Prod.fst = orderFields.names := rfl

theorem nodup_orderMembers (o : Order) : ((orderMembers o).map Prod.fst).Nodup := by
  rw [names_orderMembers]
  decide

/-- The reader of orders gets the order from every restatement of what is written for it. -/
theorem reads_order (hD : Drafting D) (o : Order) : Reads D more (write o) read o := by
  have hlookup : ∀ m ∈ orderMembers o, (orderMembers o).lookup m.1 = some m.2 :=
    fun m hm => (lookup_eq_some_iff_mem (nodup_orderMembers o)).2 hm
  exact reads_record hD
    (accepts_order hD o (fun m hm _ => hlookup m hm) (.withDefault rfl (reads_version hD o.version)))
    (nodup_orderMembers o) rfl

/-- Without its version, an order that was never written is read from every restatement that has no
version. -/
theorem read_order_without (hD : Drafting D) {o : Order} (ho : o.version = .initial) {w : Json}
    (hw : Restates more ((write o).without "version") w) (hnone : w.get? "version" = none) :
    read (D w) = .ok o := by
  have hnodup : (((orderMembers o).filter (·.1 ≠ "version")).map Prod.fst).Nodup :=
    (nodup_orderMembers o).sublist (List.filter_sublist.map Prod.fst)
  have hlookup : ∀ m ∈ orderMembers o, m.1 ≠ "version" →
      ((orderMembers o).filter (·.1 ≠ "version")).lookup m.1 = some m.2 := by
    intro m hm hname
    rw [lookup_eq_some_iff_mem hnodup, List.mem_filter]
    exact ⟨hm, decide_eq_true hname⟩
  have habsent : (Fields.withDefault "version" read Version.initial).Accepts D more
      ((orderMembers o).filter (·.1 ≠ "version")) o.version := by
    rw [ho]
    refine .absent ?_
    simp
  have haccepts := accepts_order hD o hlookup habsent
  have hwithout : (write o).without "version" =
      .object ((orderMembers o).filter (·.1 ≠ "version")) := rfl
  rw [hwithout] at hw
  cases hw with
  | @object _ _ _ ws hkept hperm hother hmore =>
      refine haccepts.read hD hnodup (.object hkept hperm hother hmore) ?_
      intro m hm hname
      have hversion : m.1 ≠ "version" := by
        have hmiss := List.lookup_eq_none_iff.1 hnone m hm
        exact fun heq => by simp [heq] at hmiss
      rw [← names_orderMembers o] at hname
      obtain ⟨n, hn, hsame⟩ := List.mem_map.1 hname
      rw [← hsame] at hversion ⊢
      exact List.mem_map_of_mem (List.mem_filter.2 ⟨hn, decide_eq_true hversion⟩)

end Wire

/-- Reading the text of an order gives the order back: the text that is written for it, and every text
that restates it, with the members of its objects in any order and with other members anywhere among
them. If the version is zero, it may be left out of any of these. -/
theorem order_round_trip (o : Order) :
    Reader.ofText Wire.read (Wire.write o).text = .ok o ∧
      (∀ w, Json.Restates true (Wire.write o) w → Reader.ofText Wire.read w.text = .ok o) ∧
      (o.version = .initial → ∀ w, Json.Restates true ((Wire.write o).without "version") w →
        w.get? "version" = none → Reader.ofText Wire.read w.text = .ok o) := by
  have htext : ∀ w : Json, (Wire.read w.draft : Except ReadError Order) = .ok o →
      Reader.ofText Wire.read w.text = .ok o := by
    intro w hw
    rw [Reader.ofText, Draft.ofText_text]
    simp only [hw]
    rfl
  have hread : Json.Reads Json.draft true (Wire.write o) Wire.read o :=
    Wire.reads_order Json.drafting_draft o
  exact ⟨htext _ (hread _ (.refl true _)), fun w hw => htext w (hread w hw),
    fun ho w hw hnone => htext w (Wire.read_order_without Json.drafting_draft ho hw hnone)⟩

/-- A paid order with its numbers at the ends of their ranges, placed before the year 0 and paid in the
last leap second there is. -/
def Wire.farOrder : Order where
  id := ⟨⟨0x00c0ffee00c0ffee00c0ffee00c0ffee#128⟩⟩
  user := ⟨⟨0#128⟩⟩
  parts := [⟨⟨2#128⟩⟩, ⟨⟨2#128⟩⟩]
  total := ⟨2 ^ 63 - 1, by decide, by decide⟩
  status := .paid
  payment := some ⟨.investorMoney, ⟨⟨11#128⟩⟩⟩
  version := ⟨18446744073709551615⟩
  createdAt := ⟨⟨-262143, 1, 1, by decide⟩, 7, 1000, by decide, by decide, by decide⟩
  updatedAt := ⟨⟨262142, 12, 31, by decide⟩, 86399, 1999999999, by decide, by decide, by decide⟩

/-- The order is read with its members in the opposite order and a note among them, and one that was
never written without a version. -/
theorem order_round_trip_far :
    let noted := Wire.orderMembers Wire.farOrder ++
      [("note", .array [.double ⟨4607182418800017408⟩, .object [("version", .null)]])]
    let fresh := { Wire.farOrder with version := .initial }
    Reader.ofText Wire.read (Json.object noted.reverse).text = .ok Wire.farOrder ∧
      Reader.ofText Wire.read ((Wire.write fresh).without "version").text = .ok fresh := by
  intro noted fresh
  refine ⟨(order_round_trip Wire.farOrder).2.1 _ ?_,
    (order_round_trip fresh).2.2 rfl _ (.refl true _) (by decide)⟩
  refine .object (.refl true _) (List.reverse_perm noted) ?_ (by simp)
  simp [Wire.orderMembers]

end OrderDesk
