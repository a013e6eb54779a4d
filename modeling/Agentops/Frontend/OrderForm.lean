import Agentops.Agent.OrderIdTexts
import Agentops.Api.Orders
import Agentops.Foundations.Trimming
import Agentops.Frontend.EventStream
import Mathlib.Data.Rat.Lemmas

/-!
# The form for a new order, `order-form.component.ts`

The form sends one request at a time, and checks beforehand what the API checks of it. What it lets through is an
order for the API unless the quantity has a fractional part. A request may get lost, or its answer, after the order
has been created; then the form says that there is none, and the next submit is another request.
-/

namespace Agentops

open Transaction LabelledRun RefundWorkflow

/-! ### The form -/

/-- A character that `trim` takes away. -/
def isJsSpaceChar (c : Char) : Bool := c.toNat < 0x10000 && isJsSpace (JsonText.unit c)

/-- `trim`. -/
def trimText (text : String) : String := String.ofList (Trimming.trim isJsSpaceChar text.toList)

/-- The controls of the form, where a quantity that is no number is none, and whether it is submitting. -/
structure OrderForm where
  customerId : String := ""
  productSku : String := ""
  quantity : Option ℚ := some 1
  submitting : Bool := false
  deriving DecidableEq

/-- The body of `POST /orders`. -/
structure OrderBody where
  customerId : String
  productSku : String
  quantity : ℚ
  deriving DecidableEq

namespace OrderForm

/-- The validators of the three controls. -/
def invalid (form : OrderForm) : Bool :=
  form.customerId = "" ∨ form.customerId.toList.all isJsSpaceChar = true ∨ form.productSku = "" ∨
    form.quantity.all (fun q => q < 1 ∨ 10 < q) = true

/-- What is sent. -/
def body (form : OrderForm) : OrderBody := ⟨trimText form.customerId, form.productSku, form.quantity.getD 0⟩

end OrderForm

/-! ### The API -/

/-- `OrderCreate` of a body. A number with a fractional part is no `int`. -/
def OrderCreate.ofBody (body : OrderBody) : Option OrderCreate :=
  if named : body.customerId ≠ "" then
    if body.quantity.den = 1 then
      (Quantity.ofInt? body.quantity.num).map fun quantity => ⟨body.customerId, body.productSku, quantity, named⟩
    else none
  else none

/-- What is answered. A body that is no `OrderCreate` is unprocessable. -/
inductive OrderAnswer
  | unprocessable
  | failed (e : CreateError)
  | created (order : OrderResponse)
  deriving DecidableEq

/-- `POST /orders`. -/
def postOrder (upper : String → String) (user : CurrentUser) (body : OrderBody) (now : String) (db : Database) :
    OrderAnswer × Database :=
  match OrderCreate.ofBody body with
  | none => (.unprocessable, db)
  | some input =>
    match createOrder upper user input now db with
    | (.error e, db') => (.failed e, db')
    | (.ok order, db') => (.created order, db')

/-! ### Both -/

/-- The form and the tables, the bodies that were sent, and the answers, each with the number of its request. -/
structure OrderDesk where
  form : OrderForm
  db : Database
  sent : List OrderBody
  answers : List (ℕ × OrderAnswer)

/-- The form is shown for the first time. -/
def OrderDesk.initial (db : Database) : OrderDesk := ⟨{}, db, [], []⟩

/-- What happens to the form, its requests and the tables. -/
inductive DeskEvent
  | typed (customerId : String)
  | chosen (productSku : String)
  | counted (quantity : Option ℚ)
  | submit
  /-- The API takes up the request of this number. -/
  | served (k : ℕ) (now : String)
  /-- The answer to the last request arrives, or the browser gives it up. -/
  | answered
  | lost
  | others (e : StoreEvent)

/-- The form learns what has become of its request. -/
def DeskEvent.closes : DeskEvent → Bool
  | .answered | .lost => true
  | _ => false

namespace OrderDesk

/-- `submit`. -/
def submit (desk : OrderDesk) : OrderDesk :=
  if desk.form.submitting = true ∨ desk.form.invalid = true then desk
  else { desk with form := { desk.form with submitting := true }, sent := desk.sent ++ [desk.form.body] }

/-- The callbacks of `subscribe`. -/
def close (desk : OrderDesk) : Option OrderAnswer → OrderDesk
  | some (.created _) => { desk with form := { desk.form with submitting := false, quantity := some 1 } }
  | _ => { desk with form := { desk.form with submitting := false } }

end OrderDesk

/-- One event. -/
def deskStep (upper : String → String) (user : CurrentUser) (desk : OrderDesk) : DeskEvent → Option OrderDesk
  | .typed customerId => some { desk with form := { desk.form with customerId := customerId } }
  | .chosen productSku => some { desk with form := { desk.form with productSku := productSku } }
  | .counted quantity => some { desk with form := { desk.form with quantity := quantity } }
  | .submit => some desk.submit
  | .served k now =>
    match desk.sent[k]? with
    | none => none
    | some body =>
      if k ∈ desk.answers.map Prod.fst then none
      else
        let (answer, db) := postOrder upper user body now desk.db
        some { desk with db := db, answers := desk.answers ++ [(k, answer)] }
  | .answered =>
    if desk.form.submitting then
      (desk.answers.lookup (desk.sent.length - 1)).map fun answer => desk.close (some answer)
    else none
  | .lost => if desk.form.submitting then some (desk.close none) else none
  | .others e => (storeStep desk.db e).map fun db => { desk with db := db }

section Bodies

/-- What the form sends: an id, a product, and a number from one to ten. -/
structure OrderBody.Complete (body : OrderBody) : Prop where
  named : body.customerId ≠ ""
  chosen : body.productSku ≠ ""
  atLeastOne : 1 ≤ body.quantity
  atMostTen : body.quantity ≤ 10

/-- What a valid form sends is complete. -/
theorem OrderForm.complete_body {form : OrderForm} (h : form.invalid = false) : form.body.Complete := by
  simp only [OrderForm.invalid, decide_eq_false_iff_not, not_or] at h
  obtain ⟨-, hblank, hsku, hquantity⟩ := h
  have hnamed : trimText form.customerId ≠ "" := by
    intro hempty
    rw [Bool.not_eq_true, List.all_eq_false] at hblank
    obtain ⟨c, hc, hnot⟩ := hblank
    have hkept := Trimming.mem_trim hc (Bool.not_eq_true _ ▸ hnot)
    rw [trimText, String.ofList_eq_empty_iff] at hempty
    rw [hempty] at hkept
    cases hkept
  cases hq : form.quantity with
  | none => simp [hq] at hquantity
  | some q =>
    simp only [hq, Option.all_some, decide_eq_true_eq, not_or, not_lt] at hquantity
    exact ⟨hnamed, hsku, by simpa [OrderForm.body, hq] using hquantity.1,
      by simpa [OrderForm.body, hq] using hquantity.2⟩

/-- A whole number from one to ten is a quantity. -/
theorem Quantity.exists_ofInt? {q : ℚ} (hwhole : q.den = 1) (hlow : 1 ≤ q) (hhigh : q ≤ 10) :
    ∃ quantity, Quantity.ofInt? q.num = some quantity := by
  rw [← Rat.coe_int_num_of_den_eq_one hwhole] at hlow hhigh
  have hnum : 1 ≤ q.num ∧ q.num ≤ 10 := ⟨by exact_mod_cast hlow, by exact_mod_cast hhigh⟩
  exact ⟨_, dif_pos hnum⟩

/-- The API takes such a body exactly if its quantity is a whole number. -/
theorem OrderBody.Complete.ofBody_eq_none_iff {body : OrderBody} (h : body.Complete) :
    OrderCreate.ofBody body = none ↔ body.quantity.den ≠ 1 := by
  rw [OrderCreate.ofBody, dif_pos h.named]
  by_cases hwhole : body.quantity.den = 1
  · obtain ⟨quantity, hquantity⟩ := Quantity.exists_ofInt? hwhole h.atLeastOne h.atMostTen
    simp [hwhole, hquantity]
  · simp [hwhole]

/-- It takes what the body says. -/
theorem OrderCreate.of_ofBody {body : OrderBody} {input : OrderCreate} (h : OrderCreate.ofBody body = some input) :
    input.customerId = body.customerId ∧ input.productSku = body.productSku ∧
      (input.quantity.value : ℚ) = body.quantity := by
  simp only [OrderCreate.ofBody, Option.dite_none_right_eq_some, Option.ite_none_right_eq_some] at h
  obtain ⟨hnamed, hwhole, h⟩ := h
  obtain ⟨quantity, hquantity, rfl⟩ := Option.map_eq_some_iff.mp h
  refine ⟨rfl, rfl, ?_⟩
  simp only [Quantity.ofInt?, Option.dite_none_right_eq_some, Option.some.injEq] at hquantity
  obtain ⟨hbounds, rfl⟩ := hquantity
  have hnat : ((body.quantity.num.toNat : ℕ) : ℤ) = body.quantity.num := Int.toNat_of_nonneg (by omega)
  calc ((body.quantity.num.toNat : ℕ) : ℚ) = ((body.quantity.num.toNat : ℤ) : ℚ) := rfl
    _ = body.quantity := by rw [hnat, Rat.coe_int_num_of_den_eq_one hwhole]

end Bodies

section Server

variable {upper : String → String} {user : CurrentUser} {db : Database}

/-- The order is a row of the tables, as the body says, for the customer that the caller may act for. -/
def OrderBody.IsRow (upper : String → String) (user : CurrentUser) (db : Database) (body : OrderBody)
    (order : OrderResponse) : Prop :=
  ∃ row ∈ db.orders, order.id = formatOrderId row.id ∧ row.productSku = body.productSku ∧
    (row.quantity.value : ℚ) = body.quantity ∧
    scopeCustomerId upper user (some body.customerId) = .ok (some row.customerId)

/-- What `POST /orders` does with a body that the form sends. -/
structure Posted (upper : String → String) (user : CurrentUser) (body : OrderBody) (db : Database)
    (out : OrderAnswer × Database) : Prop where
  safe : SafeChange db out.2
  unprocessable : out.1 = .unprocessable ↔ body.quantity.den ≠ 1
  created : ∀ order, out.1 = .created order → body.IsRow upper user out.2 order ∧
    ∀ row ∈ db.orders, order.id ≠ formatOrderId row.id

/-- Whatever becomes of it, creating an order is an event of the store, or nothing. -/
theorem createOrder_safe (h : StoreSound db) (input : OrderCreate) (now : String) :
    SafeChange db (createOrder upper user input now db).2 := by
  unfold createOrder
  cases scopeCustomerId upper user (some input.customerId) with
  | error e => exact .refl h
  | ok scope =>
    cases scope with
    | none => exact .refl h
    | some customerId =>
      have hstep : storeStep db (.create customerId input.productSku input.quantity.value now) =
          some ((createOrderRow customerId input.productSku input.quantity.value now).commit db) := rfl
      have hsafe := storeStep_safe h hstep
      unfold Tx.commit at hsafe
      cases hrun : (createOrderRow customerId input.productSku input.quantity.value now).run db with
      | error e =>
        rw [hrun] at hsafe
        simpa only [hrun] using hsafe
      | ok out =>
        rw [hrun] at hsafe
        obtain ⟨view, db'⟩ := out
        cases view with
        | none => simpa only [hrun] using hsafe
        | some view => simpa only [hrun] using hsafe

/-- The row has the quantity that was asked for. -/
theorem Quantity.of_checkOrder {c sku now : String} {quantity : Quantity} {row : Order}
    (h : db.checkOrder c sku quantity.value now = .ok row) : row.quantity = quantity := by
  have hquantity : Quantity.ofInt? quantity.value = some quantity :=
    dif_pos ⟨by exact_mod_cast quantity.atLeastOne, by exact_mod_cast quantity.atMostTen⟩
  cases hrefusal : insertOrderRefusal c quantity.value with
  | some e => simp [Database.checkOrder, hrefusal] at h
  | none =>
    simp only [Database.checkOrder, hrefusal, Database.checkNumbered, hquantity] at h
    obtain ⟨-, h⟩ := ite_error_eq_ok.mp h
    obtain ⟨-, h⟩ := ite_error_eq_ok.mp h
    rw [← Except.ok.inj h]

/-- What is answered to a complete body, and what becomes of the tables. -/
theorem posted_postOrder {body : OrderBody} (hbody : body.Complete) (h : StoreSound db) (now : String) :
    Posted upper user body db (postOrder upper user body now db) := by
  unfold postOrder
  cases hinput : OrderCreate.ofBody body with
  | none => exact ⟨.refl h, iff_of_true rfl (hbody.ofBody_eq_none_iff.mp hinput), nofun⟩
  | some input =>
    have hwhole : ¬ body.quantity.den ≠ 1 := by
      rw [← hbody.ofBody_eq_none_iff, hinput]
      exact nofun
    have hsafe := @createOrder_safe upper user db h input now
    cases hout : createOrder upper user input now db with
    | mk result db' =>
      rw [hout] at hsafe
      simp only [hout]
      cases result with
      | error e => exact ⟨hsafe, iff_of_false nofun hwhole, nofun⟩
      | ok order =>
        refine ⟨hsafe, iff_of_false nofun hwhole, fun created hcreated => ?_⟩
        obtain rfl := OrderAnswer.created.inj hcreated
        obtain ⟨customerId, row, p, hscope, hrow, rfl, -, rfl⟩ := createOrder_eq_ok hout
        obtain ⟨hcustomer, hsku, hquantity⟩ := OrderCreate.of_ofBody hinput
        obtain ⟨-, hrowCustomer, hrowSku, -, hnew, -⟩ := Database.checkOrder_eq_ok hrow
        have hrowQuantity : row.quantity = input.quantity := Quantity.of_checkOrder hrow
        refine ⟨⟨row, by simp, rfl, hrowSku.trans hsku, by rw [hrowQuantity, hquantity], ?_⟩,
          fun other hother heq => ?_⟩
        · rw [hrowCustomer, ← hcustomer, hscope]
        · exact hnew (List.mem_map.mpr ⟨other, hother, (formatOrderId_injective heq).symm⟩)

/-- The row stays, whatever status the order comes to. -/
theorem OrderBody.IsRow.later {body : OrderBody} {order : OrderResponse} {db' : Database}
    (h : body.IsRow upper user db order) (hevolves : db.Evolves db') : body.IsRow upper user db' order := by
  obtain ⟨row, hrow, hid, hsku, hquantity, hscope⟩ := h
  obtain ⟨row', hrow', hbecomes⟩ := hevolves.orders row hrow
  exact ⟨row', hrow', by rw [hid, hbecomes.id], hbecomes.productSku.trans hsku, by rw [hbecomes.quantity, hquantity],
    by rw [hscope, hbecomes.customerId]⟩

end Server

/-- The order that an answer brings. -/
def OrderAnswer.order? : OrderAnswer → Option OrderResponse
  | .created order => some order
  | _ => none

namespace OrderDesk

variable {upper : String → String} {user : CurrentUser} {desk desk' : OrderDesk}

/-- The ids of the orders that were created for the form. -/
def createdIds (desk : OrderDesk) : List String := desk.answers.filterMap fun entry => entry.2.order?.map (·.id)

/-- What holds of the form and the tables. -/
structure Sound (upper : String → String) (user : CurrentUser) (desk : OrderDesk) : Prop where
  store : StoreSound desk.db
  complete : ∀ body ∈ desk.sent, body.Complete
  numbers : (desk.answers.map Prod.fst).Nodup
  answered : ∀ k answer, (k, answer) ∈ desk.answers → ∃ body, desk.sent[k]? = some body ∧
    (answer = .unprocessable ↔ body.quantity.den ≠ 1) ∧
    ∀ order, answer = .created order → body.IsRow upper user desk.db order
  distinct : desk.createdIds.Nodup

/-- At first nothing was sent. -/
theorem sound_initial {db : Database} (h : StoreSound db) : Sound upper user (.initial db) :=
  ⟨h, nofun, List.nodup_nil, nofun, List.nodup_nil⟩

/-- What is done at the form alone keeps it so. -/
theorem Sound.form (h : desk.Sound upper user) (form : OrderForm) : Sound upper user { desk with form := form } :=
  ⟨h.store, h.complete, h.numbers, h.answered, h.distinct⟩

/-- What is submitted is complete. -/
theorem Sound.submit (h : desk.Sound upper user) : desk.submit.Sound upper user := by
  unfold OrderDesk.submit
  by_cases hsends : desk.form.submitting = true ∨ desk.form.invalid = true
  · rw [if_pos hsends]
    exact h
  · rw [if_neg hsends]
    have hbody : desk.form.body.Complete := OrderForm.complete_body (by simpa using (not_or.mp hsends).2)
    refine ⟨h.store, fun body hmem => ?_, h.numbers, fun k answer hmem => ?_, h.distinct⟩
    · rcases List.mem_append.mp hmem with hold | hlast
      · exact h.complete body hold
      · rw [List.mem_singleton.mp hlast]
        exact hbody
    · obtain ⟨body, hsent, hanswer⟩ := h.answered k answer hmem
      have hlt := (List.getElem?_eq_some_iff.mp hsent).1
      exact ⟨body, by rw [List.getElem?_append_left hlt, hsent], hanswer⟩

/-- So does a safe change of the tables. -/
theorem Sound.change (h : desk.Sound upper user) {db : Database} (hsafe : SafeChange desk.db db) :
    Sound upper user { desk with db := db } := by
  refine ⟨hsafe.sound, h.complete, h.numbers, fun k answer hmem => ?_, h.distinct⟩
  obtain ⟨body, hsent, hunprocessable, hcreated⟩ := h.answered k answer hmem
  exact ⟨body, hsent, hunprocessable, fun order horder => (hcreated order horder).later hsafe.evolves⟩

/-- Every order that was created is in the tables. -/
theorem Sound.exists_row (h : desk.Sound upper user) {id : String} (hid : id ∈ desk.createdIds) :
    ∃ row ∈ desk.db.orders, id = formatOrderId row.id := by
  obtain ⟨⟨k, answer⟩, hanswer, hid⟩ := List.mem_filterMap.mp hid
  obtain ⟨order, horder, rfl⟩ := Option.map_eq_some_iff.mp hid
  obtain ⟨body, -, -, hcreated⟩ := h.answered k answer hanswer
  have hanswered : answer = .created order := by
    cases answer with
    | created other => exact congrArg OrderAnswer.created (Option.some.inj horder)
    | unprocessable => cases horder
    | failed e => cases horder
  obtain ⟨row, hrow, hformat, -⟩ := hcreated order hanswered
  exact ⟨row, hrow, hformat⟩

/-- So does a request that is served for the first time. -/
theorem Sound.served (h : desk.Sound upper user) {k : ℕ} {body : OrderBody} (hsent : desk.sent[k]? = some body)
    (hfirst : k ∉ desk.answers.map Prod.fst) {out : OrderAnswer × Database}
    (hposted : Posted upper user body desk.db out) :
    Sound upper user { desk with db := out.2, answers := desk.answers ++ [(k, out.1)] } := by
  have hchanged := h.change hposted.safe
  refine ⟨hposted.safe.sound, h.complete, ?_, fun j answer hmem => ?_, ?_⟩
  · rw [List.map_append, List.nodup_append]
    refine ⟨h.numbers, List.nodup_singleton k, fun j hj last hlast hsame => hfirst ?_⟩
    rw [List.map_singleton, List.mem_singleton] at hlast
    rwa [hsame, hlast] at hj
  · rcases List.mem_append.mp hmem with hold | hlast
    · exact hchanged.answered j answer hold
    · obtain ⟨rfl, rfl⟩ := Prod.mk.inj (List.mem_singleton.mp hlast)
      exact ⟨body, hsent, hposted.unprocessable, fun order horder => (hposted.created order horder).1⟩
  · rw [createdIds, List.filterMap_append, ← createdIds]
    cases hcreated : out.1 with
    | created order =>
      rw [List.nodup_append]
      refine ⟨h.distinct, List.nodup_singleton order.id, fun id hid last hlast hsame => ?_⟩
      obtain ⟨row, hrow, hformat⟩ := h.exists_row hid
      rw [hsame, List.mem_singleton.mp hlast] at hformat
      exact (hposted.created order hcreated).2 row hrow hformat
    | unprocessable => exact (List.append_nil _).symm ▸ h.distinct
    | failed e => exact (List.append_nil _).symm ▸ h.distinct

/-- A request is served that was sent and not served before. -/
theorem deskStep_served {k : ℕ} {now : String} (hstep : deskStep upper user desk (.served k now) = some desk') :
    ∃ body, desk.sent[k]? = some body ∧ k ∉ desk.answers.map Prod.fst ∧
      desk' = { desk with
        db := (postOrder upper user body now desk.db).2
        answers := desk.answers ++ [(k, (postOrder upper user body now desk.db).1)] } := by
  cases hsent : desk.sent[k]? with
  | none => simp [deskStep, hsent] at hstep
  | some body =>
    simp only [deskStep, hsent, Option.ite_none_left_eq_some, Option.some.injEq] at hstep
    exact ⟨body, rfl, hstep.1, hstep.2.symm⟩

/-- The form that waits gets the answer. -/
theorem deskStep_answered (hstep : deskStep upper user desk .answered = some desk') :
    desk.form.submitting = true ∧ ∃ answer, desk' = desk.close (some answer) := by
  simp only [deskStep, Option.ite_none_right_eq_some, Option.map_eq_some_iff] at hstep
  obtain ⟨hwaits, answer, -, rfl⟩ := hstep
  exact ⟨hwaits, answer, rfl⟩

/-- Or it gets none. -/
theorem deskStep_lost (hstep : deskStep upper user desk .lost = some desk') :
    desk.form.submitting = true ∧ desk' = desk.close none := by
  simp only [deskStep, Option.ite_none_right_eq_some, Option.some.injEq] at hstep
  exact ⟨hstep.1, hstep.2.symm⟩

/-- What is so stays so with every event. -/
theorem Sound.step (h : desk.Sound upper user) {e : DeskEvent} (hstep : deskStep upper user desk e = some desk') :
    desk'.Sound upper user := by
  cases e with
  | typed customerId => exact Option.some.inj hstep ▸ h.form _
  | chosen productSku => exact Option.some.inj hstep ▸ h.form _
  | counted quantity => exact Option.some.inj hstep ▸ h.form _
  | submit => exact Option.some.inj hstep ▸ h.submit
  | served k now =>
    obtain ⟨body, hsent, hfirst, rfl⟩ := deskStep_served hstep
    exact h.served hsent hfirst (posted_postOrder (h.complete body (List.mem_of_getElem? hsent)) h.store now)
  | answered =>
    obtain ⟨-, answer, rfl⟩ := deskStep_answered hstep
    unfold close
    split <;> exact h.form _
  | lost =>
    obtain ⟨-, rfl⟩ := deskStep_lost hstep
    exact h.form _
  | others e =>
    obtain ⟨db, hdb, rfl⟩ := Option.map_eq_some_iff.mp hstep
    exact h.change (storeStep_safe h.store hdb)

/-- A form that is submitting waits for its last request, and has learnt of all others. -/
def Accounted (past : List DeskEvent) (desk : OrderDesk) : Prop :=
  desk.sent.length = past.countP DeskEvent.closes + if desk.form.submitting then 1 else 0

/-- Every event keeps count. -/
theorem Accounted.step {past : List DeskEvent} {e : DeskEvent} (h : desk.Accounted past)
    (hstep : deskStep upper user desk e = some desk') : desk'.Accounted (past ++ [e]) := by
  have hsame (hopen : e.closes = false) (hsent : desk'.sent = desk.sent)
      (hsubmitting : desk'.form.submitting = desk.form.submitting) : desk'.Accounted (past ++ [e]) := by
    simpa [Accounted, hsent, hsubmitting, hopen] using h
  have hclosed {answer : Option OrderAnswer} (hcloses : e.closes = true) (hwaits : desk.form.submitting = true)
      (hclose : desk' = desk.close answer) : desk'.Accounted (past ++ [e]) := by
    have hend : desk'.sent = desk.sent ∧ desk'.form.submitting = false := by
      rw [hclose]
      unfold close
      split <;> exact ⟨rfl, rfl⟩
    rw [Accounted, hwaits] at h
    simp [Accounted, hend, hcloses, h]
  cases e with
  | typed customerId =>
    obtain rfl := Option.some.inj hstep
    exact hsame rfl rfl rfl
  | chosen productSku =>
    obtain rfl := Option.some.inj hstep
    exact hsame rfl rfl rfl
  | counted quantity =>
    obtain rfl := Option.some.inj hstep
    exact hsame rfl rfl rfl
  | submit =>
    obtain rfl := Option.some.inj hstep
    by_cases hsends : desk.form.submitting = true ∨ desk.form.invalid = true
    · have hignored : desk.submit = desk := if_pos hsends
      exact hsame rfl (congrArg OrderDesk.sent hignored) (congrArg (·.form.submitting) hignored)
    · have hidle : desk.form.submitting = false := by simpa using (not_or.mp hsends).1
      rw [Accounted, hidle] at h
      rw [OrderDesk.submit, if_neg hsends]
      simp [Accounted, h, DeskEvent.closes]
  | served k now =>
    obtain ⟨body, -, -, rfl⟩ := deskStep_served hstep
    exact hsame rfl rfl rfl
  | answered =>
    obtain ⟨hwaits, answer, hclose⟩ := deskStep_answered hstep
    exact hclosed rfl hwaits hclose
  | lost =>
    obtain ⟨hwaits, hclose⟩ := deskStep_lost hstep
    exact hclosed rfl hwaits hclose
  | others e =>
    obtain ⟨db, -, rfl⟩ := Option.map_eq_some_iff.mp hstep
    exact hsame rfl rfl rfl

/-- In every run of the form, the API and anything else that changes the tables. The form sends a request only after it
has learnt of the one before. A request that is served, which here the network does once at most, is unprocessable
exactly if its quantity has a fractional part; what is created for it is in the tables as the form has sent it, and
different requests never create the same order. So there are no more orders than answers and losses, and one. -/
theorem form_orders_once {db : Database} (hdb : StoreSound db) {events : List DeskEvent}
    (hrun : runFrom (deskStep upper user) (.initial db) events = some desk) :
    desk.sent.length = events.countP DeskEvent.closes + (if desk.form.submitting then 1 else 0) ∧
      (desk.answers.map Prod.fst).Nodup ∧
      (∀ k answer, (k, answer) ∈ desk.answers → ∃ body, desk.sent[k]? = some body ∧
        (answer = .unprocessable ↔ body.quantity.den ≠ 1) ∧
        ∀ order, answer = .created order → body.IsRow upper user desk.db order) ∧
      desk.createdIds.Nodup ∧ desk.createdIds.length ≤ events.countP DeskEvent.closes + 1 := by
  have hsound : desk.Sound upper user :=
    runFrom_invariant (deskStep upper user) (Sound upper user) (fun _ _ _ h hstep => h.step hstep) hrun
      (sound_initial hdb)
  have hcounted : desk.Accounted events :=
    runFrom_history (deskStep upper user) Accounted (fun _ _ _ _ h hstep => h.step hstep) [] hrun rfl
  refine ⟨hcounted, hsound.numbers, hsound.answered, hsound.distinct, ?_⟩
  have hcreated : desk.createdIds.length ≤ desk.answers.length := List.length_filterMap_le _ _
  have hserved : (desk.answers.map Prod.fst).length ≤ (List.range desk.sent.length).length := by
    apply (hsound.numbers.subperm _).length_le
    intro k hk
    obtain ⟨⟨_, answer⟩, hanswer, rfl⟩ := List.mem_map.mp hk
    obtain ⟨body, hsent, -⟩ := hsound.answered _ answer hanswer
    exact List.mem_range.mpr (List.getElem?_eq_some_iff.mp hsent).1
  rw [List.length_map, List.length_range] at hserved
  rw [Accounted] at hcounted
  split at hcounted <;> omega

/-- A double click, an answer that gets lost after the order was created, a second attempt, and one and a half. -/
def twoOrders : List DeskEvent :=
  [.typed " CUS-001 ", .chosen "SP-001", .submit, .submit, .served 0 "2026-07-01", .lost, .submit,
    .served 1 "2026-07-01", .answered, .counted (some (3 / 2)), .submit, .served 2 "2026-07-01"]

/-- Two orders are created for three requests, and the third is unprocessable. -/
theorem form_orders_once_twoOrders :
    ∃ desk, runFrom (deskStep asciiUpper manager) (.initial orderOf98) twoOrders = some desk ∧
      desk.createdIds = ["ORD-006", "ORD-007"] ∧ desk.sent.length = 3 ∧
      ∃ body, desk.sent[2]? = some body ∧ body.quantity.den ≠ 1 := by
  have hcomputed : (runFrom (deskStep asciiUpper manager) (.initial orderOf98) twoOrders).map (fun desk =>
      (desk.createdIds, desk.answers[2]?, desk.form.submitting)) =
        some (["ORD-006", "ORD-007"], some (2, .unprocessable), true) := by decide +kernel
  obtain ⟨desk, hrun, hfacts⟩ := Option.map_eq_some_iff.mp hcomputed
  obtain ⟨hids, hfacts⟩ := Prod.mk.inj hfacts
  obtain ⟨hanswer, hsubmitting⟩ := Prod.mk.inj hfacts
  obtain ⟨hsent, -, hanswered, -⟩ := form_orders_once storeSound_orderOf98 hrun
  obtain ⟨body, hbody, hunprocessable, -⟩ := hanswered 2 .unprocessable (List.mem_of_getElem? hanswer)
  refine ⟨desk, hrun, hids, ?_, body, hbody, hunprocessable.mp rfl⟩
  rw [hsent, hsubmitting]
  decide

end OrderDesk

end Agentops
