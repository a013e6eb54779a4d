import Agentops.Agent.OrderIdTexts
import Agentops.Foundations.StableSort
import Agentops.Frontend.EventStream
import Agentops.Frontend.StoreService

/-!
# The orders that the table shows

The orders that match the status and the search text are sorted by a column. Order ids are compared as texts: orders
follow their numbers while all are printed with the same number of digits, and beyond that exactly as long as no
number exceeds the first digits of a greater one.
-/

namespace Agentops

open Numerals TextDecoder

/-- The value of a status. -/
def OrderStatus.text : OrderStatus → String
  | .pending => "pending"
  | .paid => "paid"
  | .processing => "processing"
  | .shipped => "shipped"
  | .delivered => "delivered"
  | .cancelled => "cancelled"
  | .refunded => "refunded"

/-- What the browser makes of texts: how `localeCompare` compares them, their small letters, and the time that
`Date.parse` reads in one, if any. -/
structure Browser where
  localeCompare : String → String → ℤ
  toLowerCase : JsString → JsString
  dateParse : String → Option ℤ

/-- `compareOrders`; a difference that is no number counts as none. -/
def compareOrders (browser : Browser) (a b : OrderResponse) : SortKey → ℤ
  | .quantity => a.quantity - b.quantity
  | .total => a.total - b.total
  | .createdAt =>
    match browser.dateParse a.createdAt, browser.dateParse b.createdAt with
    | some time, some time' => time - time'
    | _, _ => 0
  | .product => browser.localeCompare a.name b.name
  | .id => browser.localeCompare a.id b.id
  | .customerId => browser.localeCompare a.customerId b.customerId
  | .status => browser.localeCompare a.status.text b.status.text

namespace StoreService

/-- The rows that `visibleOrders` keeps. -/
def matchingOrders (browser : Browser) (store : StoreService) : List OrderResponse :=
  let needle := browser.toLowerCase (Trimming.trim isJsSpace (utf16 store.query))
  store.orders.filter fun order => store.status.all (order.status = ·) ∧
    (needle = [] ∨ [order.id, order.customerId, order.sku, order.name].any fun text =>
      needle <:+: browser.toLowerCase (utf16 text))

/-- `visibleOrders`. -/
def visibleOrders (browser : Browser) (store : StoreService) : List OrderResponse :=
  let factor : ℤ := if store.sort.dir = .asc then 1 else -1
  (store.matchingOrders browser).mergeSort fun a b => factor * compareOrders browser a b store.sort.key ≤ 0

end StoreService

/-- The id that `order_from_row` prints of a number. -/
abbrev printedId (n : ℕ) : String := formatOrderId n

/-- The digits that a number is printed with. -/
def idDigits (n : ℕ) : List ℕ :=
  (List.replicate (3 - (Nat.toDigits 10 n).length) '0' ++ Nat.toDigits 10 n).map fun c => c.toNat - '0'.toNat

/-- How many digits a number is printed with. -/
def idWidth (n : ℕ) : ℕ := max 3 (Nat.toDigits 10 n).length

/-- A text of the characters of order ids. -/
def IsIdText (text : String) : Prop := ∀ c ∈ text.toList, c.isDigit = true ∨ c ∈ "ORD-".toList

/-- `localeCompare` orders the texts of these characters lexicographically by an order of the characters in which
digits come by value. -/
structure OrdersIdTexts (localeCompare : String → String → ℤ) (before : Char → Char → Prop) : Prop where
  irrefl : ∀ c, ¬ before c c
  digits : ∀ c d, c.isDigit = true → d.isDigit = true → (before c d ↔ c.toNat < d.toNat)
  negative : ∀ a b, IsIdText a → IsIdText b → (localeCompare a b < 0 ↔ List.Lex before a.toList b.toList)
  positive : ∀ a b, IsIdText a → IsIdText b → (0 < localeCompare a b ↔ List.Lex before b.toList a.toList)

section Digits

variable {m n : ℕ}

/-- An id has as many digits as it is wide. -/
theorem length_idDigits (n : ℕ) : (idDigits n).length = idWidth n := by
  simp only [idDigits, idWidth, List.length_map, List.length_append, List.length_replicate]
  omega

/-- They are decimal digits. -/
theorem idDigits_lt (n : ℕ) : ∀ d ∈ idDigits n, d < 10 := by
  intro d hd
  obtain ⟨c, hc, rfl⟩ := List.mem_map.mp hd
  have hrange := isDigit_range (isDigit_of_mem_padded hc)
  have hzero : '0'.toNat = 48 := rfl
  omega

/-- The printed digits write the number. -/
theorem value_idDigits (n : ℕ) : value 10 (idDigits n) = n := by
  have hnumber : value 10 (idDigits n) = numberOfDigits (idDigits n) := rfl
  rw [hnumber, idDigits, numberOfDigits_map, ofDigitChars_padded]

/-- Different numbers have different digits. -/
theorem idDigits_injective : Function.Injective idDigits := by
  intro m n h
  rw [← value_idDigits m, h, value_idDigits]

/-- A greater number is no narrower. -/
theorem idWidth_mono (h : m ≤ n) : idWidth m ≤ idWidth n := by
  have hlength : (Nat.toDigits 10 m).length ≤ (Nat.toDigits 10 n).length := by
    have hpos : 0 < (Nat.toDigits 10 n).length := List.length_pos_of_ne_nil Nat.toDigits_ne_nil
    refine (Nat.length_toDigits_le_iff (by omega) hpos).mpr (Nat.lt_of_le_of_lt h ?_)
    exact (Nat.length_toDigits_le_iff (by omega) hpos).mp le_rfl
  unfold idWidth
  omega

/-- A smaller number is printed before a greater one exactly if it is not greater than the one that as many first
digits of the greater one write. -/
theorem idDigits_lt_iff (h : m < n) : idDigits m < idDigits n ↔ m ≤ n / 10 ^ (idWidth n - idWidth m) := by
  have hlength : (idDigits m).length ≤ (idDigits n).length := by
    rw [length_idDigits, length_idDigits]
    exact idWidth_mono h.le
  have hne : idDigits m ≠ idDigits n := fun heq => h.ne (idDigits_injective heq)
  rw [lt_iff_value_le (idDigits_lt m) (idDigits_lt n) hlength hne, value_idDigits, value_idDigits, length_idDigits,
    length_idDigits]

end Digits

section Texts

variable {localeCompare : String → String → ℤ} {before : Char → Char → Prop} {m n : ℕ}

/-- Digits are compared by value, one by one. -/
theorem lex_digits_iff (hdigits : ∀ c d, c.isDigit = true → d.isDigit = true → (before c d ↔ c.toNat < d.toNat))
    {written written' : List Char} (h : ∀ c ∈ written, c.isDigit = true) (h' : ∀ c ∈ written', c.isDigit = true) :
    List.Lex before written written' ↔
      (written.map fun c => c.toNat - '0'.toNat) < written'.map fun c => c.toNat - '0'.toNat := by
  induction written generalizing written' with
  | nil => cases written' <;> simp
  | cons c written ih =>
    cases written' with
    | nil => simp
    | cons d written' =>
      have hc := h c List.mem_cons_self
      have hd := h' d List.mem_cons_self
      have hrest := @ih written' (fun x hx => h x (List.mem_cons_of_mem c hx)) fun x hx =>
        h' x (List.mem_cons_of_mem d hx)
      have hrange := isDigit_range hc
      have hrange' := isDigit_range hd
      have hzero : '0'.toNat = 48 := rfl
      have hlt : before c d ↔ c.toNat - '0'.toNat < d.toNat - '0'.toNat := by
        rw [hdigits c d hc hd]
        omega
      have heq : c = d ↔ c.toNat - '0'.toNat = d.toNat - '0'.toNat := by
        rw [← Char.toNat_inj]
        omega
      rw [List.cons_lex_cons_iff, hlt, heq, hrest, List.map_cons, List.map_cons, List.cons_lt_cons_iff]

/-- A printed id is the text of an id. -/
theorem isIdText_printedId (n : ℕ) : IsIdText (printedId n) := by
  intro c hc
  rw [toList_formatOrderId] at hc
  rcases List.mem_append.mp hc with hletter | hdigit
  · exact .inr hletter
  · exact .inl (isDigit_of_mem_padded hdigit)

/-- Printed ids are ordered by their digits. -/
theorem OrdersIdTexts.lex_iff (h : OrdersIdTexts localeCompare before) :
    List.Lex before (printedId m).toList (printedId n).toList ↔ idDigits m < idDigits n := by
  have hirrefl : Std.Irrefl before := ⟨h.irrefl⟩
  have hletters : ∀ written written' : List Char,
      List.Lex before ("ORD-".toList ++ written) ("ORD-".toList ++ written') ↔ List.Lex before written written' := by
    intro written written'
    change List.Lex before ('O' :: 'R' :: 'D' :: '-' :: written) ('O' :: 'R' :: 'D' :: '-' :: written') ↔ _
    simp only [List.lex_cons_iff]
  rw [toList_formatOrderId, toList_formatOrderId, hletters]
  exact lex_digits_iff h.digits (fun c hc => isDigit_of_mem_padded hc) fun c hc => isDigit_of_mem_padded hc

end Texts

/-- One number comes before the other in the direction. -/
def NumbersInOrder (dir : SortDir) (m n : ℕ) : Prop := if dir = .asc then m < n else n < m

/-- The ids of the orders are those of numbers that only increase, or only decrease, as the direction demands. -/
def FollowsNumbers (dir : SortDir) (orders : List OrderResponse) : Prop :=
  ∃ numbers : List ℕ, orders.map (·.id) = numbers.map printedId ∧ numbers.Pairwise (NumbersInOrder dir)

section Sorting

variable {browser : Browser} {before : Char → Char → Prop} {store : StoreService} {numbers : List ℕ} {dir : SortDir}

/-- The digits come in the direction. -/
def digitsInOrder (dir : SortDir) (m n : ℕ) : Bool :=
  if dir = .asc then idDigits m ≤ idDigits n else idDigits n ≤ idDigits m

/-- What the table shows of printed ids is sorted by their digits. -/
theorem map_id_visibleOrders (h : OrdersIdTexts browser.localeCompare before) {shown : List ℕ}
    (hshown : (store.matchingOrders browser).map (·.id) = shown.map printedId)
    (hsort : store.sort = ⟨.id, dir⟩) :
    (store.visibleOrders browser).map (·.id) = (shown.mergeSort (digitsInOrder dir)).map printedId := by
  let factor : ℤ := if dir = .asc then 1 else -1
  let idsInOrder : String → String → Bool := fun a b => factor * browser.localeCompare a b ≤ 0
  have hids : (store.visibleOrders browser).map (·.id) =
      ((store.matchingOrders browser).map (·.id)).mergeSort idsInOrder := by
    rw [StoreService.visibleOrders, hsort]
    exact List.map_mergeSort fun a _ b _ => rfl
  have hprinted : (shown.mergeSort (digitsInOrder dir)).map printedId =
      (shown.map printedId).mergeSort idsInOrder := by
    refine List.map_mergeSort fun m _ n _ => ?_
    have hnegative := (h.negative _ _ (isIdText_printedId m) (isIdText_printedId n)).trans h.lex_iff
    have hpositive := (h.positive _ _ (isIdText_printedId m) (isIdText_printedId n)).trans h.lex_iff
    cases dir with
    | asc =>
      simp only [digitsInOrder, idsInOrder, factor, if_true, Int.one_mul, decide_eq_decide]
      rw [← not_lt, ← hpositive, not_lt]
    | desc =>
      simp only [digitsInOrder, idsInOrder, factor, reduceCtorEq, if_false, decide_eq_decide]
      rw [← not_lt, ← hnegative]
      omega
  rw [hids, hshown, hprinted]

/-- The order of the digits is transitive. -/
theorem digitsInOrder_trans (dir : SortDir) (a b c : ℕ) :
    digitsInOrder dir a b → digitsInOrder dir b c → digitsInOrder dir a c := by
  cases dir with
  | asc => simpa [digitsInOrder] using le_trans
  | desc => simpa [digitsInOrder] using fun hba hcb => le_trans hcb hba

/-- It is total. -/
theorem digitsInOrder_total (dir : SortDir) (a b : ℕ) : digitsInOrder dir a b || digitsInOrder dir b a := by
  cases dir with
  | asc => simpa [digitsInOrder] using le_total (idDigits a) (idDigits b)
  | desc => simpa [digitsInOrder] using le_total (idDigits b) (idDigits a)

/-- And no two numbers have the same digits. -/
theorem digitsInOrder_antisymm {a b : ℕ} (h : digitsInOrder dir a b) (h' : digitsInOrder dir b a) : a = b := by
  cases dir with
  | asc => exact idDigits_injective (le_antisymm (of_decide_eq_true h) (of_decide_eq_true h'))
  | desc => exact idDigits_injective (le_antisymm (of_decide_eq_true h') (of_decide_eq_true h))

/-- The order of the numbers is strict. -/
theorem numbersInOrder_asymm (a b : ℕ) (h : NumbersInOrder dir a b) : ¬ NumbersInOrder dir b a := by
  cases dir with
  | asc => exact Nat.lt_asymm h
  | desc => exact Nat.lt_asymm h

/-- Different numbers stand in one order or the other. -/
theorem numbersInOrder_or {a b : ℕ} (h : a ≠ b) : NumbersInOrder dir a b ∨ NumbersInOrder dir b a := by
  cases dir with
  | asc => exact Nat.lt_or_gt_of_ne h
  | desc => exact (Nat.lt_or_gt_of_ne h).symm

/-- Different numbers have different ids. -/
theorem printedId_injective : Function.Injective printedId := fun _ _ h =>
  Int.ofNat_inj.mp (formatOrderId_injective h)

/-- Orders that are sorted by their ids follow their numbers, up or down, exactly if of any two that are shown the
smaller number is not greater than the one that as many first digits of the greater one write. -/
theorem sorted_by_number_iff (h : OrdersIdTexts browser.localeCompare before)
    (hprinted : store.orders.map (·.id) = numbers.map printedId) (hnodup : numbers.Nodup)
    (hsort : store.sort = ⟨.id, dir⟩) :
    FollowsNumbers dir (store.visibleOrders browser) ↔
      ∀ m n : ℕ, m < n → printedId m ∈ (store.matchingOrders browser).map (·.id) →
        printedId n ∈ (store.matchingOrders browser).map (·.id) → m ≤ n / 10 ^ (idWidth n - idWidth m) := by
  have hsublist : ((store.matchingOrders browser).map (·.id)).Sublist (numbers.map printedId) :=
    hprinted ▸ List.filter_sublist.map _
  obtain ⟨shown, hkept, hshown⟩ := List.sublist_map_iff.mp hsublist
  have hmem : ∀ n, printedId n ∈ (store.matchingOrders browser).map (·.id) ↔ n ∈ shown := by
    intro n
    rw [hshown, List.mem_map_of_injective printedId_injective]
  have hfollows : FollowsNumbers dir (store.visibleOrders browser) ↔
      (shown.mergeSort (digitsInOrder dir)).Pairwise (NumbersInOrder dir) := by
    rw [FollowsNumbers, map_id_visibleOrders h hshown hsort]
    constructor
    · rintro ⟨sorted, heq, hpairwise⟩
      exact List.map_injective_iff.mpr printedId_injective heq ▸ hpairwise
    · exact fun hpairwise => ⟨_, rfl, hpairwise⟩
  have hdigits : ∀ m n : ℕ, m < n → (idDigits m ≤ idDigits n ↔ m ≤ n / 10 ^ (idWidth n - idWidth m)) := by
    intro m n hlt
    have hne : idDigits m ≠ idDigits n := fun heq => hlt.ne (idDigits_injective heq)
    rw [← idDigits_lt_iff hlt, hne.le_iff_lt]
  rw [hfollows, StableSort.pairwise_mergeSort_iff (digitsInOrder_trans dir) (digitsInOrder_total dir)
    (hkept.nodup hnodup) (fun a _ b _ => digitsInOrder_antisymm) numbersInOrder_asymm
    fun a _ b _ => numbersInOrder_or]
  simp only [hmem]
  cases dir with
  | asc =>
    constructor
    · exact fun hall m n hlt hm hn => (hdigits m n hlt).mp (of_decide_eq_true (hall m hm n hn hlt))
    · exact fun hall m hm n hn hlt => decide_eq_true ((hdigits m n hlt).mpr (hall m n hlt hm hn))
  | desc =>
    constructor
    · exact fun hall m n hlt hm hn => (hdigits m n hlt).mp (of_decide_eq_true (hall n hn m hm hlt))
    · exact fun hall n hn m hm hlt => decide_eq_true ((hdigits m n hlt).mpr (hall m n hlt hm hn))

/-- A browser that compares texts by their code points and knows the small letters of ASCII. -/
def codePointBrowser : Browser where
  localeCompare a b := if a < b then -1 else if b < a then 1 else 0
  toLowerCase text := text.map fun u => if 65 ≤ u ∧ u ≤ 90 then u + 32 else u
  dateParse _ := none

/-- The comparison has the sign of the order of the texts. -/
theorem localeCompare_codePointBrowser (a b : String) :
    (codePointBrowser.localeCompare a b < 0 ↔ a < b) ∧ (0 < codePointBrowser.localeCompare a b ↔ b < a) := by
  have hasymm : a < b → ¬ b < a := fun h => String.lt_asymm h
  simp only [codePointBrowser]
  by_cases hlt : a < b
  · simp [hlt, hasymm hlt]
  · by_cases hgt : b < a <;> simp [hlt, hgt]

/-- This browser orders the texts of ids digit by digit. -/
theorem ordersIdTexts_codePointBrowser : OrdersIdTexts codePointBrowser.localeCompare (· < ·) where
  irrefl := Char.lt_irrefl
  digits _ _ _ _ := Iff.rfl
  negative a b _ _ := (localeCompare_codePointBrowser a b).1
  positive a b _ _ := (localeCompare_codePointBrowser a b).2

/-- The order of a number. -/
def numberedOrder (n : ℕ) : OrderResponse :=
  ⟨printedId n, "CUS-001", "LAP-001", "Everyday Laptop 14", .laptop, 74900, 1, 74900, .pending, "2026-07-01"⟩

/-- Order 100 comes before order 1000, though it is printed with fewer digits. -/
theorem sorted_by_number_100 : FollowsNumbers .asc (({
    orders := [1000, 7, 100].map numberedOrder, sort := ⟨.id, .asc⟩ } : StoreService).visibleOrders
      codePointBrowser) := by
  have hshown : (({ orders := [1000, 7, 100].map numberedOrder, sort := ⟨.id, .asc⟩ } :
      StoreService).matchingOrders codePointBrowser).map (·.id) = [1000, 7, 100].map printedId := by decide
  have hnumbers : [1000, 7, 100].Nodup := by decide
  refine (sorted_by_number_iff ordersIdTexts_codePointBrowser rfl hnumbers rfl).mpr fun m n hlt hm hn => ?_
  rw [hshown, List.mem_map_of_injective printedId_injective] at hm hn
  have hall : ∀ n ∈ [1000, 7, 100], ∀ m ∈ [1000, 7, 100], m < n → m ≤ n / 10 ^ (idWidth n - idWidth m) := by decide
  exact hall n hn m hm hlt

/-- Order 1000 comes before order 999. -/
theorem sorted_by_text_1000 : OrdersIdTexts codePointBrowser.localeCompare (· < ·) ∧
    ¬ FollowsNumbers .asc (({ orders := [1000, 999].map numberedOrder, sort := ⟨.id, .asc⟩ } :
      StoreService).visibleOrders codePointBrowser) := by
  refine ⟨ordersIdTexts_codePointBrowser, ?_⟩
  rintro ⟨numbers, hids, hpairwise⟩
  have hshown : (({ orders := [1000, 999].map numberedOrder, sort := ⟨.id, .asc⟩ } :
      StoreService).visibleOrders codePointBrowser).map (·.id) = [1000, 999].map printedId := by
    rw [StoreService.visibleOrders, List.mergeSort_of_pairwise (by decide)]
    decide
  have hnumbers := List.map_injective_iff.mpr printedId_injective (hids.symm.trans hshown)
  rw [hnumbers] at hpairwise
  simp [NumbersInOrder] at hpairwise

end Sorting

end Agentops
