import Agentops.Agent.Tools
import Agentops.Foundations.LetterCase
import Agentops.Foundations.Numerals
import Agentops.Foundations.Trimming

/-!
# Printed order ids and what the tools read

The API prints an order number with at least three digits. Whatever the case of its letters and whatever
blanks are around it, each of the tools reads the printed id as the number that was printed. Any row of digits
is accepted, and two ids are of one order and of one workflow exactly if their digits write one number.
-/

namespace Agentops

open LetterCase Numerals

/-- The order id is accepted, and has these digits. -/
def AcceptedDigits (orderId : String) (digits : List ℕ) : Prop :=
  ∃ letters written : List Char, strip orderId.toList = letters ++ written ∧ Variant letters "ORD-".toList ∧
    written.mapM decimalDigit? = some digits ∧ digits ≠ [] ∧ digits.length ≤ maxStrDigits

/-- Each of the three tools takes the order id for the number, whatever else it is called with. -/
structure ReadAs (orderId : String) (n : ℤ) : Prop where
  getOrderStatus : ∀ userId args, textArg "order_id" args = some orderId →
    getOrderStatusTool (injectUserId userId args) = some (.readOrder n userId)
  cancelOrder : ∀ userId args, textArg "order_id" args = some orderId →
    cancelOrderTool (injectUserId userId args) = some (.checkCancellation n userId)
  requestRefund : ∀ userId reason args, textArg "order_id" args = some orderId → textArg "reason" args = some reason →
    requestRefundTool (injectUserId userId args) = some (.startRefund ⟨n, userId, String.ofList (strip reason.toList)⟩)

/-- None of the three tools does anything with the order id. -/
structure NotRead (orderId : String) : Prop where
  getOrderStatus : ∀ userId args, textArg "order_id" args = some orderId →
    getOrderStatusTool (injectUserId userId args) = none
  cancelOrder : ∀ userId args, textArg "order_id" args = some orderId →
    cancelOrderTool (injectUserId userId args) = none
  requestRefund : ∀ userId args, textArg "order_id" args = some orderId →
    requestRefundTool (injectUserId userId args) = none

/-- The number that an `id` of the `orders` table stays below. -/
def bigintEnd : ℕ := 2 ^ 63

/-- One row has the two numbers, in every table and for every customer. -/
def SameRow (m n : ℤ) : Prop :=
  ∀ db : Database, db.Schema → ∀ customerId, db.findOrder m customerId = db.findOrder n customerId

/-- One workflow id has the two numbers, for each tool that starts workflows. -/
def SameWorkflow (m n : ℤ) : Prop := ∀ tool : OrderTool, tool.workflowId m = tool.workflowId n

section Digits

/-- An ASCII digit is a decimal digit. -/
theorem decimalDigit?_of_isDigit {c : Char} (hc : c.isDigit = true) : decimalDigit? c = some (c.toNat - '0'.toNat) := by
  have hrange : 48 ≤ c.toNat ∧ c.toNat < 48 + 10 := by
    simp only [Char.isDigit, Bool.and_eq_true, decide_eq_true_eq, ge_iff_le, UInt32.le_iff_toNat_le] at hc
    exact ⟨hc.1, Nat.lt_succ_of_le hc.2⟩
  simp [decimalDigit?, decimalZeros, hrange]

theorem decimalDigit?_lt {c : Char} {d : ℕ} (h : decimalDigit? c = some d) : d < 10 := by
  obtain ⟨z, hz, rfl⟩ := Option.map_eq_some_iff.mp h
  have hrange := List.find?_some hz
  simp only [decide_eq_true_eq] at hrange
  omega

/-- The digits of accepted characters are digits. -/
theorem mapM_decimalDigit?_lt {written : List Char} {digits : List ℕ}
    (h : written.mapM decimalDigit? = some digits) : ∀ d ∈ digits, d < 10 := by
  induction written generalizing digits with
  | nil =>
    cases h
    simp
  | cons c written ih =>
    simp only [List.mapM_cons, Option.bind_eq_bind, Option.bind_eq_some_iff, Option.pure_def,
      Option.some.injEq] at h
    obtain ⟨d, hd, ds, hds, rfl⟩ := h
    intro e he
    rcases List.mem_cons.mp he with rfl | he
    · exact decimalDigit?_lt hd
    · exact ih hds e he

/-- ASCII digits are read one by one. -/
theorem mapM_decimalDigit?_of_isDigit {written : List Char} (h : ∀ c ∈ written, c.isDigit = true) :
    written.mapM decimalDigit? = some (written.map fun c => c.toNat - '0'.toNat) := by
  induction written with
  | nil => rfl
  | cons c written ih =>
    rw [List.mapM_cons, decimalDigit?_of_isDigit (h c List.mem_cons_self),
      ih fun d hd => h d (List.mem_cons_of_mem _ hd)]
    rfl

/-- The number that ASCII digits write. -/
theorem numberOfDigits_map (written : List Char) :
    numberOfDigits (written.map fun c => c.toNat - '0'.toNat) = Nat.ofDigitChars 10 written 0 := by
  rw [numberOfDigits, List.foldl_map, Nat.ofDigitChars_eq_foldl]

end Digits

section Reading

variable {orderId : String} {digits : List ℕ}

/-- The variants of `ORD-`. -/
theorem variant_ord_iff {letters : List Char} : Variant letters "ORD-".toList ↔ ∃ o r d,
    letters = [o, r, d, '-'] ∧ (o = 'O' ∨ o = 'o') ∧ (r = 'R' ∨ r = 'r') ∧ (d = 'D' ∨ d = 'd') := by
  have hdash : ∀ c : Char, c.toLower = '-' ↔ c = '-' := fun c => toLower_eq_iff_of_noLetter (d := '-') (by decide)
  have ho : ∀ c : Char, c.toLower = 'o' ↔ c = 'O' ∨ c = 'o' := fun c =>
    toLower_eq_iff_of_capital (d := 'O') (by decide)
  have hr : ∀ c : Char, c.toLower = 'r' ↔ c = 'R' ∨ c = 'r' := fun c =>
    toLower_eq_iff_of_capital (d := 'R') (by decide)
  have hd : ∀ c : Char, c.toLower = 'd' ↔ c = 'D' ∨ c = 'd' := fun c =>
    toLower_eq_iff_of_capital (d := 'D') (by decide)
  have hsmall : "ORD-".toList.map Char.toLower = ['o', 'r', 'd', '-'] := by decide
  rw [Variant, hsmall]
  constructor
  · intro h
    obtain ⟨o, _, rfl, h₁, hrest⟩ := List.map_eq_cons_iff.mp h
    obtain ⟨r, _, rfl, h₂, hrest⟩ := List.map_eq_cons_iff.mp hrest
    obtain ⟨d, _, rfl, h₃, hrest⟩ := List.map_eq_cons_iff.mp hrest
    obtain ⟨dash, _, rfl, h₄, hend⟩ := List.map_eq_cons_iff.mp hrest
    obtain rfl := (hdash dash).mp h₄
    obtain rfl := List.map_eq_nil_iff.mp hend
    exact ⟨o, r, d, rfl, (ho o).mp h₁, (hr r).mp h₂, (hd d).mp h₃⟩
  · rintro ⟨o, r, d, rfl, h₁, h₂, h₃⟩
    simp only [List.map_cons, List.map_nil, List.cons.injEq, ho, hr, hd, hdash, and_true]
    exact ⟨h₁, h₂, h₃⟩

/-- An id with the right letters is read by its digits. -/
theorem parseOrderId_of_variant {letters written : List Char} (hstrip : strip orderId.toList = letters ++ written)
    (hletters : Variant letters "ORD-".toList) (hwritten : written.mapM decimalDigit? = some digits)
    (hne : digits ≠ []) : parseOrderId orderId =
      if maxStrDigits < digits.length then .tooLong else .number (numberOfDigits digits) := by
  obtain ⟨o, r, d, rfl, ho, hr, hd⟩ := variant_ord_iff.mp hletters
  obtain ⟨first, rest, rfl⟩ := List.exists_cons_of_ne_nil hne
  simp [parseOrderId, hstrip, ho, hr, hd, hwritten]

/-- An id is read as a number exactly if it is accepted and its digits write the number. -/
theorem parseOrderId_eq_number_iff {n : ℕ} :
    parseOrderId orderId = .number n ↔ ∃ digits, AcceptedDigits orderId digits ∧ numberOfDigits digits = n := by
  constructor
  · intro h
    unfold parseOrderId at h
    split at h
    case h_1 o r d rest hstrip =>
      by_cases hord : (o = 'O' ∨ o = 'o') ∧ (r = 'R' ∨ r = 'r') ∧ (d = 'D' ∨ d = 'd')
      · rw [if_pos hord] at h
        split at h
        case h_1 => cases h
        case h_2 => cases h
        case h_3 digits hne hdigits =>
          by_cases hlength : maxStrDigits < digits.length
          · rw [if_pos hlength] at h
            cases h
          · rw [if_neg hlength] at h
            refine ⟨digits, ⟨[o, r, d, '-'], rest, hstrip, ?_, hdigits, ?_, Nat.le_of_not_lt hlength⟩,
              OrderId.number.inj h⟩
            · exact variant_ord_iff.mpr ⟨o, r, d, rfl, hord.1, hord.2.1, hord.2.2⟩
            · exact fun hnil => hne hnil
      · rw [if_neg hord] at h
        cases h
    case h_2 => cases h
  · rintro ⟨digits, ⟨letters, written, hstrip, hletters, hwritten, hne, hlength⟩, rfl⟩
    rw [parseOrderId_of_variant hstrip hletters hwritten hne, if_neg (Nat.not_lt.mpr hlength)]

/-- The tools take an id for the number it is read as. -/
theorem readAs_of_parseOrderId {n : ℕ} (h : parseOrderId orderId = .number n) : ReadAs orderId n := by
  constructor
  · intro userId args horder
    simp [getOrderStatusTool, textArg_injectUserId, textArg_injectUserId_of_ne, horder, h, OrderId.number?]
  · intro userId args horder
    simp [cancelOrderTool, textArg_injectUserId, textArg_injectUserId_of_ne, horder, h, OrderId.number?]
  · intro userId reason args horder hreason
    simp [requestRefundTool, textArg_injectUserId, textArg_injectUserId_of_ne, horder, hreason, h, OrderId.number?]

/-- The tools do nothing with an id that is read as no number. -/
theorem notRead_of_parseOrderId (h : ∀ n, parseOrderId orderId ≠ .number n) : NotRead orderId := by
  have hnone : (parseOrderId orderId).number? = none := by
    cases hparse : parseOrderId orderId with
    | invalid => rfl
    | tooLong => rfl
    | number n => exact absurd hparse (h n)
  constructor
  · intro userId args horder
    simp [getOrderStatusTool, textArg_injectUserId, textArg_injectUserId_of_ne, horder, hnone]
  · intro userId args horder
    simp [cancelOrderTool, textArg_injectUserId, textArg_injectUserId_of_ne, horder, hnone]
  · intro userId args horder
    simp [requestRefundTool, textArg_injectUserId, textArg_injectUserId_of_ne, horder, hnone]

end Reading

section Printing

/-- A number that is not negative is padded to three digits. -/
theorem toList_formatOrderId (n : ℕ) : (formatOrderId n).toList =
    "ORD-".toList ++ (List.replicate (3 - (Nat.toDigits 10 n).length) '0' ++ Nat.toDigits 10 n) := by
  have hlength : n.repr.length = (Nat.toDigits 10 n).length := by rw [← String.length_toList, Nat.toList_repr]
  have hsign : ¬ (n : ℤ) < 0 := by omega
  simp [formatOrderId, zeroPadded, hsign, hlength]

/-- The padded digits are digits. -/
theorem isDigit_of_mem_padded {k n : ℕ} {c : Char} (h : c ∈ List.replicate k '0' ++ Nat.toDigits 10 n) :
    c.isDigit = true := by
  rcases List.mem_append.mp h with hzero | hdigit
  · rw [List.eq_of_mem_replicate hzero]
    rfl
  · exact Decimal.isDigit_of_mem hdigit

/-- Behind the sign the digits of a number are padded. -/
theorem exists_toList_formatOrderId (n : ℤ) : ∃ k, (formatOrderId n).toList =
    "ORD-".toList ++ ((if n < 0 then ['-'] else []) ++ (List.replicate k '0' ++ Nat.toDigits 10 n.natAbs)) := by
  refine ⟨3 - (if n < 0 then "-" else "").length - n.natAbs.repr.length, ?_⟩
  by_cases hsign : n < 0
  · simp [formatOrderId, zeroPadded, hsign]
  · simp [formatOrderId, zeroPadded, hsign]

/-- Padding does not change the number that is read. -/
theorem ofDigitChars_padded (k n : ℕ) : Nat.ofDigitChars 10 (List.replicate k '0' ++ Nat.toDigits 10 n) 0 = n := by
  rw [Nat.ofDigitChars_append, Nat.ofDigitChars_replicate_zero, Nat.mul_zero, Nat.ofDigitChars_ten_toDigits]

/-- Different numbers are printed differently. -/
theorem formatOrderId_injective : Function.Injective formatOrderId := by
  intro m n h
  obtain ⟨j, hm⟩ := exists_toList_formatOrderId m
  obtain ⟨k, hn⟩ := exists_toList_formatOrderId n
  have hsame := List.append_cancel_left (hm.symm.trans ((congrArg String.toList h).trans hn))
  have hsigned : ∀ k x written, '-' :: written ≠ List.replicate k '0' ++ Nat.toDigits 10 x := by
    intro k x written heq
    exact absurd (isDigit_of_mem_padded (heq ▸ List.mem_cons_self)) (by decide)
  have hdigits : ∀ {a b : List Char}, a = b → Nat.ofDigitChars 10 a 0 = Nat.ofDigitChars 10 b 0 := fun h => h ▸ rfl
  by_cases hneg : m < 0
  · by_cases hneg' : n < 0
    · rw [if_pos hneg, if_pos hneg'] at hsame
      have habs := hdigits (List.append_cancel_left hsame)
      rw [ofDigitChars_padded, ofDigitChars_padded] at habs
      omega
    · rw [if_pos hneg, if_neg hneg'] at hsame
      exact absurd hsame (hsigned _ _ _)
  · by_cases hneg' : n < 0
    · rw [if_neg hneg, if_pos hneg'] at hsame
      exact absurd hsame.symm (hsigned _ _ _)
    · rw [if_neg hneg, if_neg hneg'] at hsame
      have habs := hdigits (List.append_cancel_left hsame)
      rw [ofDigitChars_padded, ofDigitChars_padded] at habs
      omega

/-- A digit is no blank and no letter. -/
theorem isDigit_range {c : Char} (h : c.isDigit = true) : 48 ≤ c.toNat ∧ c.toNat ≤ 57 := by
  simpa [Char.isDigit, UInt32.le_iff_toNat_le] using h

theorem isSpace_eq_false {c : Char} (h : 33 ≤ c.toNat ∧ c.toNat ≤ 122) : isSpace c = false := by
  simp only [isSpace, Bool.decide_or, Bool.or_eq_false_iff, decide_eq_false_iff_not]
  omega

/-- Blanks around an id are taken away, whatever the case of its letters. -/
theorem strip_variant {before letters written after : List Char} (hbefore : ∀ c ∈ before, isSpace c = true)
    (hafter : ∀ c ∈ after, isSpace c = true) (hletters : Variant letters "ORD-".toList)
    (hwritten : ∀ c ∈ written, c.isDigit = true) (hne : written ≠ []) :
    strip (before ++ ((letters ++ written) ++ after)) = letters ++ written := by
  refine Trimming.trim_eq_middle hbefore hafter ⟨fun c hc => ?_, fun c hc => ?_⟩
  · obtain ⟨o, r, d, rfl, ho, -⟩ := variant_ord_iff.mp hletters
    obtain rfl : o = c := by simpa using hc
    rcases ho with rfl | rfl <;> decide
  · rw [List.getLast?_append_of_ne_nil _ hne] at hc
    have hrange := isDigit_range (hwritten c (List.mem_of_mem_getLast? hc))
    exact isSpace_eq_false ⟨by omega, by omega⟩

/-- A printed id is read as its number, in any case and with any blanks around it. -/
theorem parseOrderId_formatOrderId {n : ℕ} (hn : n < bigintEnd) {before variant after : List Char}
    (hbefore : ∀ c ∈ before, isSpace c = true) (hafter : ∀ c ∈ after, isSpace c = true)
    (hvariant : Variant variant (formatOrderId n).toList) :
    parseOrderId (String.ofList (before ++ (variant ++ after))) = .number n := by
  rw [toList_formatOrderId] at hvariant
  obtain ⟨letters, written, rfl, hletters, hdigits⟩ := hvariant.exists_append
  have hprinted : written = List.replicate (3 - (Nat.toDigits 10 n).length) '0' ++ Nat.toDigits 10 n :=
    hdigits.eq_of_noLetter fun c hc => .inl (by have := isDigit_range (isDigit_of_mem_padded hc); omega)
  have hwritten : ∀ c ∈ written, c.isDigit = true := by
    rw [hprinted]
    exact fun c hc => isDigit_of_mem_padded hc
  have hne : written ≠ [] := by
    rw [hprinted]
    exact List.append_ne_nil_of_right_ne_nil _ Nat.toDigits_ne_nil
  have hlength : (Nat.toDigits 10 n).length ≤ 19 :=
    (Nat.length_toDigits_le_iff (by omega) (by omega)).mpr (hn.trans (by decide))
  have hfew : (written.map fun c => c.toNat - '0'.toNat).length ≤ maxStrDigits := by
    rw [List.length_map, hprinted, List.length_append, List.length_replicate]
    have hmax : maxStrDigits = 4300 := rfl
    omega
  have hvalue : numberOfDigits (written.map fun c => c.toNat - '0'.toNat) = n := by
    rw [numberOfDigits_map, hprinted, ofDigitChars_padded]
  have hstrip : strip (String.ofList (before ++ ((letters ++ written) ++ after))).toList = letters ++ written := by
    rw [String.toList_ofList]
    exact strip_variant hbefore hafter hletters hwritten hne
  rw [parseOrderId_of_variant hstrip hletters (mapM_decimalDigit?_of_isDigit hwritten)
    (List.map_eq_nil_iff.not.mpr hne), if_neg (Nat.not_lt.mpr hfew), hvalue]

end Printing

section Addressing

variable {a b : String} {ds es : List ℕ}

/-- The digits of an accepted id are decimal digits. -/
theorem AcceptedDigits.lt (h : AcceptedDigits a ds) : ∀ d ∈ ds, d < 10 := by
  obtain ⟨letters, written, -, -, hwritten, -⟩ := h
  exact mapM_decimalDigit?_lt hwritten

/-- The tools take an accepted id for the number of its digits. -/
theorem AcceptedDigits.readAs (h : AcceptedDigits a ds) : ReadAs a (numberOfDigits ds) :=
  readAs_of_parseOrderId (parseOrderId_eq_number_iff.mpr ⟨ds, h, rfl⟩)

/-- Digits write one number exactly if they are the same from the first that is not zero. -/
theorem AcceptedDigits.number_eq_iff (ha : AcceptedDigits a ds) (hb : AcceptedDigits b es) :
    numberOfDigits ds = numberOfDigits es ↔ significant ds = significant es :=
  value_eq_iff (by omega) ha.lt hb.lt

/-- A number that the table can hold is of the same row as another one only if it is the other one. -/
theorem eq_of_sameRow {m n : ℕ} (h : SameRow m n) : m = n := by
  let product : Product := ⟨"SKU", "", .laptop, ⟨1, by decide, by decide⟩⟩
  let order : Order := ⟨m, "CUS-001", "SKU", ⟨1, by decide, by decide⟩, .processing, ""⟩
  have hschema : (⟨[product], [order], [], m⟩ : Database).Schema := by
    constructor <;> simp [KeyedTable.Unique, product, order]
  have hsame := h _ hschema "CUS-001"
  by_contra hne
  have hother : (m : ℤ) ≠ n := by omega
  simp [Database.findOrder, order, hother] at hsame

/-- Different numbers have different workflows. -/
theorem sameWorkflow_iff {m n : ℕ} : SameWorkflow m n ↔ m = n := by
  constructor
  · intro h
    exact Int.ofNat_inj.mp (OrderTool.workflowId_inj (h .cancelOrder)).2
  · rintro rfl tool
    rfl

/-- A printed order id is read as its number, in any case and with any blanks around it. An id is read exactly if
its digits can be read, and two ids are of one row and of one workflow exactly if their digits write one number,
which is to say that they are the same from the first digit that is not zero. -/
theorem order_ids_round_trip :
    (∀ n < bigintEnd, ∀ before variant after : List Char, (∀ c ∈ before, isSpace c = true) →
      (∀ c ∈ after, isSpace c = true) → Variant variant (formatOrderId n).toList →
      ReadAs (String.ofList (before ++ (variant ++ after))) n) ∧
    (∀ orderId, (∃ digits, AcceptedDigits orderId digits) ∨ NotRead orderId) ∧
    ∀ a b ds es, AcceptedDigits a ds → AcceptedDigits b es →
      ReadAs a (numberOfDigits ds) ∧ ReadAs b (numberOfDigits es) ∧
      (numberOfDigits ds = numberOfDigits es ↔ significant ds = significant es) ∧
      (SameRow (numberOfDigits ds) (numberOfDigits es) ∧ SameWorkflow (numberOfDigits ds) (numberOfDigits es) ↔
        numberOfDigits ds = numberOfDigits es) ∧
      (SameWorkflow (numberOfDigits ds) (numberOfDigits es) ↔ numberOfDigits ds = numberOfDigits es) ∧
      (numberOfDigits ds < bigintEnd → numberOfDigits es < bigintEnd →
        (SameRow (numberOfDigits ds) (numberOfDigits es) ↔ numberOfDigits ds = numberOfDigits es)) := by
  have hrow : ∀ {m n : ℕ}, m = n → SameRow m n := by
    rintro m n rfl db - customerId
    rfl
  refine ⟨fun n hn before variant after hbefore hafter hvariant => ?_, fun orderId => ?_, fun a b ds es ha hb => ?_⟩
  · exact readAs_of_parseOrderId (parseOrderId_formatOrderId hn hbefore hafter hvariant)
  · by_cases hread : ∃ n, parseOrderId orderId = .number n
    · obtain ⟨n, hn⟩ := hread
      obtain ⟨digits, hdigits, -⟩ := parseOrderId_eq_number_iff.mp hn
      exact .inl ⟨digits, hdigits⟩
    · exact .inr (notRead_of_parseOrderId fun n hn => hread ⟨n, hn⟩)
  · refine ⟨ha.readAs, hb.readAs, ha.number_eq_iff hb, ⟨fun h => sameWorkflow_iff.mp h.2, fun h => ?_⟩,
      sameWorkflow_iff, fun _ _ => ⟨eq_of_sameRow, hrow⟩⟩
    exact ⟨hrow h, sameWorkflow_iff.mpr h⟩

/-- `" ord-007\n"` is a variant of the id of order 7 with blanks, and `"Ord-0007"` is an id of it. -/
theorem order_ids_round_trip_seven :
    ReadAs (String.ofList (" ".toList ++ ("ord-007".toList ++ "\n".toList))) 7 ∧
    (SameRow (numberOfDigits [0, 0, 7]) (numberOfDigits [0, 0, 0, 7]) ∧
      SameWorkflow (numberOfDigits [0, 0, 7]) (numberOfDigits [0, 0, 0, 7]) ↔
        numberOfDigits [0, 0, 7] = numberOfDigits [0, 0, 0, 7]) := by
  have hshort : AcceptedDigits "ord-007" [0, 0, 7] :=
    ⟨"ord-".toList, "007".toList, by decide, by decide, by decide +kernel, by simp, by decide⟩
  have hlong : AcceptedDigits "Ord-0007" [0, 0, 0, 7] :=
    ⟨"Ord-".toList, "0007".toList, by decide, by decide, by decide +kernel, by simp, by decide⟩
  exact ⟨order_ids_round_trip.1 7 (by decide) " ".toList "ord-007".toList "\n".toList (by simp [isSpace])
    (by simp [isSpace]) (by decide), (order_ids_round_trip.2.2 _ _ _ _ hshort hlong).2.2.2.1⟩

end Addressing

end Agentops
