import GujaratiScript.Proofs.Value.Order

/-!
# Comparisons

* `Value.content?` : what equality sees of a value: the number, whichever its kind, or the value;
* `Value.beq_iff` : values are equal if there is something to see and it is the same;
* `Value.Holds` : a comparison of two values holds;
* `numbers_compare_exactly` : comparisons of numbers are those of their exact values, with all laws
  of a linear order.
-/

namespace GujaratiScript

/-- What equality sees of a value. -/
inductive Content where
  | number (x : ExtendedRat)
  | str (s : String)
  | bool (b : Bool)
  | null

/-- The number that a content is, if it is one. -/
def Content.number? : Content → Option ExtendedRat
  | number x => some x
  | _ => none

namespace Value

variable {u v w : Value} {a b : ExtendedRat}

/-! ## Equality -/

/-- What equality sees of the value, which is nothing if it is no number though of such a kind. -/
def content? : Value → Option Content
  | str s => some (.str s)
  | bool b => some (.bool b)
  | null => some .null
  | v => v.extended?.map .number

/-- Of a number, equality sees the number alone. -/
theorem content?_of_isNumeric (h : v.isNumeric = true) :
    v.content? = v.extended?.map .number := by
  cases v with
  | int | float => rfl
  | _ => cases h

/-- What is seen of both is the same. -/
theorem exists_some_iff {c d : Content} : (∃ x, some c = some x ∧ some d = some x) ↔ c = d := by
  constructor
  · rintro ⟨x, left, right⟩
    exact Option.some.inj (left.trans right.symm)
  · rintro rfl
    exact ⟨c, rfl, rfl⟩

/-- Numbers of either kind are equal if they are the same number. -/
theorem beq_iff_of_isNumeric (hv : v.isNumeric = true) (hw : w.isNumeric = true) :
    (v == w) = true ↔ ∃ c, v.content? = some c ∧ w.content? = some c := by
  rw [beq_eq_order? hv hw, order?_eq, content?_of_isNumeric hv, content?_of_isNumeric hw]
  rcases v.extended? with _ | a
  · simp
  rcases w.extended? with _ | b
  · simp
  show (some (cmp a b) == some Ordering.eq) = true ↔ _
  rw [Option.map_some, Option.map_some, exists_some_iff, Content.number.injEq, beq_iff_eq,
    Option.some.injEq, cmp_eq_eq_iff]

/-- Whether equality sees a number shows whether the value is one. -/
theorem isNumeric_of_content? {c : Content} (h : v.content? = some c) :
    v.isNumeric = c.number?.isSome := by
  cases v with
  | int | float =>
    rw [content?_of_isNumeric rfl] at h
    obtain ⟨x, -, rfl⟩ := Option.map_eq_some_iff.1 h
    rfl
  | _ =>
    cases h
    rfl

/-- A number equals numbers only. -/
theorem isNumeric_of_beq (h : (v == w) = true) : v.isNumeric = w.isNumeric := by
  cases v <;> cases w <;> first | rfl | cases h

/-- Other values are equal if the same is seen of them. -/
theorem beq_iff_of_not_isNumeric (hv : v.isNumeric = false) (hw : w.isNumeric = false) :
    (v == w) = true ↔ ∃ c, v.content? = some c ∧ w.content? = some c := by
  cases v with
  | int | float => cases hv
  | str s =>
    cases w with
    | int | float => cases hw
    | str t =>
      have unfolded : (str s == str t) = (s == t) := rfl
      simp only [content?, exists_some_iff, Content.str.injEq, unfolded, beq_iff_eq]
    | bool | null =>
      simp only [content?, exists_some_iff, reduceCtorEq, iff_false]
      exact nofun
  | bool b =>
    cases w with
    | int | float => cases hw
    | bool c =>
      have unfolded : (bool b == bool c) = (b == c) := rfl
      simp only [content?, exists_some_iff, Content.bool.injEq, unfolded, beq_iff_eq]
    | str | null =>
      simp only [content?, exists_some_iff, reduceCtorEq, iff_false]
      exact nofun
  | null =>
    cases w with
    | int | float => cases hw
    | null => exact ⟨fun _ => ⟨.null, rfl, rfl⟩, fun _ => rfl⟩
    | str | bool =>
      simp only [content?, exists_some_iff, reduceCtorEq, iff_false]
      exact nofun

/-- Values are equal if equality sees something of them, and the same. -/
theorem beq_iff : (v == w) = true ↔ ∃ c, v.content? = some c ∧ w.content? = some c := by
  by_cases kind : v.isNumeric = w.isNumeric
  · cases hv : v.isNumeric with
    | true => exact beq_iff_of_isNumeric hv (kind.symm.trans hv)
    | false => exact beq_iff_of_not_isNumeric hv (kind.symm.trans hv)
  · constructor
    · intro h
      exact absurd (isNumeric_of_beq h) kind
    · rintro ⟨c, hv, hw⟩
      exact absurd ((isNumeric_of_content? hv).trans (isNumeric_of_content? hw).symm) kind

/-- Equality may be turned around. -/
theorem beq_comm (v w : Value) : (v == w) = (w == v) := by
  rw [Bool.eq_iff_iff, beq_iff, beq_iff]
  exact exists_congr fun c => and_comm

/-- Equality is transitive, also across integers and floating-point numbers. -/
theorem beq_trans (first : (u == v) = true) (second : (v == w) = true) : (u == w) = true := by
  obtain ⟨c, hu, hv⟩ := beq_iff.1 first
  obtain ⟨d, hv', hw⟩ := beq_iff.1 second
  cases hv.symm.trans hv'
  exact beq_iff.2 ⟨c, hu, hw⟩

/-! ## Operators -/

/-- A comparison of two values holds. -/
def Holds (o : Operator) (v w : Value) : Prop := operate o v w = .ok (.bool true)

/-- A comparison of two numbers is decided by their exact order. -/
theorem comparison_eq (hv : v.extended? = some a) (hw : w.extended? = some b) (o : Operator)
    (holds : Ordering → Bool) : comparison o holds v w = .ok (.bool (holds (cmp a b))) := by
  rw [comparison, isNumeric_of_extended? hv, isNumeric_of_extended? hw, order?_eq, hv, hw]
  rfl

/-- Two numbers are equal if neither is greater. -/
theorem beq_eq_cmp (hv : v.extended? = some a) (hw : w.extended? = some b) :
    (v == w) = (cmp a b == .eq) := by
  rw [beq_eq_order? (isNumeric_of_extended? hv) (isNumeric_of_extended? hw), order?_eq, hv, hw]
  rfl

/-- A comparison holds only of numbers, and what is no number has no order. -/
theorem comparison_iff {o : Operator} {holds : Ordering → Bool} :
    comparison o holds v w = .ok (.bool true) ↔
      ∃ a b, v.extended? = some a ∧ w.extended? = some b ∧ holds (cmp a b) = true := by
  constructor
  · intro h
    rw [comparison, order?_eq] at h
    split at h
    · rcases hv : v.extended? with _ | a <;> rcases hw : w.extended? with _ | b <;>
        rw [hv, hw] at h <;> injection h with same <;> injection same with same
      · cases same
      · cases same
      · cases same
      · exact ⟨a, b, rfl, rfl, same⟩
    · cases h
  · rintro ⟨a, b, hv, hw, same⟩
    rw [comparison_eq hv hw, same]

/-- What `cmp` calls less is less. -/
theorem cmp_beq_lt (a b : ExtendedRat) : (cmp a b == .lt) = decide (a < b) := by
  rw [Bool.eq_iff_iff, beq_iff_eq, cmp_eq_lt_iff, decide_eq_true_iff]

/-- What `cmp` calls equal is equal. -/
theorem cmp_beq_eq (a b : ExtendedRat) : (cmp a b == .eq) = decide (a = b) := by
  rw [Bool.eq_iff_iff, beq_iff_eq, cmp_eq_eq_iff, decide_eq_true_iff]

/-- What `cmp` calls greater is greater. -/
theorem cmp_beq_gt (a b : ExtendedRat) : (cmp a b == .gt) = decide (b < a) := by
  rw [Bool.eq_iff_iff, beq_iff_eq, cmp_eq_gt_iff, decide_eq_true_iff]

/-- The operator `<` holds of numbers in their exact order. -/
theorem holds_less_iff :
    Holds .less v w ↔ ∃ a b, v.extended? = some a ∧ w.extended? = some b ∧ a < b := by
  have unfolded : Holds .less v w ↔ comparison .less (· == .lt) v w = .ok (.bool true) := Iff.rfl
  simp only [unfolded, comparison_iff, beq_iff_eq, cmp_eq_lt_iff]

/-- The operator `<=` holds of numbers in their exact order. -/
theorem holds_lessEqual_iff :
    Holds .lessEqual v w ↔ ∃ a b, v.extended? = some a ∧ w.extended? = some b ∧ a ≤ b := by
  have unfolded : Holds .lessEqual v w ↔ comparison .lessEqual (· != .gt) v w = .ok (.bool true) :=
    Iff.rfl
  simp only [unfolded, comparison_iff, bne_iff_ne, ne_eq, cmp_eq_gt_iff, not_lt]

/-- Between numbers whose order is known, both orders and mixtures of them can be chained. -/
theorem lessEqual_trans (first : Holds .lessEqual u v) (second : Holds .lessEqual v w) :
    Holds .lessEqual u w ∧ (Holds .less u v ∨ Holds .less v w → Holds .less u w) := by
  obtain ⟨a, b, hu, hv, le⟩ := holds_lessEqual_iff.1 first
  obtain ⟨b', c, hv', hw, le'⟩ := holds_lessEqual_iff.1 second
  cases hv.symm.trans hv'
  refine ⟨holds_lessEqual_iff.2 ⟨a, c, hu, hw, le.trans le'⟩, fun strict => ?_⟩
  refine holds_less_iff.2 ⟨a, c, hu, hw, ?_⟩
  rcases strict with lt | lt
  · obtain ⟨a', b', hu', hv', lt⟩ := holds_less_iff.1 lt
    cases hu.symm.trans hu'
    cases hv.symm.trans hv'
    exact lt.trans_le le'
  · obtain ⟨b', c', hv', hw', lt⟩ := holds_less_iff.1 lt
    cases hv.symm.trans hv'
    cases hw.symm.trans hw'
    exact le.trans_lt lt

end Value

open Value

/-- Numbers are compared by their exact values, be they integers or floating-point numbers, and have
no order exactly if one of them is no number. So of less, equal and greater exactly one holds of two
numbers, the other operators are the negations of these, they can be chained and turned round, and
equality of values is symmetric and transitive. -/
theorem numbers_compare_exactly :
    (∀ v w : Value, v.order? w = Option.map₂ cmp v.extended? w.extended?) ∧
    (∀ v w : Value, v.isNumeric = true → w.isNumeric = true →
      (v.order? w = none ↔ v.isNan = true ∨ w.isNan = true) ∧
      ((v == w) = true ↔ v.order? w = some .eq)) ∧
    (∀ v w : Value, v.isNumeric = true → w.isNumeric = true → v.isNan = false → w.isNan = false →
      ∃ (a b : ExtendedRat) (less equal greater : Bool),
        v.extended? = some a ∧ w.extended? = some b ∧
        less = decide (a < b) ∧ equal = decide (a = b) ∧ greater = decide (b < a) ∧
        [less, equal, greater].count true = 1 ∧
        operate .less v w = .ok (.bool less) ∧
        operate .equal v w = .ok (.bool equal) ∧
        operate .greater v w = .ok (.bool greater) ∧
        operate .lessEqual v w = .ok (.bool !greater) ∧
        operate .greaterEqual v w = .ok (.bool !less) ∧
        operate .notEqual v w = .ok (.bool !equal)) ∧
    (∀ u v w : Value, Holds .lessEqual u v → Holds .lessEqual v w →
      Holds .lessEqual u w ∧ (Holds .less u v ∨ Holds .less v w → Holds .less u w)) ∧
    (∀ v w : Value, w.order? v = (v.order? w).map Ordering.swap) ∧
    (∀ v w : Value, (v == w) = (w == v)) ∧
    (∀ u v w : Value, (u == v) = true → (v == w) = true → (u == w) = true) := by
  refine ⟨order?_eq, fun v w hv hw => ⟨?_, ?_⟩, fun v w hv hw real real' => ?_,
    fun u v w => lessEqual_trans, order?_swap, beq_comm, fun u v w => beq_trans⟩
  · rw [order?_eq, Option.map₂_eq_none_iff, extended?_eq_none_iff hv, extended?_eq_none_iff hw]
  · rw [beq_eq_order? hv hw, beq_iff_eq]
  · -- neither is undefined, so each has an exact value
    obtain ⟨a, hv⟩ := exists_extended? hv real
    obtain ⟨b, hw⟩ := exists_extended? hw real'
    refine ⟨a, b, _, _, _, hv, hw, rfl, rfl, rfl, ?_, ?_, ?_, ?_, ?_, ?_, ?_⟩
    · rcases lt_trichotomy a b with lt | rfl | gt
      · simp [lt, lt.ne, lt.not_gt]
      · simp
      · simp [gt, gt.ne', gt.not_gt]
    · rw [← cmp_beq_lt]
      exact comparison_eq hv hw .less _
    · rw [← cmp_beq_eq, ← beq_eq_cmp hv hw]
      rfl
    · rw [← cmp_beq_gt]
      exact comparison_eq hv hw .greater _
    · rw [← cmp_beq_gt]
      exact comparison_eq hv hw .lessEqual _
    · rw [← cmp_beq_lt]
      exact comparison_eq hv hw .greaterEqual _
    · rw [← cmp_beq_eq, ← beq_eq_cmp hv hw]
      rfl

/-- An integer between two neighbouring floating-point numbers, and the greatest integer beside the
number that it would be rounded to. -/
theorem numbers_compare_exactly_large :
    Holds .lessEqual (.float 9007199254740992.0) (.int 9007199254740993) ∧
    Holds .lessEqual (.int 9007199254740993) (.float 9007199254740994.0) ∧
    Holds .less (.int 9007199254740993) (.float 9007199254740994.0) ∧
    Holds .less (.float 9007199254740992.0) (.float 9007199254740994.0) ∧
    (int 9223372036854775807).order? (.float 9223372036854775808.0) = some .lt ∧
    (int 9223372036854775807 == .float 9223372036854775808.0) ≠ true := by
  obtain ⟨-, equality, -, chain, -⟩ := numbers_compare_exactly
  have first : Holds .lessEqual (.float 9007199254740992.0) (.int 9007199254740993) := rfl
  have second : Holds .lessEqual (.int 9007199254740993) (.float 9007199254740994.0) := rfl
  have strict : Holds .less (.int 9007199254740993) (.float 9007199254740994.0) := rfl
  have less : (int 9223372036854775807).order? (.float 9223372036854775808.0) = some .lt := by
    decide
  refine ⟨first, second, strict, (chain _ _ _ first second).2 (.inr strict), less, fun equal => ?_⟩
  have same := (equality _ _ rfl rfl).2.1 equal
  rw [less] at same
  cases same

end GujaratiScript
