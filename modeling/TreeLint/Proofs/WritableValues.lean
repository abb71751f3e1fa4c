import TreeLint.Proofs.JsonScalars

/-!
# Values that have a text

An integer has a text when it has few enough digits, and a value has one when all
the integers in it do.  So `Value.isWritable` is the test for both forms of a
value, `Value.inner` and `Value.shown`.
-/

namespace TreeLint

/-! ## Integers -/

namespace Json

theorem lt_length_toDigits
    {k n : Nat} (hk : 0 < k) (h : 10 ^ k ≤ n) :
    k < (Nat.toDigits 10 n).length := by
  by_contra hshort
  have hsmall := (Nat.length_toDigits_le_iff (by decide) hk).mp (Nat.le_of_not_lt hshort)
  omega

theorem length_toDigits_pow
    {k : Nat} (hk : 0 < k) : (Nat.toDigits 10 (10 ^ k)).length = k + 1 := by
  apply Nat.le_antisymm
  · rw [Nat.length_toDigits_le_iff (by decide) (Nat.succ_pos k)]
    exact Nat.pow_lt_pow_right (by decide) (Nat.lt_succ_self k)
  · exact lt_length_toDigits hk (Nat.le_refl _)

end Json

theorem Text.isOk_written (n : Int) : (Text.written n).isOk = Text.isWritable n := by
  unfold Text.written
  cases Text.isWritable n <;> rfl

/-- The integers that can be written out are those without too many digits. -/
theorem Text.isWritable_iff_digitCount_le (n : Int) :
    Text.isWritable n = true ↔ Json.digitCount n ≤ Text.maxDigits := by
  have hcount : ∀ limit, 0 < limit →
      (decide (n.natAbs < Nat.pow 10 limit) = true ↔ Json.digitCount n ≤ limit) := by
    intro limit hpos
    rw [Json.digitCount, Nat.length_toDigits_le_iff (by decide) hpos, decide_eq_true_eq]
    rfl
  unfold Text.isWritable
  exact hcount Text.maxDigits (by decide)

/-- The smallest integer that is too long. -/
def Text.longInteger : Nat := 10 ^ Text.maxDigits

theorem Text.isWritable_longInteger : Text.isWritable Text.longInteger = false := by
  have hcount : Json.digitCount Text.longInteger = Text.maxDigits + 1 :=
    Json.length_toDigits_pow (by decide)
  rw [← Bool.not_eq_true, Text.isWritable_iff_digitCount_le, hcount]
  exact Nat.not_succ_le_self _

/-! ## Values -/

namespace Value

mutual

theorem isOk_inner : ∀ v : Value, v.inner.isOk = v.isWritable
  | .null => rfl
  | .bool true => rfl
  | .bool false => rfl
  | .int n => Text.isOk_written n
  | .float _ => rfl
  | .str _ => rfl
  | .moment _ => rfl
  | .list items => by
      rw [isWritable, ← isOk_innerItems items, inner]
      cases innerItems items <;> rfl
  | .table fields => by
      rw [isWritable, ← isOk_innerFields fields, inner]
      cases innerFields fields <;> rfl

theorem isOk_innerItems : ∀ items : List Value, (innerItems items).isOk = areWritable items
  | [] => rfl
  | v :: rest => by
      rw [areWritable, ← isOk_inner v, ← isOk_innerItems rest, innerItems]
      cases inner v with
      | error _ => rfl
      | ok _ => cases innerItems rest <;> rfl

theorem isOk_innerFields :
    ∀ fields : List (String × Value), (innerFields fields).isOk = fieldsAreWritable fields
  | [] => rfl
  | (_, v) :: rest => by
      rw [fieldsAreWritable, ← isOk_inner v, ← isOk_innerFields rest, innerFields]
      cases inner v with
      | error _ => rfl
      | ok _ => cases innerFields rest <;> rfl

end

theorem isOk_shown (v : Value) : v.shown.isOk = v.isWritable := by
  cases v with
  | str s => rfl
  | _ => exact isOk_inner _

theorem exists_shown {v : Value} (h : v.isWritable = true) : ∃ text, v.shown = .ok text := by
  rw [← isOk_shown] at h
  cases hshown : v.shown with
  | error fault =>
      rw [hshown] at h
      cases h
  | ok text => exact ⟨text, rfl⟩

/-- A value that counts as false has no integers in it but zero. -/
theorem isWritable_of_truthy_eq_false {v : Value} (h : v.truthy = false) : v.isWritable = true := by
  cases v with
  | int n =>
      obtain rfl : n = 0 := by simpa [truthy] using h
      exact (Text.isWritable_iff_digitCount_le 0).mpr (by decide)
  | list items =>
      obtain rfl : items = [] := by simpa [truthy] using h
      rfl
  | table fields =>
      obtain rfl : fields = [] := by simpa [truthy] using h
      rfl
  | _ => rfl

theorem areWritable_iff (items : List Value) :
    areWritable items = true ↔ ∀ v ∈ items, v.isWritable = true := by
  induction items with
  | nil => simp [areWritable]
  | cons v rest ih => simp [areWritable, ih]

theorem fieldsAreWritable_iff (fields : List (String × Value)) :
    fieldsAreWritable fields = true ↔ ∀ field ∈ fields, field.2.isWritable = true := by
  induction fields with
  | nil => simp [fieldsAreWritable]
  | cons field rest ih => simp [fieldsAreWritable, ih]

end Value

end TreeLint
