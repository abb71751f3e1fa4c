import TreeLint.Proofs.JsonScalars
import TreeLint.Proofs.ReaderAnswers
import TreeLint.Proofs.WritableValues

/-!
# Integers that the JSON reader lets through

The reader refuses an integer that is written with too many digits, so no integer
of a value that it gives has more digits than the limit, however deep inside of
the value it is.  With the limit of the writer, such a value can be written out.
-/

namespace TreeLint

namespace Text

theorem foldl_digits_lt
    {digits : List Nat} (hdigits : ∀ d ∈ digits, d < 10) (n : Nat) :
    digits.foldl (fun n d => 10 * n + d) n < (n + 1) * 10 ^ digits.length := by
  induction digits generalizing n with
  | nil => simp
  | cons d digits ih =>
      obtain ⟨hd, hrest⟩ := List.forall_mem_cons.mp hdigits
      calc
        digits.foldl (fun n d => 10 * n + d) (10 * n + d) <
            (10 * n + d + 1) * 10 ^ digits.length := ih hrest _
        _ ≤ ((n + 1) * 10) * 10 ^ digits.length := Nat.mul_le_mul_right _ (by omega)
        _ = (n + 1) * 10 ^ (digits.length + 1) := by rw [Nat.pow_succ', Nat.mul_assoc]

theorem ofDigits_lt
    {digits : List Nat} (hdigits : ∀ d ∈ digits, d < 10) :
    ofDigits digits < 10 ^ digits.length := by
  simpa [ofDigits] using foldl_digits_lt hdigits 0

end Text

namespace Json

/-- All integers in a value have at most `digits` digits. -/
inductive Short (digits : Nat) : Value → Prop where
  | null : Short digits .null
  | bool (b : Bool) : Short digits (.bool b)
  | int (n : Int) (hcount : digitCount n ≤ digits) : Short digits (.int n)
  | float (x : Binary64) : Short digits (.float x)
  | str (s : String) : Short digits (.str s)
  | list (items : List Value) (hitems : ∀ v ∈ items, Short digits v) : Short digits (.list items)
  | table (fields : Fields) (hfields : ∀ field ∈ fields, Short digits field.2) :
      Short digits (.table fields)

theorem Short.isWritable {v : Value} (hv : Short Text.maxDigits v) : v.isWritable = true := by
  induction hv with
  | int n hcount => exact (Text.isWritable_iff_digitCount_le n).mpr hcount
  | list items _ ih => exact (Value.areWritable_iff items).mpr ih
  | table fields _ ih => exact (Value.fieldsAreWritable_iff fields).mpr ih
  | _ => rfl

/-- A reader gives no value with longer integers. -/
def Yields (digits : Nat) : Except Fault (Value × List Char) → Prop
  | .ok (v, _) => Short digits v
  | .error _ => True

theorem Short.set
    {digits : Nat} {fields : Fields} {v : Value}
    (hfields : ∀ field ∈ fields, Short digits field.2) (hv : Short digits v) (name : String) :
    ∀ field ∈ Fields.set name v fields, Short digits field.2 := by
  induction fields with
  | nil => simpa [Fields.set] using hv
  | cons first rest ih =>
      obtain ⟨hfirst, hrest⟩ := List.forall_mem_cons.mp hfields
      unfold Fields.set
      split
      · exact List.forall_mem_cons.mpr ⟨hv, hrest⟩
      · exact List.forall_mem_cons.mpr ⟨hfirst, ih hrest⟩

theorem Short.get?
    {digits : Nat} {fields : Fields} {v : Value} {name : String}
    (hfields : Short digits (.table fields)) (hget : fields.get? name = some v) :
    Short digits v := by
  obtain ⟨field, hfind, rfl⟩ := Option.map_eq_some_iff.mp hget
  cases hfields with
  | table _ hfields => exact hfields field (List.mem_of_find?_eq_some hfind)

theorem Short.getD
    {digits : Nat} {fields : Fields} {default : Value}
    (hfields : Short digits (.table fields)) (hdefault : Short digits default) (name : String) :
    Short digits ((fields.get? name).getD default) := by
  cases hget : fields.get? name with
  | none => exact hdefault
  | some v => exact hfields.get? hget

section Readers

variable {digits : Nat}

theorem digitCount_digitsNat_le
    {cs : List Char} (hcs : ∀ c ∈ cs, c.isDigit = true)
    (hlength : cs.length ≤ digits) (hpos : 0 < digits) (negative : Bool) :
    digitCount (if negative then -(digitsNat cs : Int) else digitsNat cs) ≤ digits := by
  have hlt : digitsNat cs < 10 ^ digits := by
    have hvalue : ∀ d ∈ cs.map fun c => c.toNat - 0x30, d < 10 := by
      intro d hd
      obtain ⟨c, hc, rfl⟩ := List.mem_map.mp hd
      have hbounds := Char.isDigit_iff_toNat.mp (hcs c hc)
      simp at hbounds
      omega
    have hsum := Text.ofDigits_lt hvalue
    rw [List.length_map] at hsum
    exact hsum.trans_le (Nat.pow_le_pow_right (by decide) hlength)
  have hnat : (if negative then -(digitsNat cs : Int) else digitsNat cs).natAbs = digitsNat cs := by
    cases negative <;> simp
  rw [digitCount, hnat, Nat.length_toDigits_le_iff (by decide) hpos]
  exact hlt

theorem yields_readNumber (hpos : 0 < digits) (negative : Bool) (cs : List Char) :
    Yields digits (readNumber digits negative cs) := by
  unfold readNumber
  simp only
  split
  · split
    · trivial
    · next hlimit =>
      refine .int _ (digitCount_digitsNat_le (fun c hc => ?_) (Nat.le_of_not_lt hlimit) hpos _)
      exact isDigit_of_mem_integerPart hc
  · exact .float _

theorem yields_readScalar (hpos : 0 < digits) (cs : List Char) :
    Yields digits (readScalar digits cs) := by
  unfold readScalar
  cases cs with
  | nil => trivial
  | cons c rest =>
      simp only
      split
      · exact yields_readNumber hpos false (c :: rest)
      split
      · cases rest with
        | nil => trivial
        | cons d rest =>
            simp only
            split
            · exact yields_readNumber hpos true (d :: rest)
            · split
              · exact .float _
              · trivial
      · split
        · next result hfound =>
          obtain ⟨entry, hentry, hword⟩ := List.exists_of_findSome?_eq_some hfound
          obtain ⟨rest', -, rfl⟩ := Option.map_eq_some_iff.mp hword
          simp only [List.mem_cons, List.not_mem_nil, or_false] at hentry
          rcases hentry with rfl | rfl | rfl | rfl | rfl
          · exact .null
          · exact .bool true
          · exact .bool false
          · exact .float _
          · exact .float _
        · trivial

/-- What the three readers of values give when they have the same fuel. -/
structure FuelYields (digits fuel : Nat) : Prop where
  value : ∀ depth cs, Yields digits (readValue digits fuel depth cs)
  items : ∀ depth done cs, (∀ v ∈ done, Short digits v) →
    Yields digits (readItems digits fuel depth done cs)
  members : ∀ depth done cs, (∀ field ∈ done, Short digits field.2) →
    Yields digits (readMembers digits fuel depth done cs)

variable {fuel : Nat}

theorem FuelYields.readValue_succ
    (h : FuelYields digits fuel) (hpos : 0 < digits) (depth : Nat) (cs : List Char) :
    Yields digits (readValue digits (fuel + 1) depth cs) := by
  rw [readValue.eq_def]
  cases cs with
  | nil => trivial
  | cons c rest =>
      simp only
      split
      · split
        · trivial
        · exact .str _
      split
      · cases depth with
        | zero => trivial
        | succ depth =>
            simp only
            split
            · exact .list [] (by simp)
            · exact h.items depth [] _ (by simp)
      split
      · cases depth with
        | zero => trivial
        | succ depth =>
            simp only
            split
            · exact .table [] (by simp)
            · exact h.members depth [] _ (by simp)
      · exact yields_readScalar hpos (c :: rest)

theorem FuelYields.readItems_succ
    (h : FuelYields digits fuel) (depth : Nat) {done : List Value} (cs : List Char)
    (hdone : ∀ v ∈ done, Short digits v) :
    Yields digits (readItems digits (fuel + 1) depth done cs) := by
  rw [readItems.eq_def]
  have hvalue := h.value depth cs
  simp only
  split
  · trivial
  · next v rest heq =>
    rw [heq] at hvalue
    have hitems : ∀ w ∈ v :: done, Short digits w := List.forall_mem_cons.mpr ⟨hvalue, hdone⟩
    split
    · exact .list _ fun w hw => hitems w (List.mem_reverse.mp hw)
    · exact h.items depth _ _ hitems
    · trivial

theorem FuelYields.readMembers_succ
    (h : FuelYields digits fuel) (depth : Nat) {done : Fields} (cs : List Char)
    (hdone : ∀ field ∈ done, Short digits field.2) :
    Yields digits (readMembers digits (fuel + 1) depth done cs) := by
  rw [readMembers.eq_def]
  simp only
  split
  · split
    · trivial
    · next name rest _ =>
      split
      · next afterColon _ =>
        have hvalue := h.value depth (skipBlanks afterColon)
        split
        · trivial
        · next v rest' heq =>
          rw [heq] at hvalue
          have hfields := Short.set hdone hvalue name
          split
          · exact .table _ hfields
          · exact h.members depth _ _ hfields
          · trivial
      · trivial
  · trivial

theorem fuelYields (hpos : 0 < digits) (fuel : Nat) : FuelYields digits fuel := by
  induction fuel with
  | zero =>
      refine ⟨?_, ?_, ?_⟩
      · intro depth cs
        rw [readValue.eq_def]
        trivial
      · intro depth done cs _
        rw [readItems.eq_def]
        trivial
      · intro depth done cs _
        rw [readMembers.eq_def]
        trivial
  | succ fuel ih =>
      exact ⟨ih.readValue_succ hpos, fun depth _ => ih.readItems_succ depth,
        fun depth _ => ih.readMembers_succ depth⟩

/-- The integers of what is read have no more digits than the reader takes. -/
theorem short_of_read
    {depth : Nat} {cs : List Char} {v : Value}
    (hpos : 0 < digits) (h : read depth digits cs = .ok v) : Short digits v := by
  have hvalue := (fuelYields hpos (2 * cs.length + 2)).value depth (skipBlanks cs)
  unfold read at h
  split at h
  · cases h
  · split at h
    · cases h
    · next read rest heq =>
      rw [heq] at hvalue
      split at h
      · cases h
        exact hvalue
      · cases h

end Readers

end Json

end TreeLint
