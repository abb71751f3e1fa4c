import Mathlib.Data.List.TakeDrop
import Mathlib.Tactic.IntervalCases
import TreeLint.Json.Reader
import TreeLint.Json.Writer

/-!
# Strings and integers are read back

Every character is written so that the reader, wherever it stands in a string,
takes the escape as that one character.  An integer is read back when what
follows it cannot be part of a number, and when the reader takes as many digits
as the integer has.
-/

namespace TreeLint.Text.Hex

theorem value?_digit
    (capital : Bool) {d : Nat}
    (hd : d < 16) :
    value? (digit capital d) = some d := by
  cases capital <;> interval_cases d <;> rfl

theorem number?_append_singleton
    (text : List Char) (c : Char) :
    number? (text ++ [c]) =
      (number? text).bind fun n => (value? c).map fun d => 16 * n + d := by
  unfold number?
  rw [List.foldl_append, List.foldl_cons, List.foldl_nil]
  cases List.foldl _ (some 0) text with
  | none => rfl
  | some n => cases value? c <;> rfl

theorem number?_digits (capital : Bool) (width n : Nat) :
    number? (digits capital width n) = some (n % 16 ^ width) := by
  induction width generalizing n with
  | zero =>
      rw [Nat.pow_zero, Nat.mod_one]
      rfl
  | succ width ih =>
      have hdigit : value? (digit capital (n % 16)) = some (n % 16) :=
        value?_digit capital (Nat.mod_lt n (by omega))
      rw [digits, number?_append_singleton, ih, hdigit, Nat.pow_succ,
        Nat.mul_comm (16 ^ width) 16, Nat.mod_mul]
      simp only [Option.bind_some, Option.map_some, Option.some.injEq]
      omega

end TreeLint.Text.Hex

namespace TreeLint.Json

/-! ## One step of the string reader -/

section Steps

variable (start done : List Char)

theorem readString_quote (rest : List Char) :
    readString start done ('\x22' :: rest) =
      .ok (String.ofList done.reverse, rest) := by
  rw [readString.eq_def]
  exact if_pos rfl

theorem readString_ordinary
    {c : Char} (rest : List Char)
    (hquote : c ≠ '\x22')
    (hslash : c ≠ '\\')
    (hprint : 0x20 ≤ c.toNat) :
    readString start done (c :: rest) = readString start (c :: done) rest := by
  rw [readString.eq_def]
  simp only [if_neg hquote, if_neg hslash]
  exact if_neg (by omega)

theorem readString_simpleEscape
    {e d : Char} (rest : List Char)
    (hescape : simpleEscape? e = some d) :
    readString start done ('\\' :: e :: rest) =
      readString start (d :: done) rest := by
  have hunit : e ≠ 'u' := by
    rintro rfl
    cases hescape
  rw [readString, if_neg (by decide), if_pos rfl]
  simp only [if_neg hunit, hescape]

theorem readString_unit
    {code : Nat} {rest more : List Char}
    (hunit : codeUnit? rest = some (code, more))
    (hhigh : isHighSurrogate code = false) :
    readString start done ('\\' :: 'u' :: rest) =
      readString start (unitChar code :: done) more := by
  rw [readString, if_neg (by decide), if_pos rfl]
  simp only [if_true]
  split
  next hnone =>
    rw [hunit] at hnone
    cases hnone
  next hsome =>
    rw [hunit] at hsome
    cases hsome
    rw [hhigh, if_neg Bool.false_ne_true]

theorem readString_pair
    {high low : Nat} {rest more more' : List Char}
    (hunit : codeUnit? rest = some (high, more))
    (hhigh : isHighSurrogate high = true)
    (hlow : lowHalf? more = some (.ok (low, more'))) :
    readString start done ('\\' :: 'u' :: rest) =
      readString start (Char.ofNat (joinSurrogates high low) :: done) more' := by
  rw [readString, if_neg (by decide), if_pos rfl]
  simp only [if_true]
  split
  next hnone =>
    rw [hunit] at hnone
    cases hnone
  next hsome =>
    rw [hunit] at hsome
    cases hsome
    rw [if_pos hhigh]
    split
    next herror =>
      rw [hlow] at herror
      cases herror
    next hpair =>
      rw [hlow] at hpair
      cases hpair
      rfl
    next hnone =>
      rw [hlow] at hnone
      cases hnone

end Steps

/-! ## Strings -/

/-- Only ASCII is written as an escape without need. -/
def Style.GuardsAscii (style : Style) : Prop :=
  ∀ c ∈ style.guarded, c.toNat < 0x80

theorem codeUnit?_digits
    (capital : Bool) {code : Nat} {more : List Char}
    (hcode : code < 0x10000)
    (hmore : more ≠ []) :
    codeUnit? (Text.Hex.digits capital 4 code ++ more) = some (code, more) := by
  obtain ⟨next, rest, rfl⟩ := List.exists_cons_of_ne_nil hmore
  have hnumber := Text.Hex.number?_digits capital 4 code
  rw [Nat.mod_eq_of_lt (show code < 16 ^ 4 from hcode)] at hnumber
  change (Text.Hex.number? (Text.Hex.digits capital 4 code)).map
    (fun code => (code, next :: rest)) = _
  rw [hnumber, Option.map_some]

theorem lowHalf?_unicodeEscape
    {low : Nat} {more : List Char}
    (hlow : isLowSurrogate low = true)
    (hcode : low < 0x10000)
    (hmore : more ≠ []) :
    lowHalf? (unicodeEscape false low ++ more) = some (.ok (low, more)) := by
  have hunit := codeUnit?_digits false hcode hmore
  obtain ⟨next, rest, rfl⟩ := List.exists_cons_of_ne_nil hmore
  obtain ⟨a, b, c, d, hdigits⟩ :
      ∃ a b c d, Text.Hex.digits false 4 low = [a, b, c, d] := ⟨_, _, _, _, rfl⟩
  simp only [unicodeEscape, hdigits, List.cons_append, List.nil_append] at hunit ⊢
  simp only [lowHalf?, hunit, if_pos hlow]

theorem toNat_valid (c : Char) :
    c.toNat < 0xD800 ∨ 0xDFFF < c.toNat ∧ c.toNat < 0x110000 :=
  c.valid

theorem unitChar_toNat (c : Char) : unitChar c.toNat = c := by
  have hvalid := toNat_valid c
  have hhigh : isHighSurrogate c.toNat = false := by
    simp only [isHighSurrogate, Bool.and_eq_false_iff, decide_eq_false_iff_not]
    omega
  have hlow : isLowSurrogate c.toNat = false := by
    simp only [isLowSurrogate, Bool.and_eq_false_iff, decide_eq_false_iff_not]
    omega
  rw [unitChar, hhigh, hlow, Char.ofNat_toNat]
  rfl

theorem readString_unicodeEscape
    (start done : List Char) (capital : Bool) {c : Char} {more : List Char}
    (hcode : c.toNat < 0x10000)
    (hmore : more ≠ []) :
    readString start done (unicodeEscape capital c.toNat ++ more) =
      readString start (c :: done) more := by
  have hvalid := toNat_valid c
  have hhigh : isHighSurrogate c.toNat = false := by
    simp only [isHighSurrogate, Bool.and_eq_false_iff, decide_eq_false_iff_not]
    omega
  have hunit := codeUnit?_digits capital hcode hmore
  have hread := readString_unit start done hunit hhigh
  rw [unitChar_toNat] at hread
  exact hread

theorem readString_surrogates
    (start done : List Char) {c : Char} {more : List Char}
    (hcode : 0x10000 ≤ c.toNat)
    (hmore : more ≠ []) :
    readString start done
        (unicodeEscape false (0xD800 + (c.toNat - 0x10000) / 0x400) ++
          unicodeEscape false (0xDC00 + (c.toNat - 0x10000) % 0x400) ++ more) =
      readString start (c :: done) more := by
  have hvalid := toNat_valid c
  generalize hh : 0xD800 + (c.toNat - 0x10000) / 0x400 = high
  generalize hl : 0xDC00 + (c.toNat - 0x10000) % 0x400 = low
  have hhigh : isHighSurrogate high = true := by
    simp only [isHighSurrogate, Bool.and_eq_true, decide_eq_true_eq]
    omega
  have hlow : isLowSurrogate low = true := by
    simp only [isLowSurrogate, Bool.and_eq_true, decide_eq_true_eq]
    omega
  have hjoin : joinSurrogates high low = c.toNat := by
    unfold joinSurrogates
    omega
  have hunit :
      codeUnit? (Text.Hex.digits false 4 high ++
          (unicodeEscape false low ++ more)) =
        some (high, unicodeEscape false low ++ more) :=
    codeUnit?_digits false (by omega) (List.append_ne_nil_of_right_ne_nil _ hmore)
  have hhalf := lowHalf?_unicodeEscape hlow (by omega) hmore
  have hread := readString_pair start done hunit hhigh hhalf
  rw [hjoin, Char.ofNat_toNat] at hread
  rw [List.append_assoc]
  exact hread

/-- The four forms that a character can take inside a string. -/
inductive Style.Escaped (style : Style) (c : Char) : List Char → Prop where
  | simple (e : Char) (hguard : c ∉ style.guarded) (hread : simpleEscape? e = some c) :
      Escaped style c ['\\', e]
  | unit (capital : Bool) (hcode : c ∈ style.guarded ∨ c.toNat < 0x10000) :
      Escaped style c (unicodeEscape capital c.toNat)
  | ordinary (hguard : c ∉ style.guarded) (hquote : c ≠ '\x22')
      (hslash : c ≠ '\\') (hprint : 0x20 ≤ c.toNat ∧ c.toNat < 0x7F) :
      Escaped style c [c]
  | pair (hcode : 0x10000 ≤ c.toNat) :
      Escaped style c
        (unicodeEscape false (0xD800 + (c.toNat - 0x10000) / 0x400) ++
          unicodeEscape false (0xDC00 + (c.toNat - 0x10000) % 0x400))

theorem Style.escaped_escape (style : Style) (c : Char) :
    style.Escaped c (style.escape c) := by
  unfold Style.escape
  by_cases hguard : style.guarded.contains c = true
  · rw [if_pos hguard]
    exact .unit true (.inl (List.contains_iff_mem.mp hguard))
  have hfree : c ∉ style.guarded := fun hmem =>
    hguard (List.contains_iff_mem.mpr hmem)
  rw [if_neg hguard]
  by_cases hquote : c = '\x22'
  · rw [if_pos hquote]
    exact .simple '\x22' hfree (by rw [hquote]; rfl)
  rw [if_neg hquote]
  by_cases hslash : c = '\\'
  · rw [if_pos hslash]
    exact .simple '\\' hfree (by rw [hslash]; rfl)
  rw [if_neg hslash]
  by_cases hline : c = '\n'
  · rw [if_pos hline]
    exact .simple 'n' hfree (by rw [hline]; rfl)
  rw [if_neg hline]
  by_cases hreturn : c = '\r'
  · rw [if_pos hreturn]
    exact .simple 'r' hfree (by rw [hreturn]; rfl)
  rw [if_neg hreturn]
  by_cases htab : c = '\t'
  · rw [if_pos htab]
    exact .simple 't' hfree (by rw [htab]; rfl)
  rw [if_neg htab]
  by_cases hback : c = '\x08'
  · rw [if_pos hback]
    exact .simple 'b' hfree (by rw [hback]; rfl)
  rw [if_neg hback]
  by_cases hfeed : c = '\x0c'
  · rw [if_pos hfeed]
    exact .simple 'f' hfree (by rw [hfeed]; rfl)
  rw [if_neg hfeed]
  by_cases hcontrol : c.toNat < 0x20
  · rw [if_pos hcontrol]
    exact .unit false (.inr (by omega))
  rw [if_neg hcontrol]
  by_cases hprint : c.toNat < 0x7F
  · rw [if_pos hprint]
    exact .ordinary hfree hquote hslash ⟨by omega, hprint⟩
  rw [if_neg hprint]
  by_cases hplane : c.toNat < 0x10000
  · rw [if_pos hplane]
    exact .unit false (.inr hplane)
  · rw [if_neg hplane]
    exact .pair (by omega)

theorem readString_escape
    {style : Style} (hstyle : style.GuardsAscii)
    (start done : List Char) (c : Char) {more : List Char}
    (hmore : more ≠ []) :
    readString start done (style.escape c ++ more) =
      readString start (c :: done) more := by
  have hescaped := style.escaped_escape c
  generalize style.escape c = text at hescaped
  cases hescaped with
  | simple e hguard hread =>
      exact readString_simpleEscape start done more hread
  | unit capital hcode =>
      have hbasic : c.toNat < 0x10000 := by
        rcases hcode with hguard | hcode
        · have hascii := hstyle c hguard
          omega
        · exact hcode
      exact readString_unicodeEscape start done capital hbasic hmore
  | ordinary hguard hquote hslash hprint =>
      exact readString_ordinary start done more hquote hslash hprint.1
  | pair hcode =>
      exact readString_surrogates start done hcode hmore

theorem readString_flatMap_escape
    {style : Style} (hstyle : style.GuardsAscii)
    (start done text rest : List Char) :
    readString start done
        (text.flatMap style.escape ++ '\x22' :: rest) =
      .ok (String.ofList (done.reverse ++ text), rest) := by
  induction text generalizing done with
  | nil =>
      rw [List.flatMap_nil, List.nil_append, readString_quote, List.append_nil]
  | cons c text ih =>
      have hmore : text.flatMap style.escape ++ '\x22' :: rest ≠ [] := by
        simp
      rw [List.flatMap_cons, List.append_assoc,
        readString_escape hstyle start done c hmore, ih (c :: done),
        List.reverse_cons, List.append_assoc]
      rfl

theorem Style.string_append
    (style : Style) (s : String) (rest : List Char) :
    style.string s ++ rest =
      '\x22' :: (s.toList.flatMap style.escape ++ '\x22' :: rest) := by
  rw [Style.string, List.cons_append, List.cons_append, List.append_assoc]
  rfl

/-- A string is read back from its opening quote on. -/
theorem readString_string
    {style : Style} (hstyle : style.GuardsAscii)
    (start rest : List Char) (s : String) :
    readString start [] (s.toList.flatMap style.escape ++ '\x22' :: rest) =
      .ok (s, rest) := by
  rw [readString_flatMap_escape hstyle, List.reverse_nil, List.nil_append,
    String.ofList_toList]

/-! ## Integers -/

/-- What follows is no part of a number. -/
def Boundary (rest : List Char) : Prop :=
  ∀ c ∈ rest.head?, c.isDigit = false ∧ c ≠ '.' ∧ c ≠ 'e' ∧ c ≠ 'E'

/-- The number of decimal digits. -/
def digitCount (n : Int) : Nat := (Nat.toDigits 10 n.natAbs).length

theorem digitSpan_append
    {ds rest : List Char}
    (hdigits : ∀ c ∈ ds, c.isDigit = true)
    (hrest : Boundary rest) :
    digitSpan (ds ++ rest) = (ds, rest) := by
  have hnone : rest.takeWhile Char.isDigit = [] ∧
      rest.dropWhile Char.isDigit = rest := by
    cases rest with
    | nil => exact ⟨rfl, rfl⟩
    | cons c rest =>
        have hc := (hrest c rfl).1
        simp [hc]
  rw [digitSpan, List.span_eq_takeWhile_dropWhile,
    List.takeWhile_append_of_pos hdigits, List.dropWhile_append_of_pos hdigits,
    hnone.1, hnone.2, List.append_nil]

theorem head?_toDigits_ne_zero
    {n : Nat}
    (hn : 0 < n) :
    (Nat.toDigits 10 n).head? ≠ some '0' := by
  induction n using Nat.base_induction 10 (by decide) with
  | single m hm =>
      rw [Nat.toDigits_of_lt_base hm]
      interval_cases m <;> decide
  | digit m k hk hm ih =>
      rw [← Nat.toDigits_append_toDigits (by decide) hm hk,
        List.head?_append]
      cases hhead : (Nat.toDigits 10 m).head? with
      | none => exact absurd (List.head?_eq_none_iff.mp hhead) Nat.toDigits_ne_nil
      | some c =>
          have hc := ih hm
          rw [hhead] at hc
          exact hc

theorem exists_toDigits_eq_cons (n : Nat) :
    ∃ c ds, Nat.toDigits 10 n = c :: ds ∧ c.isDigit = true := by
  cases hcons : Nat.toDigits 10 n with
  | nil => exact absurd hcons Nat.toDigits_ne_nil
  | cons c ds =>
      have hmem : c ∈ Nat.toDigits 10 n := by
        rw [hcons]
        exact List.mem_cons_self
      exact ⟨c, ds, rfl,
        Nat.isDigit_of_mem_toDigits (by decide) (by decide) hmem⟩

theorem integerPart_toDigits
    (n : Nat) {rest : List Char}
    (hrest : Boundary rest) :
    integerPart (Nat.toDigits 10 n ++ rest) = (Nat.toDigits 10 n, rest) := by
  have hdigits : ∀ c ∈ Nat.toDigits 10 n, c.isDigit = true := fun c hc =>
    Nat.isDigit_of_mem_toDigits (by decide) (by decide) hc
  rcases Nat.eq_zero_or_pos n with rfl | hn
  · rw [Nat.toDigits_zero]
    rfl
  · have hhead := head?_toDigits_ne_zero hn
    have hspan := digitSpan_append hdigits hrest
    obtain ⟨c, ds, hcons, -⟩ := exists_toDigits_eq_cons n
    rw [hcons] at hhead hspan ⊢
    rw [List.cons_append] at hspan ⊢
    rw [← hspan]
    unfold integerPart
    split
    next heq =>
      cases heq
      exact absurd rfl hhead
    next => rfl

theorem fractionPart_of_boundary
    {rest : List Char}
    (hrest : Boundary rest) :
    fractionPart rest = ([], rest) := by
  cases rest with
  | nil => rfl
  | cons c rest =>
      have hpoint : c ≠ '.' := (hrest c rfl).2.1
      unfold fractionPart
      split
      next heq =>
        cases heq
        exact absurd rfl hpoint
      next => rfl

theorem exponentPart_of_boundary
    {rest : List Char}
    (hrest : Boundary rest) :
    exponentPart rest = (none, rest) := by
  cases rest with
  | nil => rfl
  | cons c rest =>
      have hletter : ¬(c = 'e' ∨ c = 'E') := by
        rintro (he | hE)
        · exact (hrest c rfl).2.2.1 he
        · exact (hrest c rfl).2.2.2 hE
      exact if_neg hletter

theorem digitsNat_toDigits (n : Nat) :
    digitsNat (Nat.toDigits 10 n) = n := by
  unfold digitsNat Text.ofDigits
  rw [List.foldl_map]
  exact Nat.ofDigitChars_ten_toDigits

theorem readNumber_toDigits
    {digits n : Nat} (negative : Bool) {rest : List Char}
    (hcount : (Nat.toDigits 10 n).length ≤ digits)
    (hrest : Boundary rest) :
    readNumber digits negative (Nat.toDigits 10 n ++ rest) =
      .ok (.int (if negative then -(n : Int) else n), rest) := by
  have hfew : ¬digits < (Nat.toDigits 10 n).length := by omega
  unfold readNumber
  simp only [integerPart_toDigits n hrest, fractionPart_of_boundary hrest,
    exponentPart_of_boundary hrest, digitsNat_toDigits, if_neg hfew]
  rfl

theorem toList_toString_of_nonneg
    {n : Int}
    (hn : 0 ≤ n) :
    (toString n).toList = Nat.toDigits 10 n.natAbs := by
  rw [Int.toString_eq_repr, Int.repr_eq_if, if_pos hn, Nat.toList_repr]
  congr 1
  omega

theorem toList_toString_of_neg
    {n : Int}
    (hn : n < 0) :
    (toString n).toList = '-' :: Nat.toDigits 10 n.natAbs := by
  rw [Int.toString_eq_repr, Int.repr_eq_if, if_neg (by omega),
    String.toList_append, Nat.toList_repr]
  have habs : (-n).toNat = n.natAbs := by omega
  rw [habs]
  rfl

theorem exists_toString_eq_cons (n : Int) :
    ∃ c more, (toString n).toList = c :: more ∧
      (c = '-' ∨ c.isDigit = true) := by
  obtain ⟨c, ds, hcons, hc⟩ := exists_toDigits_eq_cons n.natAbs
  rcases Int.lt_or_le n 0 with hneg | hnonneg
  · exact ⟨'-', _, toList_toString_of_neg hneg, .inl rfl⟩
  · exact ⟨c, ds, (toList_toString_of_nonneg hnonneg).trans hcons, .inr hc⟩

theorem readScalar_toDigits
    {digits n : Nat} {rest : List Char}
    (hcount : (Nat.toDigits 10 n).length ≤ digits)
    (hrest : Boundary rest) :
    readScalar digits (Nat.toDigits 10 n ++ rest) = .ok (.int n, rest) := by
  have hread := readNumber_toDigits false hcount hrest
  obtain ⟨c, ds, hcons, hc⟩ := exists_toDigits_eq_cons n
  rw [hcons, List.cons_append] at hread ⊢
  unfold readScalar
  simp only [if_pos hc]
  exact hread

theorem readScalar_minus_toDigits
    {digits n : Nat} {rest : List Char}
    (hcount : (Nat.toDigits 10 n).length ≤ digits)
    (hrest : Boundary rest) :
    readScalar digits ('-' :: (Nat.toDigits 10 n ++ rest)) =
      .ok (.int (-n), rest) := by
  have hread := readNumber_toDigits true hcount hrest
  obtain ⟨c, ds, hcons, hc⟩ := exists_toDigits_eq_cons n
  rw [hcons, List.cons_append] at hread ⊢
  have hminus : ('-' : Char).isDigit ≠ true := by decide
  unfold readScalar
  simp only [if_neg hminus, if_true, if_pos hc]
  exact hread

/-- An integer is read back, whatever follows that is no part of a number. -/
theorem readScalar_toString
    {digits : Nat} {n : Int} {rest : List Char}
    (hcount : digitCount n ≤ digits)
    (hrest : Boundary rest) :
    readScalar digits ((toString n).toList ++ rest) = .ok (.int n, rest) := by
  rcases Int.lt_or_le n 0 with hneg | hnonneg
  · rw [toList_toString_of_neg hneg, List.cons_append,
      readScalar_minus_toDigits hcount hrest]
    have hn : -(n.natAbs : Int) = n := by omega
    rw [hn]
  · rw [toList_toString_of_nonneg hnonneg, readScalar_toDigits hcount hrest]
    have hn : (n.natAbs : Int) = n := by omega
    rw [hn]

end TreeLint.Json
