import Mathlib.Data.List.TakeDrop
import Mathlib.Data.List.TakeWhile
import TreeLint.Json.Reader

/-!
# What the JSON reader answers

A reader takes its value from the front of a text and hands on what is left, so
the rest is always a suffix.  Every refusal but one is a fault of the text as
JSON.  The exception is an integer with too many digits, and then the text has
that many digits in a row.
-/

namespace TreeLint.Json

/-- A text has `count` digits in a row. -/
def HasRun (count : Nat) (cs : List Char) : Prop :=
  ∃ digits, digits <:+: cs ∧ digits.length = count ∧ ∀ c ∈ digits, c.isDigit = true

theorem HasRun.of_suffix
    {count : Nat} {cs cs' : List Char}
    (h : HasRun count cs') (hsuffix : cs' <:+ cs) : HasRun count cs := by
  obtain ⟨digits, hinfix, hlength, hdigits⟩ := h
  exact ⟨digits, hinfix.trans hsuffix.isInfix, hlength, hdigits⟩

/-- What a reader of a text may answer when integers have at most `digits` digits. -/
inductive Answer (digits : Nat) (cs : List Char) {α : Type} :
    Except Fault (α × List Char) → Prop where
  | ok (a : α) {rest : List Char} (hsuffix : rest <:+ cs) : Answer digits cs (.ok (a, rest))
  | malformed (problem : Problem) (remaining : Nat) :
      Answer digits cs (.error (.malformed problem remaining))
  | tooDeep : Answer digits cs (.error .tooDeep)
  | tooManyDigits {count : Nat} (hlimit : digits < count) (hrun : HasRun count cs) :
      Answer digits cs (.error (.tooManyDigits count))

section Answers

variable {digits : Nat} {cs cs' : List Char} {α : Type}
  {answer : Except Fault (α × List Char)}

theorem Answer.of_suffix
    (h : Answer digits cs' answer) (hsuffix : cs' <:+ cs) :
    Answer digits cs answer := by
  cases h with
  | ok a hrest => exact .ok a (hrest.trans hsuffix)
  | malformed problem remaining => exact .malformed problem remaining
  | tooDeep => exact .tooDeep
  | tooManyDigits hlimit hrun => exact .tooManyDigits hlimit (hrun.of_suffix hsuffix)

/-- A reader goes on behind a value, or passes a refusal on. -/
theorem Answer.ok_or_error
    (h : Answer digits cs answer) :
    (∃ a rest, answer = .ok (a, rest) ∧ rest <:+ cs) ∨
      ∃ fault, answer = .error fault ∧
        ∀ {β : Type}, Answer digits cs (.error fault : Except Fault (β × List Char)) := by
  cases h with
  | ok a hrest => exact Or.inl ⟨a, _, rfl, hrest⟩
  | malformed problem remaining => exact Or.inr ⟨_, rfl, .malformed problem remaining⟩
  | tooDeep => exact Or.inr ⟨_, rfl, .tooDeep⟩
  | tooManyDigits hlimit hrun => exact Or.inr ⟨_, rfl, .tooManyDigits hlimit hrun⟩

end Answers

theorem skipBlanks_suffix (cs : List Char) : skipBlanks cs <:+ cs :=
  List.dropWhile_suffix isBlank

theorem suffix_of_skipBlanks_eq_cons
    {c : Char} {cs rest : List Char}
    (h : skipBlanks cs = c :: rest) : rest <:+ cs := by
  have hsuffix := skipBlanks_suffix cs
  rw [h] at hsuffix
  exact (List.suffix_cons c rest).trans hsuffix

/-! ## Strings -/

theorem codeUnit?_suffix
    {cs rest : List Char} {code : Nat}
    (h : codeUnit? cs = some (code, rest)) : rest <:+ cs := by
  unfold codeUnit? at h
  split at h
  · next a b c d next rest' =>
    obtain ⟨_, _, hpair⟩ := Option.map_eq_some_iff.mp h
    cases hpair
    exact ⟨[a, b, c, d], rfl⟩
  · cases h

theorem lowHalf?_suffix
    {cs rest : List Char} {code : Nat}
    (h : lowHalf? cs = some (.ok (code, rest))) : rest <:+ cs := by
  unfold lowHalf? at h
  split at h
  · next a b c d next rest' =>
    split at h
    · cases h
    · next hunit =>
      split at h
      · cases h
        exact (codeUnit?_suffix hunit).trans ⟨['\\', 'u'], rfl⟩
      · cases h
  · cases h

theorem lowHalf?_malformed
    {cs : List Char} {fault : Fault}
    (h : lowHalf? cs = some (.error fault)) :
    ∃ problem remaining, fault = .malformed problem remaining := by
  unfold lowHalf? at h
  split at h
  · split at h
    · cases h
      exact ⟨_, _, rfl⟩
    · split at h <;> cases h
  · cases h

theorem answer_readString (digits : Nat) (start done cs : List Char) :
    Answer digits cs (readString start done cs) := by
  fun_induction readString start done cs with
  | case1 => exact .malformed _ _
  | case2 done rest => exact .ok _ (List.suffix_cons _ _)
  | case3 => exact .malformed _ _
  | case4 => exact .malformed _ _
  | case5 done rest' code more hunit _ fault hlow =>
      obtain ⟨problem, remaining, rfl⟩ := lowHalf?_malformed hlow
      exact .malformed _ _
  | case6 done rest' code more hunit _ low more' hlow _ ih =>
      refine ih.of_suffix ((lowHalf?_suffix hlow).trans ?_)
      exact (codeUnit?_suffix hunit).trans ⟨['\\', 'u'], rfl⟩
  | case7 done rest' code more hunit _ hlow _ ih =>
      exact ih.of_suffix ((codeUnit?_suffix hunit).trans ⟨['\\', 'u'], rfl⟩)
  | case8 done rest' code more hunit _ _ ih =>
      exact ih.of_suffix ((codeUnit?_suffix hunit).trans ⟨['\\', 'u'], rfl⟩)
  | case9 done e rest' _ d hd _ ih => exact ih.of_suffix ⟨['\\', e], rfl⟩
  | case10 => exact .malformed _ _
  | case11 => exact .malformed _ _
  | case12 done c rest' _ _ _ ih => exact ih.of_suffix (List.suffix_cons c rest')

/-! ## Numbers -/

theorem integerPart_append (cs : List Char) :
    (integerPart cs).1 ++ (integerPart cs).2 = cs := by
  unfold integerPart
  split
  · rfl
  · rw [digitSpan, List.span_eq_takeWhile_dropWhile]
    exact List.takeWhile_append_dropWhile

theorem isDigit_of_mem_integerPart
    {cs : List Char} {c : Char}
    (h : c ∈ (integerPart cs).1) : c.isDigit = true := by
  unfold integerPart at h
  split at h
  · rw [List.mem_singleton.mp h]
    rfl
  · rw [digitSpan, List.span_eq_takeWhile_dropWhile] at h
    exact List.mem_takeWhile_imp h

theorem digitSpan_suffix (cs : List Char) : (digitSpan cs).2 <:+ cs := by
  rw [digitSpan, List.span_eq_takeWhile_dropWhile]
  exact List.dropWhile_suffix _

theorem fractionPart_suffix (cs : List Char) : (fractionPart cs).2 <:+ cs := by
  unfold fractionPart
  split
  · next rest =>
    split
    · exact List.suffix_refl _
    · next digits rest' _ hspan =>
      have hsuffix := digitSpan_suffix rest
      rw [hspan] at hsuffix
      exact hsuffix.trans (List.suffix_cons _ _)
  · exact List.suffix_refl _

theorem exponentPart_suffix (cs : List Char) : (exponentPart cs).2 <:+ cs := by
  -- The digits of an exponent follow its letter, with a sign between them or not.
  have hdigits
      (before : List Char) {rest found rest' : List Char}
      (hcs : cs = before ++ rest) (hspan : digitSpan rest = (found, rest')) :
      rest' <:+ cs := by
    have hsuffix := digitSpan_suffix rest
    rw [hspan] at hsuffix
    rw [hcs]
    exact hsuffix.trans (List.suffix_append _ _)
  unfold exponentPart
  cases cs with
  | nil => exact List.suffix_refl _
  | cons e rest =>
      simp only
      split
      · split
        · split
          · exact List.suffix_refl _
          · next hspan => exact hdigits [e, '+'] rfl hspan
        · split
          · exact List.suffix_refl _
          · next hspan => exact hdigits [e, '-'] rfl hspan
        · split
          · exact List.suffix_refl _
          · next hspan => exact hdigits [e] rfl hspan
      · exact List.suffix_refl _

theorem answer_readNumber (digits : Nat) (negative : Bool) (cs : List Char) :
    Answer digits cs (readNumber digits negative cs) := by
  have happend := integerPart_append cs
  have hrest : (exponentPart (fractionPart (integerPart cs).2).2).2 <:+ cs := by
    refine ((exponentPart_suffix _).trans (fractionPart_suffix _)).trans ?_
    exact ⟨_, happend⟩
  unfold readNumber
  simp only
  split
  · split
    · next hlimit =>
      refine .tooManyDigits hlimit ⟨(integerPart cs).1, ?_, rfl, ?_⟩
      · exact List.IsPrefix.isInfix ⟨_, happend⟩
      · intro c hc
        exact isDigit_of_mem_integerPart hc
    · exact .ok _ hrest
  · exact .ok _ hrest

theorem afterWord?_suffix
    {word : String} {cs rest : List Char}
    (h : afterWord? word cs = some rest) : rest <:+ cs := by
  unfold afterWord? at h
  split at h
  · cases h
    exact List.drop_suffix _ _
  · cases h

theorem answer_readScalar (digits : Nat) (cs : List Char) :
    Answer digits cs (readScalar digits cs) := by
  unfold readScalar
  cases cs with
  | nil => exact .malformed _ _
  | cons c rest =>
      simp only
      split
      · exact answer_readNumber digits false (c :: rest)
      · split
        · cases rest with
          | nil => exact .malformed _ _
          | cons d rest =>
              simp only
              split
              · exact (answer_readNumber digits true (d :: rest)).of_suffix
                  (List.suffix_cons _ _)
              · split
                · next rest' hword =>
                  exact .ok _ ((afterWord?_suffix hword).trans (List.suffix_cons _ _))
                · exact .malformed _ _
        · split
          · next result hfound =>
            obtain ⟨entry, _, hentry⟩ := List.exists_of_findSome?_eq_some hfound
            obtain ⟨rest', hword, rfl⟩ := Option.map_eq_some_iff.mp hentry
            exact .ok _ (afterWord?_suffix hword)
          · exact .malformed _ _

/-! ## Values -/

/-- What holds of the three readers of values when they have the same fuel. -/
structure FuelAnswers (digits fuel : Nat) : Prop where
  value : ∀ depth cs, Answer digits cs (readValue digits fuel depth cs)
  items : ∀ depth done cs, Answer digits cs (readItems digits fuel depth done cs)
  members : ∀ depth done cs, Answer digits cs (readMembers digits fuel depth done cs)

section Step

variable {digits fuel : Nat}

theorem FuelAnswers.readValue_succ
    (h : FuelAnswers digits fuel) (depth : Nat) (cs : List Char) :
    Answer digits cs (readValue digits (fuel + 1) depth cs) := by
  rw [readValue.eq_def]
  cases cs with
  | nil => exact .malformed _ _
  | cons c rest =>
      have hblanks : skipBlanks rest <:+ c :: rest :=
        (skipBlanks_suffix rest).trans (List.suffix_cons c rest)
      simp only
      split
      · rcases (answer_readString digits (c :: rest) [] rest).ok_or_error with
          ⟨s, rest', hstring, hsuffix⟩ | ⟨fault, hstring, hfault⟩
        · rw [hstring]
          exact .ok _ (hsuffix.trans (List.suffix_cons _ _))
        · rw [hstring]
          exact hfault.of_suffix (List.suffix_cons _ _)
      split
      · cases depth with
        | zero => exact .tooDeep
        | succ depth =>
            simp only
            split
            · next rest' hclose =>
              exact .ok _ ((suffix_of_skipBlanks_eq_cons hclose).trans (List.suffix_cons _ _))
            · exact (h.items depth [] _).of_suffix hblanks
      split
      · cases depth with
        | zero => exact .tooDeep
        | succ depth =>
            simp only
            split
            · next rest' hclose =>
              exact .ok _ ((suffix_of_skipBlanks_eq_cons hclose).trans (List.suffix_cons _ _))
            · exact (h.members depth [] _).of_suffix hblanks
      · exact answer_readScalar digits (c :: rest)

theorem FuelAnswers.readItems_succ
    (h : FuelAnswers digits fuel) (depth : Nat) (done : List Value) (cs : List Char) :
    Answer digits cs (readItems digits (fuel + 1) depth done cs) := by
  rw [readItems.eq_def]
  simp only
  rcases (h.value depth cs).ok_or_error with
    ⟨v, rest, hvalue, hsuffix⟩ | ⟨fault, hvalue, hfault⟩
  · simp only [hvalue]
    split
    · next rest' hclose =>
      exact .ok _ ((suffix_of_skipBlanks_eq_cons hclose).trans hsuffix)
    · next rest' hcomma =>
      refine (h.items depth (v :: done) _).of_suffix ?_
      exact (skipBlanks_suffix rest').trans
        ((suffix_of_skipBlanks_eq_cons hcomma).trans hsuffix)
    · exact .malformed _ _
  · simp only [hvalue]
    exact hfault

theorem FuelAnswers.readMembers_succ
    (h : FuelAnswers digits fuel) (depth : Nat) (done : Fields) (cs : List Char) :
    Answer digits cs (readMembers digits (fuel + 1) depth done cs) := by
  rw [readMembers.eq_def]
  simp only
  split
  · next text =>
    have hquote : text <:+ '\x22' :: text := List.suffix_cons _ _
    rcases (answer_readString digits ('\x22' :: text) [] text).ok_or_error with
      ⟨name, rest, hname, hrest⟩ | ⟨fault, hname, hfault⟩
    · simp only [hname]
      split
      · next afterColon hcolon =>
        have hcolonSuffix : skipBlanks afterColon <:+ '\x22' :: text :=
          (skipBlanks_suffix afterColon).trans
            ((suffix_of_skipBlanks_eq_cons hcolon).trans (hrest.trans hquote))
        rcases ((h.value depth (skipBlanks afterColon)).of_suffix hcolonSuffix).ok_or_error with
          ⟨v, rest', hvalue, hsuffix⟩ | ⟨fault, hvalue, hfault⟩
        · simp only [hvalue]
          split
          · next rest'' hclose =>
            exact .ok _ ((suffix_of_skipBlanks_eq_cons hclose).trans hsuffix)
          · next rest'' hcomma =>
            refine (h.members depth _ _).of_suffix ?_
            exact (skipBlanks_suffix rest'').trans
              ((suffix_of_skipBlanks_eq_cons hcomma).trans hsuffix)
          · exact .malformed _ _
        · simp only [hvalue]
          exact hfault
      · exact .malformed _ _
    · simp only [hname]
      exact hfault.of_suffix hquote
  · exact .malformed _ _

end Step

theorem fuelAnswers (digits fuel : Nat) : FuelAnswers digits fuel := by
  induction fuel with
  | zero =>
      refine ⟨?_, ?_, ?_⟩
      · intro depth cs
        rw [readValue.eq_def]
        exact .malformed _ _
      · intro depth done cs
        rw [readItems.eq_def]
        exact .malformed _ _
      · intro depth done cs
        rw [readMembers.eq_def]
        exact .malformed _ _
  | succ fuel ih => exact ⟨ih.readValue_succ, ih.readItems_succ, ih.readMembers_succ⟩

/-- An integer that is refused for its digits stands in the text. -/
theorem hasRun_of_read_tooManyDigits
    {depth digits count : Nat} {cs : List Char}
    (h : read depth digits cs = .error (.tooManyDigits count)) :
    digits < count ∧ HasRun count cs := by
  unfold read at h
  split at h
  · cases h
  · have hanswer := (fuelAnswers digits (2 * cs.length + 2)).value depth (skipBlanks cs)
    split at h
    · next fault hvalue =>
      cases h
      rw [hvalue] at hanswer
      cases hanswer with
      | tooManyDigits hlimit hrun => exact ⟨hlimit, hrun.of_suffix (skipBlanks_suffix cs)⟩
    · split at h <;> cases h

end TreeLint.Json
