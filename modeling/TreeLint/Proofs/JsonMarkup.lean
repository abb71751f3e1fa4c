import TreeLint.Json.Markup
import TreeLint.Proofs.JsonScalars

/-!
# Escaping in one pass and in two

The pass that makes a text safe finds its string tokens again, although it does
not know the document.  Whatever a string holds, runs of backslashes and quotes
included, what is written for it has the form of a token body, and such a body
ends at the first quote that no backslash takes along.  So the pass sees the
strings of the document, one by one, and the outcome is what a writer would give
that escapes the unsafe characters right away.
-/

namespace TreeLint.Text.Hex

theorem length_digits (capital : Bool) (width n : Nat) :
    (digits capital width n).length = width := by
  induction width generalizing n with
  | zero => rfl
  | succ width ih => rw [digits, List.length_append, ih, List.length_singleton]

theorem exists_of_mem_digits
    {capital : Bool} {width n : Nat} {c : Char} (hc : c ∈ digits capital width n) :
    ∃ d < 16, c = digit capital d := by
  induction width generalizing n with
  | zero => cases hc
  | succ width ih =>
      rw [digits, List.mem_append, List.mem_singleton] at hc
      rcases hc with hc | hc
      · exact ih hc
      · exact ⟨n % 16, Nat.mod_lt n (by omega), hc⟩

end TreeLint.Text.Hex

namespace TreeLint.Json

/-- The quotes, the angle brackets and the ampersand are escaped right away. -/
def Style.embeddable (spread : Spread) : Style :=
  ⟨spread, ['<', '>', '&', '\x27', '\x22']⟩

/-- ASCII that can stand inside markup and inside a quoted text. -/
def IsMark (c : Char) : Prop := c.toNat < 0x80 ∧ c ∉ ['<', '>', '&', '\x27', '\x22']

instance (c : Char) : Decidable (IsMark c) := inferInstanceAs (Decidable (_ ∧ _))

def AllMarks (text : List Char) : Prop := ∀ c ∈ text, IsMark c

instance (text : List Char) : Decidable (AllMarks text) := List.decidableBAll IsMark text

theorem isMark_digit :
    ∀ capital, ∀ d < 16,
      IsMark (Text.Hex.digit capital d) ∧ Text.Hex.digit capital d ≠ '\\' := by
  decide

/-! ## String tokens -/

/-- What can stand between the quotes of a string token. -/
inductive StringBody : List Char → Prop where
  | nil : StringBody []
  | ordinary {c : Char} {rest : List Char}
      (hquote : c ≠ '\x22') (hslash : c ≠ '\\') (hprint : 0x20 ≤ c.toNat)
      (hrest : StringBody rest) :
      StringBody (c :: rest)
  | simple {e : Char} {rest : List Char}
      (hescape : (simpleEscape? e).isSome = true)
      (hrest : StringBody rest) :
      StringBody ('\\' :: e :: rest)
  | unit {digits rest : List Char}
      (hlength : digits.length = 4)
      (hdigits : ∀ c ∈ digits, (Text.Hex.value? c).isSome = true)
      (hrest : StringBody rest) :
      StringBody ('\\' :: 'u' :: (digits ++ rest))

theorem StringBody.unicodeEscape
    {rest : List Char} (capital : Bool) (code : Nat) (hrest : StringBody rest) :
    StringBody (unicodeEscape capital code ++ rest) := by
  refine .unit (Text.Hex.length_digits capital 4 code) (fun c hc => ?_) hrest
  obtain ⟨d, hd, rfl⟩ := Text.Hex.exists_of_mem_digits hc
  rw [Text.Hex.value?_digit capital hd]
  rfl

theorem StringBody.escape
    {rest : List Char} (style : Style) (c : Char) (hrest : StringBody rest) :
    StringBody (style.escape c ++ rest) := by
  have hescaped := style.escaped_escape c
  generalize style.escape c = text at hescaped
  cases hescaped with
  | simple e hguard hread =>
      refine .simple ?_ hrest
      rw [hread]
      rfl
  | unit capital hcode => exact hrest.unicodeEscape capital c.toNat
  | ordinary hguard hquote hslash hprint => exact .ordinary hquote hslash hprint.1 hrest
  | pair hcode =>
      rw [List.append_assoc]
      exact (hrest.unicodeEscape false _).unicodeEscape false _

theorem stringBody_flatMap_escape (style : Style) (text : List Char) :
    StringBody (text.flatMap style.escape) := by
  induction text with
  | nil => exact .nil
  | cons c text ih =>
      rw [List.flatMap_cons]
      exact ih.escape style c

namespace Markup

/-! ## Finding a token again -/

theorem token?_quote (rest : List Char) : token? ('\x22' :: rest) = some ([], rest) := by
  rw [token?.eq_def]
  exact if_pos rfl

theorem token?_ordinary
    {c : Char} (rest : List Char) (hquote : c ≠ '\x22') (hslash : c ≠ '\\') :
    token? (c :: rest) =
      (token? rest).map fun (inner, after) => (c :: inner, after) := by
  rw [token?.eq_def]
  simp only [if_neg hquote, if_neg hslash]

theorem token?_slash
    {e : Char} (rest : List Char) (hbreak : e ≠ '\n') :
    token? ('\\' :: e :: rest) =
      (token? rest).map fun (inner, after) => ('\\' :: e :: inner, after) := by
  rw [token?.eq_def]
  simp only [if_neg hbreak, if_true]
  rfl

theorem token?_append
    {text : List Char} (rest : List Char)
    (htext : ∀ c ∈ text, c ≠ '\x22' ∧ c ≠ '\\') :
    token? (text ++ rest) =
      (token? rest).map fun (inner, after) => (text ++ inner, after) := by
  induction text with
  | nil => exact Option.map_id'.symm
  | cons c text ih =>
      have hc := htext c List.mem_cons_self
      rw [List.cons_append, token?_ordinary _ hc.1 hc.2,
        ih fun d hd => htext d (List.mem_cons_of_mem c hd), Option.map_map]
      rfl

/-- A token ends with the quote after its body. -/
theorem token?_of_stringBody
    {inner : List Char} (hinner : StringBody inner) (after : List Char) :
    token? (inner ++ '\x22' :: after) = some (inner, after) := by
  induction hinner with
  | nil => exact token?_quote after
  | ordinary hquote hslash hprint hrest ih =>
      rw [List.cons_append, token?_ordinary _ hquote hslash, ih]
      rfl
  | @simple e rest hescape hrest ih =>
      have hbreak : e ≠ '\n' := by
        rintro rfl
        cases hescape
      rw [List.cons_append, List.cons_append, token?_slash _ hbreak, ih]
      rfl
  | @unit digits rest hlength hdigits hrest ih =>
      have hplain : ∀ c ∈ digits, c ≠ '\x22' ∧ c ≠ '\\' := by
        intro c hc
        have hdigit := hdigits c hc
        refine ⟨?_, ?_⟩ <;>
        · rintro rfl
          cases hdigit
      rw [List.cons_append, List.cons_append, token?_slash _ (by decide), List.append_assoc,
        token?_append _ hplain, ih]
      rfl

/-! ## Inside a token -/

theorem replace_of_not_key
    {piece : List Char} (h : ∀ entry ∈ replacements, piece ≠ entry.1) : replace piece = piece := by
  have hnone : replacements.lookup piece = none := by
    rw [List.lookup_eq_none_iff]
    intro entry hentry
    simpa using h entry hentry
  rw [replace, hnone]
  rfl

theorem replace_of_isMark {c : Char} (hc : IsMark c) : replace [c] = [c] := by
  have hfree := hc.2
  simp only [List.mem_cons, List.not_mem_nil, or_false, not_or] at hfree
  apply replace_of_not_key
  simp [replacements, hfree]

theorem replace_slash {e : Char} (he : e ≠ '\x22') : replace ['\\', e] = ['\\', e] := by
  apply replace_of_not_key
  simp [replacements, he]

theorem body_ordinary
    {c : Char} (rest : List Char) (hslash : c ≠ '\\') :
    body (c :: rest) = replace [c] ++ body rest := by
  rw [body.eq_def]
  simp only [if_neg hslash]

theorem body_slash
    {e : Char} (rest : List Char) (hbreak : e ≠ '\n') :
    body ('\\' :: e :: rest) = replace ['\\', e] ++ body rest := by
  rw [body.eq_def]
  simp only [if_neg hbreak, if_true]

theorem body_unicodeEscape (capital : Bool) (code : Nat) (rest : List Char) :
    body (unicodeEscape capital code ++ rest) = unicodeEscape capital code ++ body rest := by
  have hdigits : ∀ digits : List Char, (∀ c ∈ digits, ∃ d < 16, c = Text.Hex.digit capital d) →
      body (digits ++ rest) = digits ++ body rest := by
    intro digits hdigits
    induction digits with
    | nil => rfl
    | cons c digits ih =>
        obtain ⟨d, hd, rfl⟩ := hdigits c List.mem_cons_self
        obtain ⟨hmark, hslash⟩ := isMark_digit capital d hd
        rw [List.cons_append, body_ordinary _ hslash, replace_of_isMark hmark,
          ih fun c hc => hdigits c (List.mem_cons_of_mem _ hc)]
        rfl
  unfold unicodeEscape
  rw [List.cons_append, List.cons_append, body_slash _ (by decide), replace_slash (by decide),
    hdigits _ fun c hc => Text.Hex.exists_of_mem_digits hc]
  rfl

theorem body_escape (spread : Spread) (c : Char) (rest : List Char) :
    body ((Style.bare spread).escape c ++ rest) =
      (Style.embeddable spread).escape c ++ body rest := by
  by_cases hguard : c ∈ ['<', '>', '&', '\x27', '\x22']
  · simp only [List.mem_cons, List.not_mem_nil, or_false] at hguard
    -- The five characters that the table of replacements is about.
    rcases hguard with rfl | rfl | rfl | rfl | rfl
    · exact body_ordinary rest (by decide)
    · exact body_ordinary rest (by decide)
    · exact body_ordinary rest (by decide)
    · exact body_ordinary rest (by decide)
    · exact body_slash rest (by decide)
  · have hsame : (Style.embeddable spread).escape c = (Style.bare spread).escape c := by
      have hcontains : (Style.embeddable spread).guarded.contains c = false := by
        rw [Bool.eq_false_iff]
        exact fun h => hguard (List.contains_iff_mem.mp h)
      unfold Style.escape
      rw [hcontains]
      rfl
    rw [hsame]
    -- What is written for any other character passes unchanged.
    have hescaped := (Style.bare spread).escaped_escape c
    generalize (Style.bare spread).escape c = text at hescaped
    cases hescaped with
    | simple e _ hread =>
        have hquote : e ≠ '\x22' := by
          rintro rfl
          cases hread
          exact hguard (by decide)
        have hbreak : e ≠ '\n' := by
          rintro rfl
          cases hread
        rw [List.cons_append, List.cons_append, body_slash _ hbreak, replace_slash hquote]
        rfl
    | unit capital hcode => exact body_unicodeEscape capital c.toNat rest
    | ordinary hfree hquote hslash hprint =>
        rw [List.cons_append, body_ordinary _ hslash, replace_of_isMark ⟨by omega, hguard⟩]
        rfl
    | pair hcode =>
        rw [List.append_assoc, body_unicodeEscape, body_unicodeEscape, List.append_assoc]

end Markup

/-! ## Documents under both styles -/

/-- Two texts with the same marks and strings, the first with the least escaping and the second with
the unsafe characters escaped. -/
inductive Parallel (spread : Spread) : List Char → List Char → Prop where
  | nil : Parallel spread [] []
  | mark {c : Char} {text text' : List Char} (hc : IsMark c)
      (hrest : Parallel spread text text') :
      Parallel spread (c :: text) (c :: text')
  | string (s : String) {text text' : List Char}
      (hrest : Parallel spread text text') :
      Parallel spread ((Style.bare spread).string s ++ text)
        ((Style.embeddable spread).string s ++ text')

namespace Parallel

variable {spread : Spread}

theorem append
    {text text' more more' : List Char}
    (h : Parallel spread text text') (hmore : Parallel spread more more') :
    Parallel spread (text ++ more) (text' ++ more') := by
  induction h with
  | nil => exact hmore
  | mark hc hrest ih => exact .mark hc ih
  | string s hrest ih =>
      rw [List.append_assoc, List.append_assoc]
      exact .string s ih

theorem marks {text : List Char} (htext : AllMarks text) :
    Parallel spread text text := by
  induction text with
  | nil => exact .nil
  | cons c text ih =>
      exact .mark (htext c List.mem_cons_self) (ih fun d hd => htext d (List.mem_cons_of_mem c hd))

theorem ofString (s : String) :
    Parallel spread ((Style.bare spread).string s) ((Style.embeddable spread).string s) := by
  have h : Parallel spread ((Style.bare spread).string s ++ [])
      ((Style.embeddable spread).string s ++ []) := .string s .nil
  rw [List.append_nil, List.append_nil] at h
  exact h

theorem newline (level : Nat) :
    Parallel spread ((Style.bare spread).newline level)
      ((Style.embeddable spread).newline level) := by
  cases spread with
  | oneLine => exact .nil
  | lines indent =>
      refine .mark (by decide) (marks fun c hc => ?_)
      rw [List.eq_of_mem_replicate hc]
      decide

theorem separator (level : Nat) :
    Parallel spread ((Style.bare spread).separator level)
      ((Style.embeddable spread).separator level) := by
  cases spread with
  | oneLine => exact .mark (by decide) (.mark (by decide) .nil)
  | lines indent => exact .mark (by decide) (newline level)

end Parallel

/-! ## Numbers -/

theorem isMark_of_isDigit {c : Char} (hc : c.isDigit = true) : IsMark c := by
  have hrange : 0x30 ≤ c.toNat ∧ c.toNat ≤ 0x39 := by
    simp only [Char.isDigit, Bool.and_eq_true, decide_eq_true_eq, ge_iff_le,
      UInt32.le_iff_toNat_le] at hc
    exact hc
  refine ⟨by omega, ?_⟩
  simp only [List.mem_cons, List.not_mem_nil, or_false, not_or]
  refine ⟨?_, ?_, ?_, ?_, ?_⟩ <;>
  · rintro rfl
    exact absurd hc (by decide)

theorem allMarks_toDigits (n : Nat) : AllMarks (Nat.toDigits 10 n) :=
  fun _ hc => isMark_of_isDigit (Nat.isDigit_of_mem_toDigits (by decide) (by decide) hc)

theorem allMarks_toString (n : Int) : AllMarks (toString n).toList := by
  rcases Int.lt_or_le n 0 with hneg | hnonneg
  · rw [toList_toString_of_neg hneg]
    exact List.forall_mem_cons.mpr ⟨by decide, allMarks_toDigits n.natAbs⟩
  · rw [toList_toString_of_nonneg hnonneg]
    exact allMarks_toDigits n.natAbs

theorem allMarks_append
    {text more : String} (h : AllMarks text.toList) (hmore : AllMarks more.toList) :
    AllMarks (text ++ more).toList := by
  intro c hc
  rw [String.toList_append, List.mem_append] at hc
  exact hc.elim (h c) (hmore c)

theorem allMarks_ofList {text : List Char} (h : AllMarks text) :
    AllMarks (String.ofList text).toList := by
  rw [String.toList_ofList]
  exact h

theorem allMarks_zeros (n : Nat) : AllMarks (Decimal.zeros n).toList := by
  apply allMarks_ofList
  intro c hc
  rw [List.eq_of_mem_replicate hc]
  decide

theorem allMarks_exponentText (layout : Decimal.Layout) (e : Int) :
    AllMarks (Decimal.exponentText layout e).toList := by
  have hsign : AllMarks (if e < 0 then "e-" else "e+").toList := by
    split <;> decide
  have hdigits : AllMarks (toString e.natAbs).toList := allMarks_toString e.natAbs
  exact allMarks_append (allMarks_append hsign (allMarks_zeros _)) hdigits

theorem allMarks_write (layout : Decimal.Layout) (s : Decimal.Scientific) :
    AllMarks (layout.write s).toList := by
  have hmarks := allMarks_toDigits s.digits
  unfold Decimal.Layout.write
  generalize Nat.toDigits 10 s.digits = digits at hmarks
  have hdigits := allMarks_ofList hmarks
  dsimp only
  split
  · refine allMarks_append ?_ (allMarks_exponentText layout _)
    split
    · decide
    · exact hdigits
    · obtain ⟨hfirst, hrest⟩ := List.forall_mem_cons.mp hmarks
      exact allMarks_ofList (List.forall_mem_cons.mpr
        ⟨hfirst, List.forall_mem_cons.mpr ⟨by decide, hrest⟩⟩)
  · split
    · exact allMarks_append (allMarks_append hdigits (allMarks_zeros _)) (by decide)
    · split
      · refine allMarks_append (allMarks_append ?_ (by decide)) ?_
        · exact allMarks_ofList fun c hc => hmarks c (List.mem_of_mem_take hc)
        · exact allMarks_ofList fun c hc => hmarks c (List.mem_of_mem_drop hc)
      · exact allMarks_append (allMarks_append (by decide) (allMarks_zeros _)) hdigits

theorem allMarks_floatText (x : Binary64) : AllMarks (floatText x).toList := by
  unfold floatText
  split
  · decide
  · split <;> decide
  · unfold Binary64.text
    split
    · decide
    · split <;> decide
    · next negative m e _ _ =>
      have hsign : AllMarks (if negative then "-" else "").toList := by
        split <;> decide
      exact allMarks_append hsign (allMarks_write _ _)

/-! ## Whole documents -/

mutual

theorem parallel_value (spread : Spread) (level : Nat) :
    (v : Value) → Parallel spread ((Style.bare spread).layout level v)
      ((Style.embeddable spread).layout level v)
  | .null => .marks (show AllMarks "null".toList by decide)
  | .bool true => .marks (show AllMarks "true".toList by decide)
  | .bool false => .marks (show AllMarks "false".toList by decide)
  | .int n => .marks (allMarks_toString n)
  | .float x => .marks (allMarks_floatText x)
  | .str s => .ofString s
  | .moment m => .ofString m.text
  | .list [] => .marks (show AllMarks ['[', ']'] by decide)
  | .list (v :: rest) => by
      have hbegin : Parallel spread ('[' :: (Style.bare spread).newline (level + 1))
          ('[' :: (Style.embeddable spread).newline (level + 1)) :=
        .mark (by decide) (.newline (level + 1))
      have hend : Parallel spread [']'] [']'] := .marks (by decide)
      exact (((hbegin.append (parallel_value spread (level + 1) v)).append
        (parallel_items spread (level + 1) rest)).append (.newline level)).append hend
  | .table [] => .marks (show AllMarks ['\x7b', '\x7d'] by decide)
  | .table ((name, v) :: rest) => by
      have hbegin : Parallel spread ('\x7b' :: (Style.bare spread).newline (level + 1))
          ('\x7b' :: (Style.embeddable spread).newline (level + 1)) :=
        .mark (by decide) (.newline (level + 1))
      have hcolon : Parallel spread [':', ' '] [':', ' '] := .marks (by decide)
      have hend : Parallel spread ['\x7d'] ['\x7d'] := .marks (by decide)
      exact (((((hbegin.append (.ofString name)).append hcolon).append
        (parallel_value spread (level + 1) v)).append
        (parallel_members spread (level + 1) rest)).append (.newline level)).append hend

theorem parallel_items (spread : Spread) (level : Nat) :
    (items : List Value) → Parallel spread ((Style.bare spread).layoutItems level items)
      ((Style.embeddable spread).layoutItems level items)
  | [] => .nil
  | v :: rest =>
    ((Parallel.separator level).append (parallel_value spread level v)).append
      (parallel_items spread level rest)

theorem parallel_members (spread : Spread) (level : Nat) :
    (fields : List (String × Value)) → Parallel spread ((Style.bare spread).layoutMembers level fields)
      ((Style.embeddable spread).layoutMembers level fields)
  | [] => .nil
  | (name, v) :: rest =>
    ((((Parallel.separator level).append (.ofString name)).append (.marks (by decide))).append
      (parallel_value spread level v)).append (parallel_members spread level rest)

end

namespace Markup

theorem escape_cons {c : Char} (rest : List Char) (hc : c ≠ '\x22') :
    escape (c :: rest) = c :: escape rest := by
  rw [escape.eq_def]
  exact if_neg hc

theorem escape_token
    {inner : List Char} (hinner : StringBody inner) (after : List Char) :
    escape ('\x22' :: (inner ++ '\x22' :: after)) =
      '\x22' :: body inner ++ '\x22' :: escape after := by
  have htoken := token?_of_stringBody hinner after
  rw [escape.eq_def]
  simp only [if_true]
  split
  · next inner' after' hsome =>
    rw [htoken] at hsome
    cases hsome
    rfl
  · next hnone =>
    rw [htoken] at hnone
    cases hnone

theorem body_flatMap_escape (spread : Spread) (text : List Char) :
    body (text.flatMap (Style.bare spread).escape) =
      text.flatMap (Style.embeddable spread).escape := by
  induction text with
  | nil => rfl
  | cons c text ih => rw [List.flatMap_cons, List.flatMap_cons, body_escape, ih]

/-- The pass goes from mark to mark and from string to string. -/
theorem escape_of_parallel
    {spread : Spread} {text text' : List Char} (h : Parallel spread text text') :
    escape text = text' := by
  induction h with
  | nil => rw [escape.eq_def]
  | @mark c text text' hc hrest ih =>
      have hquote : c ≠ '\x22' := by
        rintro rfl
        exact absurd hc (by decide)
      rw [escape_cons _ hquote, ih]
  | string s hrest ih =>
      have hinner := stringBody_flatMap_escape (Style.bare spread) s.toList
      rw [Style.string_append, Style.string_append, escape_token hinner, body_flatMap_escape, ih]
      rfl

/-- Making a written document safe is writing it safely. -/
theorem escape_value (spread : Spread) (level : Nat) (v : Value) :
    escape ((Style.bare spread).layout level v) = (Style.embeddable spread).layout level v :=
  escape_of_parallel (parallel_value spread level v)

end Markup

end TreeLint.Json
