import Mathlib.Data.List.Forall2
import Mathlib.Data.List.TakeWhile
import TreeLint.Directive

/-!
# Directives and the gaps between them

A directive has one written form, `Piece`, and `Decomposes` cuts a text into such
pieces and the gaps around them.  What makes a cut the right one is that no gap
has the beginning of a directive in it, even of one that would run on into what
follows the gap.  The search from left to right finds this cut: it passes over a
gap without an answer and over a piece with one, wherever they stand.
-/

namespace TreeLint

/-! ## Trimmed texts -/

namespace Text

/-- `core` is `whole` without a left and a right end that satisfy `p`, and no end can be longer. -/
def Trims (p : Char → Bool) (whole core : List Char) : Prop :=
  ∃ left right, whole = left ++ (core ++ right) ∧
    (∀ c ∈ left, p c = true) ∧ (∀ c ∈ right, p c = true) ∧
    (∀ c, core.head? = some c → p c = false) ∧
    ∀ c, core.getLast? = some c → p c = false

variable {p : Char → Bool}

/-- A run of characters of one class ends where a character of another one follows. -/
theorem run_append
    {front : List Char} (rest : List Char)
    (hfront : ∀ c ∈ front, p c = true)
    (hrest : ∀ c, rest.head? = some c → p c = false) :
    (front ++ rest).takeWhile p = front ∧ (front ++ rest).dropWhile p = rest := by
  rw [List.takeWhile_append_of_pos hfront, List.dropWhile_append_of_pos hfront]
  cases rest with
  | nil => simp
  | cons c rest => simp [hrest c rfl]

theorem head?_dropWhile
    {text : List Char} {c : Char} (h : (text.dropWhile p).head? = some c) :
    p c = false := by
  have hnot := List.head?_dropWhile_not p text
  simpa [h] using hnot

theorem trims_trim (p : Char → Bool) (whole : List Char) :
    Trims p whole (trim p whole) := by
  have hfront : whole.takeWhile p ++ whole.dropWhile p = whole :=
    List.takeWhile_append_dropWhile
  have hback : trim p whole ++ ((whole.dropWhile p).reverse.takeWhile p).reverse =
      whole.dropWhile p := by
    rw [trim, ← List.reverse_append, List.takeWhile_append_dropWhile, List.reverse_reverse]
  refine ⟨whole.takeWhile p, ((whole.dropWhile p).reverse.takeWhile p).reverse, ?_, ?_, ?_, ?_, ?_⟩
  · rw [hback, hfront]
  · intro c hc
    exact List.mem_takeWhile_imp hc
  · intro c hc
    exact List.mem_takeWhile_imp (List.mem_reverse.mp hc)
  · intro c hc
    have hhead : (whole.dropWhile p).head? = some c := by
      rw [← hback, List.head?_append, hc]
      rfl
    exact head?_dropWhile hhead
  · intro c hc
    rw [trim, List.getLast?_reverse] at hc
    exact head?_dropWhile hc

theorem Trims.trim_eq
    {whole core : List Char} (h : Trims p whole core) : trim p whole = core := by
  obtain ⟨left, right, rfl, hleft, hright, hhead, hlast⟩ := h
  cases core with
  | nil =>
      have hall : ∀ c ∈ left ++ right, p c = true := by
        simpa [or_imp, forall_and] using ⟨hleft, hright⟩
      have hnil : (left ++ ([] ++ right)).dropWhile p = [] := by
        rw [List.nil_append]
        exact List.dropWhile_eq_nil_iff.mpr hall
      rw [trim, hnil]
      rfl
  | cons c core =>
      have hdrop : (left ++ (c :: core ++ right)).dropWhile p = c :: core ++ right :=
        (run_append _ hleft (by simpa using hhead)).2
      have hreverse : (right.reverse ++ (c :: core).reverse).dropWhile p = (c :: core).reverse := by
        refine (run_append _ ?_ ?_).2
        · simpa using hright
        · intro d hd
          rw [List.head?_reverse] at hd
          exact hlast d hd
      rw [trim, hdrop, List.reverse_append, hreverse, List.reverse_reverse]

theorem trims_iff
    {whole core : List Char} : Trims p whole core ↔ trim p whole = core := by
  constructor
  · exact Trims.trim_eq
  · intro heq
    rw [← heq]
    exact trims_trim p whole

end Text

namespace Directive

/-! ## The form of a directive -/

def IsDigit (c : Char) : Prop := '0' ≤ c ∧ c ≤ '9'

/-- An ASCII letter, or one of the four other characters that become one when case is ignored. -/
def IsLetter (c : Char) : Prop :=
  ('a' ≤ c ∧ c ≤ 'z') ∨ ('A' ≤ c ∧ c ≤ 'Z') ∨
    c ∈ ['\u017F', '\u212A', '\u0130', '\u0131']

def IsNameChar (c : Char) : Prop := IsLetter c ∨ IsDigit c ∨ c = '_'

/-- A directive as it is written. -/
structure Piece where
  name : List Char
  value : List Char
  two_le : 2 ≤ name.length
  chars : ∀ c ∈ name, IsNameChar c
  start : ∀ c, name.head? = some c → ¬ IsDigit c
  value_ne : value ≠ []
  unclosed : ')' ∉ value

def Piece.text (piece : Piece) : List Char :=
  '@' :: (piece.name ++ '(' :: (piece.value ++ [')']))

/-- The directive that is read from a piece: its name, and its value without the spaces and double
quotes around it. -/
def Piece.Denotes (piece : Piece) (directive : Directive) : Prop :=
  directive.name = String.ofList piece.name ∧
    Text.Trims (fun c => c == '\x22' || c == ' ') piece.value directive.value.toList

def StartsDirective (text : List Char) : Prop := ∃ piece : Piece, piece.text <+: text

/-- No directive begins inside of `gap` when the text goes on with `rest`. -/
def Clear (gap rest : List Char) : Prop :=
  ∀ front back, gap = front ++ back → back ≠ [] → ¬ StartsDirective (back ++ rest)

/-- A text is cut into gaps and pieces, from the first gap to the last one. -/
inductive Decomposes : List Char → List Piece → Prop where
  | last {gap : List Char} (hclear : Clear gap []) : Decomposes gap []
  | next {gap rest : List Char} {piece : Piece} {pieces : List Piece}
      (hclear : Clear gap (piece.text ++ rest)) (hrest : Decomposes rest pieces) :
      Decomposes (gap ++ (piece.text ++ rest)) (piece :: pieces)

/-! ## Reading one piece -/

theorem fold_eq_toLower
    {c : Char} (h : c ∉ ['\u017F', '\u212A', '\u0130', '\u0131']) :
    Text.fold c = c.toLower := by
  have hne {n : Nat} (hn : Char.ofNat n ∈ ['\u017F', '\u212A', '\u0130', '\u0131']) :
      c.toNat ≠ n := by
    intro heq
    rw [← heq, Char.ofNat_toNat] at hn
    exact h hn
  unfold Text.fold
  split
  · next heq => exact absurd heq (hne (by decide))
  · next heq => exact absurd heq (hne (by decide))
  · next heq => exact absurd heq (hne (by decide))
  · next heq => exact absurd heq (hne (by decide))
  · rfl

theorem isLower_toLower_iff
    {c : Char} :
    c.toLower.isLower = true ↔ ('a' ≤ c ∧ c ≤ 'z') ∨ ('A' ≤ c ∧ c ≤ 'Z') := by
  delta Char.toLower Char.isLower
  simp only [ge_iff_le, Bool.and_eq_true, decide_eq_true_eq, Char.le_def]
  split
  · next h => grind
  · next h => grind

theorem isLetter_iff {c : Char} : Text.isLetter c = true ↔ IsLetter c := by
  unfold Text.isLetter IsLetter
  by_cases h : c ∈ ['\u017F', '\u212A', '\u0130', '\u0131']
  · have hlower : (Text.fold c).isLower = true := by
      simp only [List.mem_cons, List.not_mem_nil, or_false] at h
      rcases h with rfl | rfl | rfl | rfl <;> decide
    simp [hlower, h]
  · rw [fold_eq_toLower h, isLower_toLower_iff, or_iff_left h]

theorem isDigit_iff {c : Char} : c.isDigit = true ↔ IsDigit c := by
  simp [Char.isDigit, IsDigit, Char.le_def]

theorem isNameStart_iff
    {c : Char} : Text.isNameStart c = true ↔ IsNameChar c ∧ ¬ IsDigit c := by
  have hother : IsLetter c ∨ c = '_' → ¬ IsDigit c := by
    unfold IsLetter IsDigit
    simp only [List.mem_cons, List.not_mem_nil, or_false]
    rintro ((hsmall | hcapital | rfl | rfl | rfl | rfl) | rfl)
    · simp only [Char.le_def] at hsmall ⊢
      grind
    · simp only [Char.le_def] at hcapital ⊢
      grind
    all_goals decide
  simp only [Text.isNameStart, IsNameChar, Bool.or_eq_true, beq_iff_eq, isLetter_iff]
  tauto

theorem isNameChar_iff {c : Char} : Text.isNameChar c = true ↔ IsNameChar c := by
  simp only [Text.isNameChar, Text.isNameStart, IsNameChar, Bool.or_eq_true, beq_iff_eq,
    isLetter_iff, isDigit_iff]
  tauto

theorem readValue?_eq_some_iff
    {text value rest : List Char} :
    readValue? text = some (value, rest) ↔
      text = value ++ ')' :: rest ∧ value ≠ [] ∧ ')' ∉ value := by
  constructor
  · intro h
    unfold readValue? at h
    split at h
    · next v vs rest' htake hdrop =>
      cases h
      refine ⟨?_, by simp, ?_⟩
      · rw [← htake, ← hdrop, List.takeWhile_append_dropWhile]
      · intro hmem
        rw [← htake] at hmem
        simpa using List.mem_takeWhile_imp hmem
    · cases h
  · rintro ⟨rfl, hne, hunclosed⟩
    have hopen : ∀ c ∈ value, (c != ')') = true := by
      intro c hc
      simpa using fun heq : c = ')' => hunclosed (heq ▸ hc)
    obtain ⟨htake, hdrop⟩ := Text.run_append (')' :: rest) hopen (by simp)
    obtain ⟨v, vs, rfl⟩ := List.exists_cons_of_ne_nil hne
    unfold readValue?
    simp only [htake, hdrop]

theorem afterAt?_of_piece (piece : Piece) (rest : List Char) :
    afterAt? (piece.name ++ '(' :: (piece.value ++ ')' :: rest)) =
      some (make piece.name piece.value, rest) := by
  obtain ⟨htake, hdrop⟩ := Text.run_append ('(' :: (piece.value ++ ')' :: rest))
    (fun c hc => isNameChar_iff.mpr (piece.chars c hc)) (by simp; decide)
  have hvalue : readValue? (piece.value ++ ')' :: rest) = some (piece.value, rest) :=
    readValue?_eq_some_iff.mpr ⟨rfl, piece.value_ne, piece.unclosed⟩
  unfold afterAt?
  simp only [htake, hdrop]
  match hname : piece.name with
  | [] => simpa [hname] using piece.two_le
  | [_] => simpa [hname] using piece.two_le
  | first :: second :: more =>
      have hchar : IsNameChar first := piece.chars first (by simp [hname])
      have hnodigit : ¬ IsDigit first := piece.start first (by simp [hname])
      have hstart : Text.isNameStart first = true := isNameStart_iff.mpr ⟨hchar, hnodigit⟩
      simp [hstart, hvalue]

theorem exists_piece_of_afterAt?
    {text rest : List Char} {directive : Directive}
    (h : afterAt? text = some (directive, rest)) :
    ∃ piece : Piece, '@' :: text = piece.text ++ rest ∧
      directive = make piece.name piece.value := by
  unfold afterAt? at h
  split at h
  · next first second more tail htake hdrop =>
    split at h
    · next hstart =>
      obtain ⟨⟨value, rest'⟩, hread, heq⟩ := Option.map_eq_some_iff.mp h
      cases heq
      obtain ⟨rfl, hne, hunclosed⟩ := readValue?_eq_some_iff.mp hread
      have hchars : ∀ c ∈ first :: second :: more, IsNameChar c := by
        intro c hc
        rw [← htake] at hc
        exact isNameChar_iff.mp (List.mem_takeWhile_imp hc)
      have htext : text = first :: second :: more ++ '(' :: (value ++ ')' :: rest) := by
        rw [← htake, ← hdrop, List.takeWhile_append_dropWhile]
      refine ⟨⟨first :: second :: more, value, by simp, hchars, ?_, hne, hunclosed⟩, ?_, rfl⟩
      · simpa using (isNameStart_iff.mp hstart).2
      · simp [Piece.text, htext]
    · cases h
  · cases h

theorem denotes_iff
    {piece : Piece} {directive : Directive} :
    piece.Denotes directive ↔ directive = make piece.name piece.value := by
  obtain ⟨name, value⟩ := directive
  have hlist (core : List Char) : value = String.ofList core ↔ core = value.toList := by
    rw [← String.toList_inj, String.toList_ofList, eq_comm]
  simp only [Piece.Denotes, Text.trims_iff, make, mk.injEq, hlist]
  rfl

/-! ## The search -/

theorem scan_piece (piece : Piece) (rest : List Char) :
    scan (piece.text ++ rest) = make piece.name piece.value :: scan rest := by
  have htext : piece.text ++ rest = '@' :: (piece.name ++ '(' :: (piece.value ++ ')' :: rest)) := by
    simp [Piece.text]
  rw [htext, scan.eq_def]
  simp only [if_true]
  split
  · next directive rest' hread =>
    rw [afterAt?_of_piece] at hread
    cases hread
    rfl
  · next hread =>
    rw [afterAt?_of_piece] at hread
    cases hread

theorem scan_of_not_starts
    {c : Char} {rest : List Char} (h : ¬ StartsDirective (c :: rest)) :
    scan (c :: rest) = scan rest := by
  rw [scan.eq_def]
  simp only
  split
  · next heq =>
    subst heq
    split
    · next directive rest' hread =>
      obtain ⟨piece, htext, _⟩ := exists_piece_of_afterAt? hread
      exact absurd ⟨piece, rest', htext.symm⟩ h
    · rfl
  · rfl

theorem clear_nil (rest : List Char) : Clear [] rest := by
  intro front back hgap hback
  exact absurd (List.append_eq_nil_iff.mp hgap.symm).2 hback

theorem Clear.tail
    {c : Char} {gap rest : List Char} (h : Clear (c :: gap) rest) : Clear gap rest := by
  intro front back hgap hback
  exact h (c :: front) back (by rw [hgap]; rfl) hback

/-- The search finds nothing in a gap. -/
theorem Clear.scan_append
    {gap rest : List Char} (h : Clear gap rest) : scan (gap ++ rest) = scan rest := by
  induction gap with
  | nil => rfl
  | cons c gap ih =>
      have hfirst : ¬ StartsDirective (c :: (gap ++ rest)) := h [] (c :: gap) rfl (by simp)
      rw [List.cons_append, scan_of_not_starts hfirst, ih h.tail]

theorem Decomposes.scan_eq
    {text : List Char} {pieces : List Piece} (h : Decomposes text pieces) :
    scan text = pieces.map fun piece => make piece.name piece.value := by
  induction h with
  | last hclear =>
      have hscan := hclear.scan_append
      rw [List.append_nil] at hscan
      rw [hscan, scan]
      rfl
  | next hclear _ ih => rw [hclear.scan_append, scan_piece, ih, List.map_cons]

theorem Clear.cons
    {c : Char} {gap rest : List Char}
    (hfirst : ¬ StartsDirective (c :: (gap ++ rest))) (h : Clear gap rest) :
    Clear (c :: gap) rest := by
  intro front back hgap hback
  cases front with
  | nil =>
      rw [List.nil_append] at hgap
      rw [← hgap]
      exact hfirst
  | cons d front =>
      rw [List.cons_append, List.cons.injEq] at hgap
      exact h front back hgap.2 hback

/-- A character at which no directive begins belongs to the first gap. -/
theorem Decomposes.cons
    {c : Char} {text : List Char} {pieces : List Piece}
    (hfirst : ¬ StartsDirective (c :: text)) (h : Decomposes text pieces) :
    Decomposes (c :: text) pieces := by
  cases h with
  | last hclear => exact .last (.cons (by simpa using hfirst) hclear)
  | next hclear hrest => exact .next (.cons hfirst hclear) hrest

theorem exists_decomposes (text : List Char) : ∃ pieces, Decomposes text pieces := by
  induction hlength : text.length using Nat.strong_induction_on generalizing text with
  | _ n ih =>
      subst hlength
      by_cases hstarts : StartsDirective text
      · obtain ⟨piece, rest, rfl⟩ := hstarts
        obtain ⟨pieces, hpieces⟩ := ih rest.length (by simp [Piece.text]; omega) rest rfl
        exact ⟨piece :: pieces, .next (clear_nil _) hpieces⟩
      · cases text with
        | nil => exact ⟨[], .last (clear_nil [])⟩
        | cons c text =>
            obtain ⟨pieces, hpieces⟩ := ih text.length (by simp) text rfl
            exact ⟨pieces, hpieces.cons hstarts⟩

/-- The directives of a comment are those of its pieces, in order, however it is cut into pieces and
gaps with no directive beginning inside of a gap; and it can be cut so. -/
theorem parse_eq_iff_decomposes (comment : String) (directives : List Directive) :
    parse comment = directives ↔
      ∃ pieces, Decomposes comment.toList pieces ∧
        List.Forall₂ Piece.Denotes pieces directives := by
  have hdenotes : Piece.Denotes =
      fun piece directive => make piece.name piece.value = directive := by
    funext piece directive
    exact propext (denotes_iff.trans eq_comm)
  simp only [hdenotes, ← List.forall₂_map_left_iff, List.forall₂_eq_eq_eq]
  unfold parse
  constructor
  · rintro rfl
    obtain ⟨pieces, hpieces⟩ := exists_decomposes comment.toList
    exact ⟨pieces, hpieces, hpieces.scan_eq.symm⟩
  · rintro ⟨pieces, hpieces, rfl⟩
    exact hpieces.scan_eq

end Directive

end TreeLint
