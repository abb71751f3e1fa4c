import TreeLint.Proofs.JsonScalars
import TreeLint.Proofs.WritableValues

/-!
# Documents are read back

A value without floats and points in time, whose tables name each field once,
is read back from its text under every style.  The reader needs as many levels
as the value is deep and as many digits as its longest integer has.
-/

namespace TreeLint.Json

/-- The values that a text gives back, when `depth` levels may be opened and
integers may have `digits` digits. -/
inductive Plain (digits : Nat) : Nat → Value → Prop where
  | null (depth : Nat) : Plain digits depth .null
  | bool (depth : Nat) (b : Bool) : Plain digits depth (.bool b)
  | int (depth : Nat) (n : Int) (hcount : digitCount n ≤ digits) :
      Plain digits depth (.int n)
  | str (depth : Nat) (s : String) : Plain digits depth (.str s)
  | list (depth : Nat) (items : List Value)
      (hitems : ∀ v ∈ items, Plain digits depth v) :
      Plain digits (depth + 1) (.list items)
  | table (depth : Nat) (fields : Fields)
      (hnames : (fields.map Prod.fst).Nodup)
      (hfields : ∀ field ∈ fields, Plain digits depth field.2) :
      Plain digits (depth + 1) (.table fields)

/-- Integers that are not too long for the writer do not hinder it. -/
theorem Plain.isWritable
    {digits depth : Nat} {v : Value}
    (hv : Plain digits depth v) (hdigits : digits ≤ Text.maxDigits) : v.isWritable = true := by
  induction hv with
  | int _ n hcount => exact (Text.isWritable_iff_digitCount_le n).mpr (hcount.trans hdigits)
  | list _ items _ ih => exact (Value.areWritable_iff items).mpr ih
  | table _ fields _ _ ih => exact (Value.fieldsAreWritable_iff fields).mpr ih
  | _ => rfl

theorem Plain.list_map
    {α : Type} {digits depth : Nat} {f : α → Value} {items : List α}
    (hitems : ∀ x ∈ items, Plain digits depth (f x)) :
    Plain digits (depth + 1) (.list (items.map f)) := by
  apply Plain.list
  intro v hv
  obtain ⟨x, hx, rfl⟩ := List.mem_map.mp hv
  exact hitems x hx

/-! ## The text of a value -/

section Text

variable (style : Style) (level : Nat)

theorem Style.layout_list_cons (v : Value) (rest : List Value) :
    style.layout level (.list (v :: rest)) =
      '[' :: style.newline (level + 1) ++ style.layout (level + 1) v ++
        style.layoutItems (level + 1) rest ++ style.newline level ++ [']'] :=
  rfl

theorem Style.layout_table_cons (name : String) (v : Value) (rest : Fields) :
    style.layout level (.table ((name, v) :: rest)) =
      '\x7b' :: style.newline (level + 1) ++ style.string name ++ [':', ' '] ++
        style.layout (level + 1) v ++ style.layoutMembers (level + 1) rest ++
          style.newline level ++ ['\x7d'] :=
  rfl

theorem Style.layoutItems_cons (v : Value) (rest : List Value) :
    style.layoutItems level (v :: rest) =
      style.separator level ++ style.layout level v ++ style.layoutItems level rest :=
  rfl

theorem Style.layoutMembers_cons (name : String) (v : Value) (rest : Fields) :
    style.layoutMembers level ((name, v) :: rest) =
      style.separator level ++ style.string name ++ [':', ' '] ++
        style.layout level v ++ style.layoutMembers level rest :=
  rfl

end Text

/-! ## Blanks -/

theorem skipBlanks_append
    {blanks : List Char} (rest : List Char)
    (hblanks : ∀ c ∈ blanks, isBlank c = true) :
    skipBlanks (blanks ++ rest) = skipBlanks rest :=
  List.dropWhile_append_of_pos hblanks

theorem skipBlanks_cons
    {c : Char} (rest : List Char)
    (hc : isBlank c = false) :
    skipBlanks (c :: rest) = c :: rest := by
  rw [skipBlanks, List.dropWhile_cons_of_neg]
  rw [hc]
  exact Bool.false_ne_true

theorem skipBlanks_append_cons
    {blanks : List Char} {c : Char} (rest : List Char)
    (hblanks : ∀ b ∈ blanks, isBlank b = true)
    (hc : isBlank c = false) :
    skipBlanks (blanks ++ c :: rest) = c :: rest := by
  rw [skipBlanks_append _ hblanks, skipBlanks_cons rest hc]

theorem isBlank_of_mem_newline
    {style : Style} {level : Nat} {c : Char}
    (hc : c ∈ style.newline level) :
    isBlank c = true := by
  unfold Style.newline at hc
  cases hspread : style.spread with
  | oneLine =>
      rw [hspread] at hc
      cases hc
  | lines indent =>
      rw [hspread] at hc
      rcases List.mem_cons.mp hc with rfl | hspace
      · rfl
      · rw [List.eq_of_mem_replicate hspace]
        rfl

theorem exists_separator_eq (style : Style) (level : Nat) :
    ∃ blanks, style.separator level = ',' :: blanks ∧
      ∀ c ∈ blanks, isBlank c = true := by
  unfold Style.separator
  cases hspread : style.spread with
  | oneLine => exact ⟨[' '], rfl, List.forall_mem_singleton.mpr rfl⟩
  | lines indent =>
      exact ⟨style.newline level, rfl, fun c hc => isBlank_of_mem_newline hc⟩

theorem boundary_cons
    {c : Char} (rest : List Char)
    (hc : c.isDigit = false ∧ c ≠ '.' ∧ c ≠ 'e' ∧ c ≠ 'E') :
    Boundary (c :: rest) := by
  intro d hd
  cases hd
  exact hc

theorem boundary_of_isBlank
    {blanks : List Char}
    (hblanks : ∀ c ∈ blanks, isBlank c = true) :
    Boundary blanks := by
  intro c hc
  have hblank := hblanks c (List.mem_of_mem_head? hc)
  simp only [isBlank, Bool.or_eq_true, beq_iff_eq] at hblank
  rcases hblank with ((rfl | rfl) | rfl) | rfl <;> decide

theorem boundary_newline
    (style : Style) (level : Nat) {rest : List Char}
    (hrest : Boundary rest) :
    Boundary (style.newline level ++ rest) := by
  unfold Style.newline
  cases style.spread with
  | oneLine => exact hrest
  | lines indent => exact boundary_cons _ (by decide)

theorem boundary_separator
    (style : Style) (level : Nat) (rest : List Char) :
    Boundary (style.separator level ++ rest) := by
  obtain ⟨blanks, hseparator, -⟩ := exists_separator_eq style level
  rw [hseparator]
  exact boundary_cons _ (by decide)

theorem boundary_items
    (style : Style) (level : Nat) (items : List Value) {rest : List Char}
    (hrest : Boundary rest) :
    Boundary (style.layoutItems level items ++ rest) := by
  cases items with
  | nil => exact hrest
  | cons v items =>
      rw [Style.layoutItems_cons, List.append_assoc, List.append_assoc]
      exact boundary_separator style level _

theorem boundary_members
    (style : Style) (level : Nat) (fields : Fields) {rest : List Char}
    (hrest : Boundary rest) :
    Boundary (style.layoutMembers level fields ++ rest) := by
  cases fields with
  | nil => exact hrest
  | cons field fields =>
      obtain ⟨name, v⟩ := field
      simp only [Style.layoutMembers_cons, List.append_assoc]
      exact boundary_separator style level _

/-! ## One step of the reader -/

/-- A character that a value starts with. -/
structure Opening (c : Char) : Prop where
  solid : isBlank c = false
  noEnd : c ≠ ']'
  noMark : c ≠ '\uFEFF'

theorem opening_of_isDigit
    {c : Char}
    (hc : c.isDigit = true) :
    Opening c where
  solid := by
    simp only [isBlank, Bool.or_eq_false_iff, beq_eq_false_iff_ne]
    refine ⟨⟨⟨?_, ?_⟩, ?_⟩, ?_⟩ <;>
      · rintro rfl
        cases hc
  noEnd := by
    rintro rfl
    cases hc
  noMark := by
    rintro rfl
    cases hc

theorem readValue_string
    {style : Style} (hstyle : style.GuardsAscii)
    (digits fuel depth : Nat) (s : String) (rest : List Char) :
    readValue digits (fuel + 1) depth (style.string s ++ rest) =
      .ok (.str s, rest) := by
  rw [Style.string_append, readValue.eq_def]
  simp only [if_true, readString_string hstyle]

theorem readValue_scalar
    (digits fuel depth : Nat) {c : Char} (rest : List Char)
    (hscalar : c ≠ '\x22' ∧ c ≠ '[' ∧ c ≠ '\x7b') :
    readValue digits (fuel + 1) depth (c :: rest) =
      readScalar digits (c :: rest) := by
  obtain ⟨hquote, hlist, htable⟩ := hscalar
  rw [readValue.eq_def]
  simp only [if_neg hquote, if_neg hlist, if_neg htable]

theorem readValue_list
    (digits fuel depth : Nat) {blanks rest : List Char} {c : Char}
    (hblanks : ∀ b ∈ blanks, isBlank b = true)
    (hc : Opening c) :
    readValue digits (fuel + 1) (depth + 1) ('[' :: (blanks ++ c :: rest)) =
      readItems digits fuel depth [] (c :: rest) := by
  have hskip := skipBlanks_append_cons rest hblanks hc.solid
  rw [readValue.eq_def]
  simp only [Char.reduceEq, if_false, if_true, hskip]
  split
  next heq =>
    cases heq
    exact absurd rfl hc.noEnd
  next => rfl

theorem readValue_table
    (digits fuel depth : Nat) {blanks rest : List Char}
    (hblanks : ∀ b ∈ blanks, isBlank b = true) :
    readValue digits (fuel + 1) (depth + 1)
        ('\x7b' :: (blanks ++ '\x22' :: rest)) =
      readMembers digits fuel depth [] ('\x22' :: rest) := by
  have hskip : skipBlanks (blanks ++ '\x22' :: rest) = '\x22' :: rest :=
    skipBlanks_append_cons rest hblanks rfl
  rw [readValue.eq_def]
  simp only [Char.reduceEq, if_false, if_true, hskip]
  rfl

theorem readItems_last
    {digits fuel depth : Nat} {v : Value} {cs blanks rest : List Char}
    (done : List Value)
    (hread : readValue digits fuel depth cs = .ok (v, blanks ++ ']' :: rest))
    (hblanks : ∀ b ∈ blanks, isBlank b = true) :
    readItems digits (fuel + 1) depth done cs =
      .ok (.list (done.reverse ++ [v]), rest) := by
  have hskip : skipBlanks (blanks ++ ']' :: rest) = ']' :: rest :=
    skipBlanks_append_cons rest hblanks rfl
  rw [readItems.eq_def]
  simp only [hread, hskip]
  rw [List.reverse_cons]

theorem readItems_next
    {digits fuel depth : Nat} {v : Value} {c : Char} {cs blanks rest : List Char}
    (done : List Value)
    (hread : readValue digits fuel depth cs =
      .ok (v, ',' :: (blanks ++ c :: rest)))
    (hblanks : ∀ b ∈ blanks, isBlank b = true)
    (hc : isBlank c = false) :
    readItems digits (fuel + 1) depth done cs =
      readItems digits fuel depth (v :: done) (c :: rest) := by
  have hskip := skipBlanks_append_cons rest hblanks hc
  have hcomma : skipBlanks (',' :: (blanks ++ c :: rest)) =
      ',' :: (blanks ++ c :: rest) := skipBlanks_cons _ rfl
  rw [readItems.eq_def]
  simp only [hread, hcomma, hskip]

/-- What follows a member of an object: its end, or another member. -/
def afterMember (digits fuel depth : Nat) (done : Fields) (rest : List Char) :
    Except Fault (Value × List Char) :=
  match skipBlanks rest with
  | '\x7d' :: rest' => .ok (.table done, rest')
  | ',' :: rest' => readMembers digits fuel depth done (skipBlanks rest')
  | rest' => .error (stop .expectedComma rest')

theorem readMembers_member
    {style : Style} (hstyle : style.GuardsAscii)
    {digits fuel depth : Nat} {v : Value} {c : Char} {cs rest : List Char}
    (name : String) (done : Fields)
    (hread : readValue digits fuel depth (c :: cs) = .ok (v, rest))
    (hc : isBlank c = false) :
    readMembers digits (fuel + 1) depth done
        (style.string name ++ ':' :: ' ' :: c :: cs) =
      afterMember digits fuel depth (Fields.set name v done) rest := by
  have hcolon : skipBlanks (':' :: ' ' :: c :: cs) = ':' :: ' ' :: c :: cs :=
    skipBlanks_cons _ rfl
  have hskip : skipBlanks (' ' :: c :: cs) = c :: cs :=
    skipBlanks_cons cs hc
  rw [Style.string_append, readMembers.eq_def]
  simp only [readString_string hstyle, hcolon, hskip, hread]
  rfl

theorem readMembers_last
    {style : Style} (hstyle : style.GuardsAscii)
    {digits fuel depth : Nat} {v : Value} {c : Char} {cs blanks rest : List Char}
    (name : String) (done : Fields)
    (hread : readValue digits fuel depth (c :: cs) =
      .ok (v, blanks ++ '\x7d' :: rest))
    (hc : isBlank c = false)
    (hblanks : ∀ b ∈ blanks, isBlank b = true) :
    readMembers digits (fuel + 1) depth done
        (style.string name ++ ':' :: ' ' :: c :: cs) =
      .ok (.table (Fields.set name v done), rest) := by
  rw [readMembers_member hstyle name done hread hc, afterMember,
    skipBlanks_append_cons rest hblanks rfl]
  rfl

theorem readMembers_next
    {style : Style} (hstyle : style.GuardsAscii)
    {digits fuel depth : Nat} {v : Value} {c d : Char} {cs blanks rest : List Char}
    (name : String) (done : Fields)
    (hread : readValue digits fuel depth (c :: cs) =
      .ok (v, ',' :: (blanks ++ d :: rest)))
    (hc : isBlank c = false)
    (hblanks : ∀ b ∈ blanks, isBlank b = true)
    (hd : isBlank d = false) :
    readMembers digits (fuel + 1) depth done
        (style.string name ++ ':' :: ' ' :: c :: cs) =
      readMembers digits fuel depth (Fields.set name v done) (d :: rest) := by
  have hskip := skipBlanks_append_cons rest hblanks hd
  rw [readMembers_member hstyle name done hread hc, afterMember,
    skipBlanks_cons _ rfl]
  simp only [hskip]

/-- A value is read back at every level, whatever follows that is no part of a
number. -/
structure ReadsBack (style : Style) (digits depth : Nat) (v : Value) : Prop where
  opens (level : Nat) :
    ∃ c more, style.layout level v = c :: more ∧ Opening c
  reads (level fuel : Nat) (rest : List Char)
    (hrest : Boundary rest)
    (hfuel : 2 * (style.layout level v).length ≤ fuel) :
    readValue digits fuel depth (style.layout level v ++ rest) = .ok (v, rest)

theorem readsBack_scalar
    {style : Style} {digits depth : Nat} {v : Value} (c : Char) (more : List Char)
    (hopen : Opening c)
    (hscalar : c ≠ '\x22' ∧ c ≠ '[' ∧ c ≠ '\x7b')
    (htext : ∀ level, style.layout level v = c :: more)
    (hread : ∀ rest, Boundary rest →
      readScalar digits (c :: (more ++ rest)) = .ok (v, rest)) :
    ReadsBack style digits depth v where
  opens level := ⟨c, more, htext level, hopen⟩
  reads level fuel rest hrest hfuel := by
    rw [htext level] at hfuel ⊢
    rw [List.length_cons] at hfuel
    obtain ⟨fuel, rfl⟩ := Nat.exists_eq_add_of_le' (show 1 ≤ fuel by omega)
    rw [List.cons_append, readValue_scalar digits fuel depth _ hscalar]
    exact hread rest hrest

theorem readsBack_int
    {style : Style} {digits : Nat} (depth : Nat) {n : Int}
    (hcount : digitCount n ≤ digits) :
    ReadsBack style digits depth (.int n) := by
  obtain ⟨c, more, hcons, hc⟩ := exists_toString_eq_cons n
  have hopen : Opening c := by
    rcases hc with rfl | hc
    · exact ⟨rfl, by decide, by decide⟩
    · exact opening_of_isDigit hc
  have hother (d : Char) (hd : d ≠ '-' ∧ d.isDigit = false) : c ≠ d := by
    rintro rfl
    rcases hc with hminus | hdigit
    · exact hd.1 hminus
    · rw [hd.2] at hdigit
      cases hdigit
  have htext (level : Nat) : style.layout level (.int n) = c :: more := hcons
  have hread (rest : List Char) (hrest : Boundary rest) :
      readScalar digits (c :: (more ++ rest)) = .ok (.int n, rest) := by
    rw [← List.cons_append, ← hcons]
    exact readScalar_toString hcount hrest
  exact readsBack_scalar c more hopen
    ⟨hother _ (by decide), hother _ (by decide), hother _ (by decide)⟩ htext hread

theorem readsBack_str
    {style : Style} (hstyle : style.GuardsAscii)
    (digits depth : Nat) (s : String) :
    ReadsBack style digits depth (.str s) where
  opens level := ⟨'\x22', _, rfl, rfl, by decide, by decide⟩
  reads level fuel rest hrest hfuel := by
    change 2 * (style.string s).length ≤ fuel at hfuel
    rw [Style.string, List.cons_append, List.length_cons] at hfuel
    obtain ⟨fuel, rfl⟩ := Nat.exists_eq_add_of_le' (show 1 ≤ fuel by omega)
    exact readValue_string hstyle digits fuel depth s rest

/-! ## Arrays and objects -/

theorem readItems_items
    {style : Style} {digits depth : Nat} (level outer : Nat)
    (v : Value) (items : List Value)
    (hv : ReadsBack style digits depth v)
    (hitems : ∀ w ∈ items, ReadsBack style digits depth w)
    (done : List Value) (fuel : Nat) (rest : List Char)
    (hfuel : 2 * ((style.layout level v).length +
      (style.layoutItems level items).length) + 1 ≤ fuel) :
    readItems digits fuel depth done
        (style.layout level v ++ (style.layoutItems level items ++
          (style.newline outer ++ ']' :: rest))) =
      .ok (.list (done.reverse ++ v :: items), rest) := by
  obtain ⟨fuel, rfl⟩ := Nat.exists_eq_add_of_le' (show 1 ≤ fuel by omega)
  have hclose : Boundary (style.newline outer ++ ']' :: rest) :=
    boundary_newline style outer (boundary_cons rest (by decide))
  induction items generalizing v done fuel with
  | nil =>
      have hread := hv.reads level fuel _ hclose (by omega)
      exact readItems_last done hread fun c hc => isBlank_of_mem_newline hc
  | cons w items ih =>
      obtain ⟨blanks, hseparator, hblanks⟩ := exists_separator_eq style level
      have hw := hitems w List.mem_cons_self
      obtain ⟨c, more, htext, hc⟩ := hw.opens level
      have hread := hv.reads level fuel _
        (boundary_items style level (w :: items) hclose) (by omega)
      rw [Style.layoutItems_cons, hseparator, List.length_append, List.length_append,
        List.length_cons] at hfuel
      obtain ⟨fuel, rfl⟩ := Nat.exists_eq_add_of_le' (show 1 ≤ fuel by omega)
      have hrest := ih w hw (fun u hu => hitems u (List.mem_cons_of_mem w hu))
        (v :: done) fuel (by omega)
      simp only [Style.layoutItems_cons, hseparator, htext, List.append_assoc,
        List.cons_append, List.reverse_cons, List.nil_append] at hread hrest ⊢
      rw [readItems_next done hread hblanks hc.solid]
      exact hrest

theorem set_of_not_mem
    {name : String} (v : Value) {done : Fields}
    (hname : name ∉ done.map Prod.fst) :
    Fields.set name v done = done ++ [(name, v)] := by
  induction done with
  | nil => rfl
  | cons field done ih =>
      obtain ⟨other, w⟩ := field
      rw [List.map_cons, List.mem_cons, not_or] at hname
      rw [Fields.set, if_neg (Ne.symm hname.1), ih hname.2]
      rfl

theorem set_of_nodup
    {name : String} {v : Value} {done fields : Fields}
    (hnames : ((done ++ (name, v) :: fields).map Prod.fst).Nodup) :
    Fields.set name v done = done ++ [(name, v)] := by
  rw [List.map_append, List.map_cons, List.nodup_append] at hnames
  apply set_of_not_mem
  intro hmem
  exact hnames.2.2 name hmem name List.mem_cons_self rfl

theorem readMembers_members
    {style : Style} (hstyle : style.GuardsAscii)
    {digits depth : Nat} (level outer : Nat)
    (name : String) (v : Value) (fields : Fields)
    (hv : ReadsBack style digits depth v)
    (hfields : ∀ field ∈ fields, ReadsBack style digits depth field.2)
    (done : Fields) (fuel : Nat) (rest : List Char)
    (hnames : ((done ++ (name, v) :: fields).map Prod.fst).Nodup)
    (hfuel : 2 * ((style.layout level v).length +
      (style.layoutMembers level fields).length) + 1 ≤ fuel) :
    readMembers digits fuel depth done
        (style.string name ++ (':' :: ' ' :: (style.layout level v ++
          (style.layoutMembers level fields ++
            (style.newline outer ++ '\x7d' :: rest))))) =
      .ok (.table (done ++ (name, v) :: fields), rest) := by
  obtain ⟨fuel, rfl⟩ := Nat.exists_eq_add_of_le' (show 1 ≤ fuel by omega)
  have hclose : Boundary (style.newline outer ++ '\x7d' :: rest) :=
    boundary_newline style outer (boundary_cons rest (by decide))
  induction fields generalizing name v done fuel with
  | nil =>
      obtain ⟨c, more, htext, hc⟩ := hv.opens level
      have hread := hv.reads level fuel _ hclose (by omega)
      rw [← set_of_nodup hnames]
      rw [htext] at hread ⊢
      exact readMembers_last hstyle name done hread hc.solid
        fun c hc => isBlank_of_mem_newline hc
  | cons field fields ih =>
      obtain ⟨next, w⟩ := field
      obtain ⟨c, more, htext, hc⟩ := hv.opens level
      obtain ⟨blanks, hseparator, hblanks⟩ := exists_separator_eq style level
      have hread := hv.reads level fuel _
        (boundary_members style level ((next, w) :: fields) hclose) (by omega)
      simp only [Style.layoutMembers_cons, hseparator, List.length_append,
        List.length_cons] at hfuel
      obtain ⟨fuel, rfl⟩ := Nat.exists_eq_add_of_le' (show 1 ≤ fuel by omega)
      have hset := set_of_nodup hnames
      have hrest := ih next w (hfields (next, w) List.mem_cons_self)
        (fun field hmem => hfields field (List.mem_cons_of_mem _ hmem))
        (done ++ [(name, v)]) (by simpa using hnames) fuel (by omega)
      simp only [Style.layoutMembers_cons, Style.string, hseparator, htext, List.append_assoc,
        List.cons_append, List.nil_append] at hread hrest ⊢
      have hstep := readMembers_next hstyle name done hread hc.solid hblanks rfl
      simp only [Style.string, hset, List.append_assoc, List.cons_append,
        List.nil_append] at hstep
      rw [hstep]
      exact hrest

theorem readsBack_list
    {style : Style} {digits depth : Nat} {items : List Value}
    (hitems : ∀ v ∈ items, ReadsBack style digits depth v) :
    ReadsBack style digits (depth + 1) (.list items) := by
  cases items with
  | nil =>
      constructor
      · intro level
        exact ⟨'[', _, rfl, rfl, by decide, by decide⟩
      · intro level fuel rest hrest hfuel
        obtain ⟨fuel, rfl⟩ := Nat.exists_eq_add_of_le'
          (show 1 ≤ fuel from Nat.le_trans (show 1 ≤ 2 * 2 by omega) hfuel)
        rw [readValue.eq_def]
        rfl
  | cons v items =>
      constructor
      · intro level
        exact ⟨'[', _, rfl, rfl, by decide, by decide⟩
      · intro level fuel rest hrest hfuel
        have hv := hitems v List.mem_cons_self
        obtain ⟨c, more, htext, hc⟩ := hv.opens (level + 1)
        simp only [Style.layout_list_cons, List.length_append, List.length_cons] at hfuel
        obtain ⟨fuel, rfl⟩ := Nat.exists_eq_add_of_le' (show 1 ≤ fuel by omega)
        have hread := readItems_items (level + 1) level v items hv
          (fun w hw => hitems w (List.mem_cons_of_mem v hw)) [] fuel rest (by omega)
        simp only [Style.layout_list_cons, htext, List.append_assoc, List.cons_append,
          List.nil_append] at hread ⊢
        rw [readValue_list digits fuel depth
          (fun b hb => isBlank_of_mem_newline hb) hc]
        exact hread

theorem readsBack_table
    {style : Style} (hstyle : style.GuardsAscii)
    {digits depth : Nat} {fields : Fields}
    (hnames : (fields.map Prod.fst).Nodup)
    (hfields : ∀ field ∈ fields, ReadsBack style digits depth field.2) :
    ReadsBack style digits (depth + 1) (.table fields) := by
  cases fields with
  | nil =>
      constructor
      · intro level
        exact ⟨'\x7b', _, rfl, rfl, by decide, by decide⟩
      · intro level fuel rest hrest hfuel
        obtain ⟨fuel, rfl⟩ := Nat.exists_eq_add_of_le'
          (show 1 ≤ fuel from Nat.le_trans (show 1 ≤ 2 * 2 by omega) hfuel)
        rw [readValue.eq_def]
        rfl
  | cons field fields =>
      obtain ⟨name, v⟩ := field
      constructor
      · intro level
        exact ⟨'\x7b', _, rfl, rfl, by decide, by decide⟩
      · intro level fuel rest hrest hfuel
        simp only [Style.layout_table_cons, List.length_append, List.length_cons] at hfuel
        obtain ⟨fuel, rfl⟩ := Nat.exists_eq_add_of_le' (show 1 ≤ fuel by omega)
        have hread := readMembers_members hstyle (level + 1) level name v fields
          (hfields (name, v) List.mem_cons_self)
          (fun field hmem => hfields field (List.mem_cons_of_mem _ hmem))
          [] fuel rest hnames (by omega)
        simp only [Style.layout_table_cons, Style.string, List.append_assoc, List.cons_append,
          List.nil_append] at hread ⊢
        rw [readValue_table digits fuel depth
          (fun b hb => isBlank_of_mem_newline hb)]
        exact hread

/-! ## Whole texts -/

theorem Plain.readsBack
    {style : Style} (hstyle : style.GuardsAscii)
    {digits depth : Nat} {v : Value}
    (hv : Plain digits depth v) :
    ReadsBack style digits depth v := by
  induction hv with
  | null depth =>
      exact readsBack_scalar 'n' ['u', 'l', 'l'] ⟨rfl, by decide, by decide⟩
        (by decide) (fun level => rfl) (fun rest hrest => rfl)
  | bool depth b =>
      cases b with
      | false =>
          exact readsBack_scalar 'f' ['a', 'l', 's', 'e'] ⟨rfl, by decide, by decide⟩
            (by decide) (fun level => rfl) (fun rest hrest => rfl)
      | true =>
          exact readsBack_scalar 't' ['r', 'u', 'e'] ⟨rfl, by decide, by decide⟩
            (by decide) (fun level => rfl) (fun rest hrest => rfl)
  | int depth n hcount => exact readsBack_int depth hcount
  | str depth s => exact readsBack_str hstyle digits depth s
  | list depth items hitems ih => exact readsBack_list ih
  | table depth fields hnames hfields ih => exact readsBack_table hstyle hnames ih

/-- What is written, and followed by blanks only, is read back. -/
theorem read_value
    {style : Style} (hstyle : style.GuardsAscii)
    {digits depth : Nat} {v : Value} {blanks : List Char}
    (hv : Plain digits depth v)
    (hblanks : ∀ c ∈ blanks, isBlank c = true) :
    read depth digits (style.layout 0 v ++ blanks) = .ok v := by
  have hback := hv.readsBack hstyle
  obtain ⟨c, more, htext, hc⟩ := hback.opens 0
  have hread := hback.reads 0
    (2 * (style.layout 0 v ++ blanks).length + 2) blanks
    (boundary_of_isBlank hblanks) (by rw [List.length_append]; omega)
  have hend : skipBlanks blanks = [] := by
    rw [← List.append_nil blanks, skipBlanks_append [] hblanks]
    rfl
  rw [htext, List.cons_append] at hread ⊢
  rw [read.eq_def]
  split
  next heq =>
    cases heq
    exact absurd rfl hc.noMark
  next =>
    rw [skipBlanks_cons _ hc.solid, hread]
    simp only [hend]

end TreeLint.Json
