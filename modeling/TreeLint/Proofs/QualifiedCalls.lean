import TreeLint.Proofs.AddedCode
import TreeLint.Proofs.DirectiveScan

/-!
# Calls with longer qualifiers

Which function a call names depends on the last segment of its image alone.  A
qualifier that is put in front, with a backslash behind it, ends before that
segment begins, whatever it is made of: it may be empty, may end with backslashes
of its own, and may itself look like the name of a function.  Only an image of
nothing but backslashes has no last segment to keep.

Trees that differ by such qualifiers therefore hold the same code, and the check
of a callable reports the same declarators in both.
-/

namespace TreeLint

/-! ## The last segment -/

namespace Text

variable {separator : Char}

theorem lastSegment_append
    {front : List Char}
    (h : ∀ c, front.getLast? = some c → c = separator)
    (text : List Char) :
    lastSegment separator (front ++ text) = lastSegment separator text := by
  have hstop : front.reverse.takeWhile (· != separator) = [] := by
    cases hreverse : front.reverse with
    | nil => rfl
    | cons c rest =>
        have hlast : front.getLast? = some c := by
          rw [← List.head?_reverse, hreverse]
          rfl
        simp [h c hlast]
  unfold lastSegment
  rw [List.reverse_append, List.takeWhile_append, hstop, List.append_nil]
  split
  · next hall => rw [(List.takeWhile_prefix _).eq_of_length hall]
  · rfl

/-- What is left of a qualifier after trimming ends with the separator, or nothing is left. -/
theorem getLast?_dropWhile_qualifier
    {left : List Char} {c : Char} (qualifier : List Char)
    (hleft : ∀ c ∈ left, (c == separator) = true)
    (hc : ((qualifier ++ separator :: left).dropWhile (· == separator)).getLast? = some c) :
    c = separator := by
  obtain ⟨dropped, hdropped⟩ :=
    List.dropWhile_suffix (l := qualifier ++ separator :: left) (· == separator)
  have hlast : (qualifier ++ separator :: left).getLast? = some c := by
    rw [← hdropped, List.getLast?_append, hc]
    rfl
  rw [List.getLast?_append_of_ne_nil _ (by simp)] at hlast
  rcases List.mem_cons.mp (List.mem_of_getLast? hlast) with heq | hmem
  · exact heq
  · simpa using hleft c hmem

/-- Text in front of a core that is not empty is cut on the left alone. -/
theorem trims_dropWhile_append
    {p : Char → Bool} {core right : List Char} (front : List Char)
    (hcore : core ≠ [])
    (hright : ∀ c ∈ right, p c = true)
    (hhead : ∀ c, core.head? = some c → p c = false)
    (hlast : ∀ c, core.getLast? = some c → p c = false) :
    Trims p (front ++ (core ++ right)) (front.dropWhile p ++ core) := by
  refine ⟨front.takeWhile p, right, ?_, ?_, hright, ?_, ?_⟩
  · rw [← List.append_assoc, ← List.append_assoc, ← List.append_assoc,
      List.takeWhile_append_dropWhile]
  · intro c hc
    exact List.mem_takeWhile_imp hc
  · intro c hc
    rw [List.head?_append] at hc
    cases hfirst : (front.dropWhile p).head? with
    | none =>
        rw [hfirst, Option.none_or] at hc
        exact hhead c hc
    | some d =>
        rw [hfirst, Option.some_or, Option.some.injEq] at hc
        rw [← hc]
        exact head?_dropWhile hfirst
  · intro c hc
    rw [List.getLast?_append_of_ne_nil _ hcore] at hc
    exact hlast c hc

theorem lastSegment_trim_qualified
    (qualifier : List Char) {text : List Char}
    (htext : ∃ c ∈ text, c ≠ separator) :
    lastSegment separator (trim (· == separator) (qualifier ++ separator :: text)) =
      lastSegment separator (trim (· == separator) text) := by
  obtain ⟨left, right, hcut, hleft, hright, hhead, hlast⟩ := trims_trim (· == separator) text
  generalize trim (· == separator) text = core at hcut hhead hlast ⊢
  have hcore : core ≠ [] := by
    rintro rfl
    obtain ⟨c, hc, hne⟩ := htext
    rw [hcut, List.nil_append, List.mem_append] at hc
    rcases hc with hmem | hmem
    · exact hne (by simpa using hleft c hmem)
    · exact hne (by simpa using hright c hmem)
  have hwhole : qualifier ++ separator :: text =
      (qualifier ++ separator :: left) ++ (core ++ right) := by
    rw [hcut]
    simp
  have htrims :=
    trims_dropWhile_append (qualifier ++ separator :: left) hcore hright hhead hlast
  rw [hwhole, htrims.trim_eq]
  exact lastSegment_append (fun c hc => getLast?_dropWhile_qualifier qualifier hleft hc) core

end Text

/-! ## Trees with longer qualifiers -/

def Node.withImage (node : Node) (image : Value) : Node := { node with image := image }

namespace Tree

variable {t t' : Tree}

/-- The trees differ in their images alone, and in those only by qualifiers in front of the names of
called functions.  A name has something in it besides backslashes. -/
structure Requalified (t t' : Tree) : Prop where
  size : t.size = t'.size
  node : ∀ i : t.Pos,
    t'.node (i.cast size) = (t.node i).withImage (t'.image (i.cast size))
  image : ∀ i : t.Pos,
    t'.image (i.cast size) = t.image i ∨
      t.kind i = .functionPostfix ∧
        ∃ qualifier name : String,
          t.image i = .str name ∧
            (∃ c ∈ name.toList, c ≠ '\\') ∧
            t'.image (i.cast size) = .str (qualifier ++ "\\" ++ name)

namespace Requalified

variable (h : Requalified t t')
include h

theorem image_of_not_call
    {i : t.Pos} (hkind : t.kind i ≠ .functionPostfix) :
    t'.image (i.cast h.size) = t.image i := by
  rcases h.image i with heq | ⟨hcall, _⟩
  · exact heq
  · exact absurd hcall hkind

theorem isWritable_image (i : t.Pos) :
    (t'.image (i.cast h.size)).isWritable = (t.image i).isWritable := by
  rcases h.image i with heq | ⟨_, _, _, himage, _, himage'⟩
  · rw [heq]
  · rw [himage, himage']
    rfl

theorem namesFunction_eq (i : t.Pos) (function : String) :
    t'.namesFunction function (i.cast h.size) = t.namesFunction function i := by
  unfold namesFunction
  rcases h.image i with heq | ⟨_, qualifier, name, himage, hname, himage'⟩
  · rw [heq]
  · have hlist :
        (qualifier ++ "\\" ++ name).toList = qualifier.toList ++ '\\' :: name.toList := by
      simp
    rw [himage, himage', Image.text_str, Image.text_str]
    simp only [Except.map]
    rw [hlist, Text.lastSegment_trim_qualified qualifier.toList hname]

theorem attribute?_eq (i : t.Pos) (name : String) :
    t'.attribute? name (i.cast h.size) = t.attribute? name i := by
  unfold attribute?
  rw [h.node i]
  rfl

theorem sameCode : SameCode t t' where
  size := h.size
  kind i := by
    unfold kind
    rw [h.node i]
    rfl
  parent i := by
    rw [h.node i]
    rfl
  children i := by
    rw [h.node i]
    rfl
  image _ hkind := h.image_of_not_call hkind
  calls i name _ := h.namesFunction_eq i name
  static i := by
    unfold isStatic flag
    rw [h.attribute?_eq]

end Requalified

end Tree

namespace UnusedParameter

open TreeLint.Tree

variable {t t' : Tree}

theorem isExempt_requalified
    (h : Requalified t t') (i : t.Pos) :
    isExempt t' (i.cast h.size) = isExempt t i := by
  have hkind : t'.kind (i.cast h.size) = t.kind i := h.sameCode.kind i
  unfold isExempt isAbstract isOwnDeclaration flag docComment
  rw [hkind, h.attribute?_eq, h.attribute?_eq, h.attribute?_eq]
  by_cases hmethod : t.kind i = .method
  · rw [h.image_of_not_call (by rw [hmethod]; decide)]
  · -- The image of a node that is no method is not looked at.
    have hother : (t.kind i != .method) = true := by simpa using hmethod
    rw [if_pos hother, if_pos hother]

/-- Qualifiers in front of the names of called functions change nothing: at every node the check
reports the same declarators in the same order, or fails in the same way.  With texts for images it
does not fail, unless it is that of a method whose comment cannot be read. -/
theorem check_ignores_qualifiers
    {t t' : Tree} (h : Requalified t t') (i : t.Pos) :
    (check t' (i.cast h.size)).map nodeNumbers = (check t i).map nodeNumbers ∧
      (t.Textual → (t.kind i = .method → ∃ comment, t.docComment i = .ok comment) →
        ∃ found, check t i = .ok found) := by
  refine ⟨?_, exists_check_eq_ok⟩
  have hreported : reported t' (i.cast h.size) =
      (reported t i).map fun found => found.map h.sameCode.move :=
    reported_move h.sameCode (isExempt_requalified h i)
  rw [check_eq, check_eq, hreported]
  cases reported t i with
  | error fault => rfl
  | ok found =>
      have hall : ((found.map h.sameCode.move).all fun d => (t'.image d).isWritable) =
          found.all fun d => (t.image d).isWritable := by
        rw [List.all_map]
        exact congrArg found.all (funext h.isWritable_image)
      simp only [Except.map, Except.bind, hall]
      cases found.all fun d => (t.image d).isWritable with
      | false => rfl
      | true =>
          simp only [if_true, nodeNumbers_map_violationAt]
          rw [List.map_map]
          rfl

/-- A function with the parameters `$a` and `$b` that hands the literal `'a'` to a function. -/
def sampleCall (callee : String) : Tree :=
  (((((single "call.php" { kind := .function, image := .str "f" }).extend 0
    (by decide) { kind := .formalParameters }).extend 1
    (by decide) { kind := .variableDeclarator, image := .str "$a" }).extend 1
    (by decide) { kind := .variableDeclarator, image := .str "$b" }).extend 0
    (by decide) { kind := .functionPostfix, image := .str callee }).extend 4
    (by simp [Tree.size, extend, single]) { kind := .literal, image := .str "'a'" }

theorem requalified_sampleCall :
    Requalified (sampleCall "compact") (sampleCall "func_get_args\\compact") where
  size := rfl
  node := by
    rintro ⟨i, hi⟩
    change i < 6 at hi
    interval_cases i <;> rfl
  image := by
    rintro ⟨i, hi⟩
    change i < 6 at hi
    interval_cases i
    · exact Or.inl rfl
    · exact Or.inl rfl
    · exact Or.inl rfl
    · exact Or.inl rfl
    · exact Or.inr ⟨rfl, "func_get_args", "compact", rfl, ⟨'c', by simp, by decide⟩, rfl⟩
    · exact Or.inl rfl

theorem check_ignores_qualifiers_sample :
    Requalified (sampleCall "compact") (sampleCall "func_get_args\\compact") ∧
      (check (sampleCall "compact") ⟨0, by decide⟩).map nodeNumbers = .ok [3] ∧
      (check (sampleCall "func_get_args\\compact") ⟨0, by decide⟩).map nodeNumbers = .ok [3] := by
  have hbefore : (check (sampleCall "compact") ⟨0, by decide⟩).map nodeNumbers = .ok [3] := by
    have hreported :
        reported (sampleCall "compact") ⟨0, by decide⟩ = .ok [⟨3, by decide⟩] := rfl
    rw [check_eq, hreported]
    exact congrArg Except.ok (nodeNumbers_map_violationAt _)
  obtain ⟨hafter, _⟩ := check_ignores_qualifiers requalified_sampleCall ⟨0, by decide⟩
  exact ⟨requalified_sampleCall, hbefore, hafter.trans hbefore⟩

end UnusedParameter

end TreeLint
