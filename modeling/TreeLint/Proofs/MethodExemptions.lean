import TreeLint.Proofs.UnusedParameters

/-!
# Methods that are exempt by their names

The magic methods are found by a search that ignores case, and the search looks
for their names anywhere in the name of a method.  So a method does not escape
the check by being magic, but by holding a magic name: `__getConfig` escapes, and
so does `my__settings`.  Of the methods that nothing else exempts, exactly those
whose name holds none are checked, and these are checked in full.
-/

namespace TreeLint

namespace Text

/-- A piece of the text is the word when case is ignored. -/
def Holds (word text : String) : Prop :=
  ∃ before middle after,
    text.toList = before ++ (middle ++ after) ∧ middle.map fold = word.toList

theorem occursIn_eq_true_iff {needle text : List Char} :
    occursIn needle text = true ↔ needle <:+: text := by
  induction text with
  | nil => simp [occursIn]
  | cons c text ih =>
      rw [occursIn, Bool.or_eq_true, ih, List.isPrefixOf_iff_prefix, List.infix_cons_iff]

theorem occursCaseless_iff_holds {word text : String} :
    occursCaseless word text = true ↔ Holds word text := by
  unfold occursCaseless Holds
  rw [occursIn_eq_true_iff]
  constructor
  · rintro ⟨left, right, hfolded⟩
    rw [List.append_assoc] at hfolded
    obtain ⟨before, rest, htext, _, hrest⟩ := List.map_eq_append_iff.mp hfolded.symm
    obtain ⟨middle, after, hsplit, hmiddle, _⟩ := List.map_eq_append_iff.mp hrest
    exact ⟨before, middle, after, by rw [htext, hsplit], hmiddle⟩
  · rintro ⟨before, middle, after, htext, hmiddle⟩
    refine ⟨before.map fold, after.map fold, ?_⟩
    rw [htext, List.map_append, List.map_append, hmiddle, List.append_assoc]

end Text

namespace UnusedParameter

open TreeLint.Tree

variable {t : Tree}

/-- The name is that of a magic method, in any case. -/
def IsMagicName (name : String) : Prop :=
  ∃ magic ∈ magicNames, name.toList.map Text.fold = magic.toList

theorem isMagic_iff {name : String} :
    isMagic name = true ↔ ∃ magic ∈ magicNames, Text.Holds magic name := by
  simp only [isMagic, List.any_eq_true, Text.occursCaseless_iff_holds]

theorem IsMagicName.exists_holds
    {name : String} (h : IsMagicName name) :
    ∃ magic ∈ magicNames, Text.Holds magic name := by
  obtain ⟨magic, hmem, hfolded⟩ := h
  exact ⟨magic, hmem, [], name.toList, [], by simp, hfolded⟩

theorem isExempt_eq_isMagic
    {i : t.Pos} {comment : String}
    (htext : t.Textual)
    (hmethod : t.kind i = .method)
    (habstract : t.isAbstract i = false)
    (hown : t.isOwnDeclaration i = true)
    (hcomment : t.docComment i = .ok comment)
    (hinherit : ¬ Text.Holds "@inheritdoc" comment) :
    isExempt t i = .ok (isMagic (t.name i)) := by
  have hoccurs : Text.occursCaseless inheritDirective comment = false := by
    rw [Bool.eq_false_iff, ne_eq, Text.occursCaseless_iff_holds]
    exact hinherit
  unfold isExempt
  rw [hmethod, habstract, htext.image_eq i, Image.text_str, hcomment]
  cases hmagic : isMagic (t.name i) <;> simp [hmagic, hoccurs, hown]

/-- The names of the unused declarators are the declared names without the used ones. -/
theorem exists_unused_eq_ok
    (htext : t.Textual) (i : t.Pos) :
    ∃ found, unused t i = .ok found ∧
      ∀ name, name ∈ found.map t.name ↔
        name ∈ (declarators t i).map t.name ∧ ¬ Uses t i name := by
  classical
  obtain ⟨ds, hremaining, hfirst⟩ := remaining_eq htext i
  have hdeclared : ∀ name, name ∈ ds.map t.name ↔ name ∈ (declarators t i).map t.name := by
    intro name
    constructor
    · exact fun hmem => (hfirst.sublist.map t.name).subset hmem
    · intro hmem
      obtain ⟨d, hd, rfl⟩ := List.mem_map.mp hmem
      exact hfirst.covers d hd
  refine ⟨ds.filter fun d => ¬ Uses t i (t.name d), ?_, ?_⟩
  · unfold unused
    rw [hremaining, Except.map, declarators_pendingOf]
  · intro name
    rw [← hdeclared name]
    simp only [List.mem_map, List.mem_filter, decide_eq_true_eq]
    constructor
    · rintro ⟨d, ⟨hd, hunused⟩, rfl⟩
      exact ⟨⟨d, hd, rfl⟩, hunused⟩
    · rintro ⟨⟨d, hd, rfl⟩, hunused⟩
      exact ⟨d, ⟨hd, hunused⟩, rfl⟩

theorem reported_of_isExempt
    {i : t.Pos} {exempt : Bool}
    (hcallable : (t.kind i).isCallable = true)
    (hexempt : isExempt t i = .ok exempt) :
    reported t i = if exempt = true then .ok [] else unused t i := by
  unfold reported
  rw [hcallable, hexempt]
  cases exempt <;> rfl

/-- Let a method be neither abstract nor a restated signature, and let its comment be one that can
be read and that is not inherited.  A parameter of it is reported exactly if its name is declared,
is not used, and no magic name stands anywhere in the name of the method; so the magic methods
escape, but others do as well. -/
theorem method_checked_iff_holds_no_magic_name
    (t : Tree) (htext : t.Textual) (i : t.Pos) {comment : String}
    (hmethod : t.kind i = .method)
    (habstract : t.isAbstract i = false)
    (hown : t.isOwnDeclaration i = true)
    (hcomment : t.docComment i = .ok comment)
    (hinherit : ¬ Text.Holds "@inheritdoc" comment) :
    ∃ found : List t.Pos,
      check t i = .ok (found.map (finding t)) ∧
      (∀ name, name ∈ found.map t.name ↔
        name ∈ (declarators t i).map t.name ∧ ¬ Uses t i name ∧
          ∀ magic ∈ magicNames, ¬ Text.Holds magic (t.name i)) ∧
      (IsMagicName (t.name i) → found = []) := by
  have hexempt := isExempt_eq_isMagic htext hmethod habstract hown hcomment hinherit
  have hreported := reported_of_isExempt (by rw [hmethod]; rfl) hexempt
  by_cases hmagic : ∃ magic ∈ magicNames, Text.Holds magic (t.name i)
  · rw [if_pos (isMagic_iff.mpr hmagic)] at hreported
    refine ⟨[], check_eq_map_finding htext hreported, ?_, fun _ => rfl⟩
    intro name
    obtain ⟨magic, hmem, hholds⟩ := hmagic
    constructor
    · intro hnone
      cases hnone
    · rintro ⟨_, _, hfree⟩
      exact absurd hholds (hfree magic hmem)
  · rw [if_neg (isMagic_iff.not.mpr hmagic)] at hreported
    obtain ⟨found, hunused, hnames⟩ := exists_unused_eq_ok htext i
    have hfree : ∀ magic ∈ magicNames, ¬ Text.Holds magic (t.name i) := by
      intro magic hmem hholds
      exact hmagic ⟨magic, hmem, hholds⟩
    refine ⟨found, check_eq_map_finding htext (hreported.trans hunused), ?_, ?_⟩
    · intro name
      rw [hnames, and_iff_left hfree]
    · intro hname
      exact absurd hname.exists_holds hmagic

/-- The methods `__getConfig` and `config`, each with an unused parameter `$a`. -/
def sampleMethods : Tree :=
  ((((((single "a.php" { kind := .classType, image := .str "C" }).extend 0
    (by decide) { kind := .method, image := .str "__getConfig" }).extend 1
    (by decide) { kind := .formalParameters }).extend 2
    (by decide) { kind := .variableDeclarator, image := .str "$a" }).extend 0
    (by decide) { kind := .method, image := .str "config" }).extend 4
    (by decide) { kind := .formalParameters }).extend 5
    (by decide) { kind := .variableDeclarator, image := .str "$a" }

def sampleGetter : sampleMethods.Pos := ⟨1, by decide⟩

def sampleOrdinary : sampleMethods.Pos := ⟨4, by decide⟩

theorem textual_sampleMethods : sampleMethods.Textual := by
  unfold sampleMethods
  repeat apply Textual.extend
  · exact textual_single ⟨_, rfl⟩
  all_goals exact ⟨_, rfl⟩

theorem not_uses_sampleMethods (i : sampleMethods.Pos) (name : String) :
    ¬ Uses sampleMethods i name := by
  have hkinds : ∀ j, sampleMethods.kind j ≠ .variableUse ∧
      sampleMethods.kind j ≠ .compoundVariable ∧
      sampleMethods.kind j ≠ .functionPostfix := by
    decide
  intro huses
  cases huses with
  | variableUse v _ hkind => exact (hkinds v).1 hkind
  | compound c _ _ hkind => exact (hkinds c).2.1 hkind
  | compact call _ _ hkind => exact (hkinds call).2.2 hkind
  | allArguments call _ hkind => exact (hkinds call).2.2 hkind

theorem method_checked_iff_holds_no_magic_name_sample :
    ¬ IsMagicName (sampleMethods.name sampleGetter) ∧
      "$a" ∈ (declarators sampleMethods sampleGetter).map sampleMethods.name ∧
      ¬ Uses sampleMethods sampleGetter "$a" ∧
      check sampleMethods sampleGetter = .ok [] ∧
      ∃ found : List sampleMethods.Pos,
        check sampleMethods sampleOrdinary = .ok (found.map (finding sampleMethods)) ∧
          "$a" ∈ found.map sampleMethods.name := by
  have hcomment (i : sampleMethods.Pos) : sampleMethods.docComment i = .ok "" := by
    revert i
    decide +kernel
  have hinherit : ¬ Text.Holds "@inheritdoc" "" := by
    rw [← Text.occursCaseless_iff_holds]
    decide
  have hgetter : Text.Holds "__get" (sampleMethods.name sampleGetter) := by
    rw [← Text.occursCaseless_iff_holds]
    decide +kernel
  have hordinary : ∀ magic ∈ magicNames,
      ¬ Text.Holds magic (sampleMethods.name sampleOrdinary) := by
    simp only [← Text.occursCaseless_iff_holds]
    decide +kernel
  refine ⟨?_, by decide +kernel, not_uses_sampleMethods _ _, ?_, ?_⟩
  · unfold IsMagicName
    decide +kernel
  · obtain ⟨found, hcheck, hnames, _⟩ :=
      method_checked_iff_holds_no_magic_name sampleMethods textual_sampleMethods sampleGetter
        rfl (by decide) (by decide) (hcomment _) hinherit
    have hnone : found = [] := by
      apply List.eq_nil_iff_forall_not_mem.mpr
      intro d hd
      have hfree := ((hnames _).mp (List.mem_map_of_mem hd)).2.2
      exact hfree "__get" (by decide) hgetter
    rw [hcheck, hnone]
    rfl
  · obtain ⟨found, hcheck, hnames, _⟩ :=
      method_checked_iff_holds_no_magic_name sampleMethods textual_sampleMethods sampleOrdinary
        rfl (by decide) (by decide) (hcomment _) hinherit
    refine ⟨found, hcheck, (hnames "$a").mpr ⟨?_, not_uses_sampleMethods _ _, hordinary⟩⟩
    decide +kernel

end UnusedParameter

end TreeLint
