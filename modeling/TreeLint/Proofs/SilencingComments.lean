import TreeLint.Proofs.CommentEdits
import TreeLint.Proofs.DirectiveScan

/-!
# Which rules a comment silences

A directive ends at the first closing parenthesis after its at sign.  One that
begins in front of a complete directive therefore cannot run past it, and text
at the end of a comment can only go on with what stands behind the last complete
directive.  So whatever is added there, the directives of a comment stay, and
with them what they silence.

A value that has nothing but spaces and double quotes is cut down to the empty
text, which is a part of every name.  A blank suppression is thus not ignored: it
silences all rules, and a run hands over no violation from the subtree of its
declaration.
-/

namespace TreeLint

namespace Directive

/-! ## Text at the end of a comment -/

theorem Piece.exists_text_eq (piece : Piece) :
    ∃ opening, piece.text = opening ++ [')'] ∧ ')' ∉ opening := by
  have hname : ')' ∉ piece.name := by
    intro hmem
    have hchar : Text.isNameChar ')' = true := isNameChar_iff.mpr (piece.chars ')' hmem)
    exact absurd hchar (by decide)
  refine ⟨'@' :: (piece.name ++ '(' :: piece.value), ?_, ?_⟩
  · simp [Piece.text]
  · simp [hname, piece.unclosed]

/-- A directive that begins in front of a closing parenthesis ends there at the latest. -/
theorem StartsDirective.of_closed
    {front rest : List Char}
    (hclosed : ')' ∈ front)
    (h : StartsDirective (front ++ rest)) :
    StartsDirective front := by
  obtain ⟨piece, hpiece⟩ := h
  refine ⟨piece, ?_⟩
  rcases List.prefix_or_prefix_of_prefix hpiece (List.prefix_append front rest) with
    hshort | hlong
  · exact hshort
  · obtain ⟨opening, htext, hopen⟩ := piece.exists_text_eq
    rw [htext, List.prefix_concat_iff] at hlong
    rcases hlong with heq | hinside
    · rw [htext, heq]
    · exact absurd (hinside.subset hclosed) hopen

theorem Clear.append_right
    {gap rest : List Char} {piece : Piece}
    (h : Clear gap (piece.text ++ rest)) (more : List Char) :
    Clear gap (piece.text ++ (rest ++ more)) := by
  intro front back hgap hback hstarts
  have hclosed : ')' ∈ back ++ piece.text := by simp [Piece.text]
  rw [← List.append_assoc] at hstarts
  obtain ⟨other, hother⟩ := hstarts.of_closed hclosed
  apply h front back hgap hback
  refine ⟨other, ?_⟩
  rw [← List.append_assoc]
  exact hother.trans (List.prefix_append (back ++ piece.text) rest)

/-- What is added at the end of a text is searched together with the open end of the text, in which
there is no directive yet. -/
theorem Decomposes.scan_append
    {text : List Char} {pieces : List Piece}
    (h : Decomposes text pieces) (more : List Char) :
    ∃ closed openEnd,
      text = closed ++ openEnd ∧
        scan openEnd = [] ∧
        scan (text ++ more) = scan text ++ scan (openEnd ++ more) := by
  -- The induction is on the cut of the text: the open end is its last gap.
  induction h with
  | @last gap hclear =>
      have hnone : scan gap = [] := (Decomposes.last hclear).scan_eq
      refine ⟨[], gap, rfl, hnone, ?_⟩
      rw [hnone, List.nil_append]
  | @next gap rest piece pieces hclear hrest ih =>
      obtain ⟨closed, openEnd, htext, hnone, hscan⟩ := ih
      refine ⟨gap ++ (piece.text ++ closed), openEnd, ?_, hnone, ?_⟩
      · simp only [htext, List.append_assoc]
      · have hmore : scan (gap ++ (piece.text ++ (rest ++ more))) =
            make piece.name piece.value :: scan (rest ++ more) := by
          rw [(hclear.append_right more).scan_append, scan_piece]
        have hhere : scan (gap ++ (piece.text ++ rest)) =
            make piece.name piece.value :: scan rest := by
          rw [hclear.scan_append, scan_piece]
        simp only [List.append_assoc]
        rw [hmore, hhere, hscan, List.cons_append]

theorem exists_parse_append (comment more : String) :
    ∃ closed openEnd : String,
      comment = closed ++ openEnd ∧
        parse openEnd = [] ∧
        parse (comment ++ more) = parse comment ++ parse (openEnd ++ more) := by
  obtain ⟨pieces, hpieces⟩ := exists_decomposes comment.toList
  obtain ⟨closed, openEnd, htext, hnone, hscan⟩ := hpieces.scan_append more.toList
  refine ⟨String.ofList closed, String.ofList openEnd, ?_, ?_, ?_⟩
  · rw [← String.ofList_append, ← htext, String.ofList_toList]
  · unfold parse
    rw [String.toList_ofList]
    exact hnone
  · unfold parse
    rw [String.toList_append, String.toList_append, String.toList_ofList]
    exact hscan

/-- Text at the end of a comment leaves the directives of the comment as they are, in front of any
others, so that every rule that was silenced still is.  The others begin in the open end of the
comment, in which there was no directive, or in the text. -/
theorem appended_text_keeps_directives (comment more : String) :
    parse comment <+: parse (comment ++ more) ∧
      (∃ closed openEnd : String,
        comment = closed ++ openEnd ∧
          parse openEnd = [] ∧
          parse (comment ++ more) = parse comment ++ parse (openEnd ++ more)) ∧
      ∀ rule : Rule,
        (∃ directive ∈ parse comment, directive.suppresses rule.name = true) →
          ∃ directive ∈ parse (comment ++ more), directive.suppresses rule.name = true := by
  obtain ⟨closed, openEnd, hcomment, hnone, hparse⟩ := exists_parse_append comment more
  have hkept : parse comment <+: parse (comment ++ more) := by
    rw [hparse]
    exact List.prefix_append _ _
  refine ⟨hkept, ⟨closed, openEnd, hcomment, hnone, hparse⟩, ?_⟩
  rintro rule ⟨directive, hmem, hsuppresses⟩
  exact ⟨directive, hkept.subset hmem, hsuppresses⟩

/-- A suppression, and a directive that is still open. -/
def sampleOpenComment : String := "@SuppressWarnings(PMD) @see(a"

theorem appended_text_keeps_directives_sample :
    parse sampleOpenComment = [⟨"SuppressWarnings", "PMD"⟩] ∧
      parse (sampleOpenComment ++ " @b) @SuppressWarnings") =
        [⟨"SuppressWarnings", "PMD"⟩, ⟨"see", "a @b"⟩] ∧
      ∃ directive ∈ parse (sampleOpenComment ++ " @b) @SuppressWarnings"),
        directive.suppresses UnusedParameter.rule.name = true := by
  refine ⟨by decide +kernel, by decide +kernel, ?_⟩
  have hsilenced : ∃ directive ∈ parse sampleOpenComment,
      directive.suppresses UnusedParameter.rule.name = true := by
    decide +kernel
  exact (appended_text_keeps_directives sampleOpenComment _).2.2 UnusedParameter.rule hsilenced

/-! ## Blank suppressions -/

/-- The name of the piece is the one that silences rules, in any case. -/
def Piece.IsSuppression (piece : Piece) : Prop :=
  Text.lower (String.ofList piece.name) = "suppresswarnings"

def Piece.IsBlank (piece : Piece) : Prop :=
  ∀ c ∈ piece.value, c = '\x22' ∨ c = ' '

theorem Piece.IsBlank.value_make
    {piece : Piece} (h : piece.IsBlank) :
    (make piece.name piece.value).value = "" := by
  have hpadding : ∀ c ∈ piece.value, isPadding c = true := by
    intro c hc
    simpa [isPadding] using h c hc
  have htrim : Text.trim isPadding piece.value = [] := by
    rw [Text.trim, List.dropWhile_eq_nil_iff.mpr hpadding]
    rfl
  simp [make, htrim]

theorem covers_empty (rule : String) : covers "" rule = true := by
  have hoccurs (text : List Char) : Text.occursIn [] text = true := by
    cases text with
    | nil => rfl
    | cons c text => simp [Text.occursIn]
  have hlower : (Text.lower "").toList = [] := by decide
  simp [covers, hlower, hoccurs]

theorem Piece.isSuppression_of_suppresses
    {piece : Piece} {rule : String}
    (h : (make piece.name piece.value).suppresses rule = true) :
    piece.IsSuppression := by
  unfold suppresses at h
  rw [Bool.and_eq_true, beq_iff_eq] at h
  exact h.1

theorem Piece.IsSuppression.suppresses_of_blank
    {piece : Piece}
    (h : piece.IsSuppression) (hblank : piece.IsBlank) (rule : String) :
    (make piece.name piece.value).suppresses rule = true := by
  unfold suppresses
  rw [hblank.value_make, covers_empty, Bool.and_true, beq_iff_eq]
  exact h

theorem exists_suppresses_iff_of_blank
    {comment : String} {pieces : List Piece}
    (hpieces : Decomposes comment.toList pieces)
    (hblank : ∀ piece ∈ pieces, piece.IsSuppression → piece.IsBlank)
    (rule : String) :
    (∃ directive ∈ parse comment, directive.suppresses rule = true) ↔
      ∃ piece ∈ pieces, piece.IsSuppression := by
  unfold parse
  rw [hpieces.scan_eq]
  constructor
  · rintro ⟨directive, hmem, hsuppresses⟩
    obtain ⟨piece, hpiece, rfl⟩ := List.mem_map.mp hmem
    exact ⟨piece, hpiece, Piece.isSuppression_of_suppresses hsuppresses⟩
  · rintro ⟨piece, hpiece, hsuppression⟩
    refine ⟨make piece.name piece.value, List.mem_map_of_mem hpiece, ?_⟩
    exact hsuppression.suppresses_of_blank (hblank piece hpiece hsuppression) rule

end Directive

namespace Suppression

open Directive

/-- Let all suppressions of a comment be blank.  Then it silences a rule exactly if it has a
suppression at all, whatever the rule, and no run hands over a violation on a declaration with such
a comment or below it. -/
theorem blank_suppression_silences_every_rule
    (comment : String) (pieces : List Piece)
    (hpieces : Decomposes comment.toList pieces)
    (hblank : ∀ piece ∈ pieces, piece.IsSuppression → piece.IsBlank) :
    (∀ rule : Rule,
      (∃ directive ∈ parse comment, directive.suppresses rule.name = true) ↔
        ∃ piece ∈ pieces, piece.IsSuppression) ∧
      ∀ (rules : List Rule) (t : Tree) (events : List Event),
        Dispatch.run rules t = .ok events →
        ∀ v ∈ (Batch.ofEvents events).violations,
          ∀ d ∈ v.tree.lineage v.node,
            (v.tree.kind d).isDeclaration = true →
            v.tree.docComment d = .ok comment →
            ∀ piece ∈ pieces, ¬ piece.IsSuppression := by
  have hiff := exists_suppresses_iff_of_blank hpieces hblank
  refine ⟨fun rule => hiff rule.name, ?_⟩
  intro rules t events hrun v hv d hd hkind hcomment piece hpiece hsuppression
  obtain ⟨rule, _, _, _, _, _, hfree⟩ := Dispatch.mem_violations_run hrun hv
  have hsilences : Silences v.tree rule.name d :=
    ⟨hkind, comment, hcomment, (hiff rule.name).mpr ⟨piece, hpiece, hsuppression⟩⟩
  exact hfree ⟨d, hd, hsilences⟩

def sampleBlankPiece : Piece where
  name := "SuppressWarnings".toList
  value := "\x22 \x22".toList
  two_le := by decide
  chars := by
    have hname : "SuppressWarnings".toList.all Text.isNameChar = true := by decide
    exact fun c hc => isNameChar_iff.mp (List.all_eq_true.mp hname c hc)
  start := by
    intro c hc
    cases hc
    exact (isNameStart_iff.mp (by decide)).2
  value_ne := by decide
  unclosed := by decide

def sampleBlankComment : String := "@SuppressWarnings(\x22 \x22)"

/-- A function with an unused parameter and a blank suppression. -/
def sampleBlankFunction : Tree :=
  ((Tree.single "a.php"
    { kind := .function, image := .str "f",
      attributes := [("docComment", .str sampleBlankComment)] }).extend 0
    (by decide) { kind := .formalParameters }).extend 1
    (by decide) { kind := .variableDeclarator, image := .str "$a" }

theorem blank_suppression_silences_every_rule_sample :
    Decomposes sampleBlankComment.toList [sampleBlankPiece] ∧
      sampleBlankPiece.IsSuppression ∧
      sampleBlankPiece.IsBlank ∧
      (∃ directive ∈ parse sampleBlankComment,
        directive.suppresses UnusedParameter.rule.name = true) ∧
      UnusedParameter.reported sampleBlankFunction sampleBlankFunction.root =
        .ok [⟨2, by decide⟩] ∧
      ∃ events, Dispatch.run [UnusedParameter.rule] sampleBlankFunction = .ok events ∧
        (Batch.ofEvents events).violations = [] := by
  have htext : sampleBlankComment.toList = [] ++ (sampleBlankPiece.text ++ []) := by decide
  have hpieces : Decomposes sampleBlankComment.toList [sampleBlankPiece] := by
    rw [htext]
    exact .next (clear_nil _) (.last (clear_nil []))
  have hsuppression : sampleBlankPiece.IsSuppression := by
    unfold Piece.IsSuppression
    decide +kernel
  have hblank : sampleBlankPiece.IsBlank := by
    have hvalue : sampleBlankPiece.value.all isPadding = true := by decide
    intro c hc
    simpa [isPadding] using List.all_eq_true.mp hvalue c hc
  obtain ⟨hsilences, hhidden⟩ :=
    blank_suppression_silences_every_rule sampleBlankComment [sampleBlankPiece] hpieces
      (by simpa using fun _ => hblank)
  have hcomment :
      sampleBlankFunction.docComment sampleBlankFunction.root = .ok sampleBlankComment := by
    decide +kernel
  have hread : sampleBlankFunction.Readable := Tree.readable_of_forall_isOk (by decide +kernel)
  obtain ⟨events, hrun⟩ := Dispatch.exists_run (Catalog.legible (fun _ hrule => hrule) hread)
  refine ⟨hpieces, hsuppression, hblank, ?_, rfl, events, hrun, ?_⟩
  · exact (hsilences UnusedParameter.rule).mpr ⟨_, List.mem_singleton_self _, hsuppression⟩
  · apply List.eq_nil_iff_forall_not_mem.mpr
    intro v hv
    have hfree := hhidden [UnusedParameter.rule] sampleBlankFunction events hrun v hv
    rw [UnusedParameter.violations_eq_map_flagged hrun] at hv
    obtain ⟨x, _, rfl⟩ := List.mem_map.mp hv
    exact hfree sampleBlankFunction.root (Tree.root_mem_lineage x) rfl hcomment
      sampleBlankPiece (List.mem_singleton_self _) hsuppression

end Suppression

end TreeLint
