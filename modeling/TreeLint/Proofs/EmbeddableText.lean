import TreeLint.Proofs.ReportDocument

/-!
# The text of a report inside markup

Whatever a report holds, its text, if it has one, is ASCII without angle
brackets, ampersands and single quotes.  Double quotes are left, but only around
strings: the text falls into string tokens and single characters in one way, and
none of the tokens has a quote in it.
-/

namespace TreeLint.Json

/-! ## Cutting a text into tokens -/

/-- A text, with the bodies of its string tokens from left to right. -/
inductive Tokens : List Char → List (List Char) → Prop where
  | nil : Tokens [] []
  | outside {c : Char} {rest : List Char} {bodies : List (List Char)}
      (hquote : c ≠ '\x22') (hrest : Tokens rest bodies) :
      Tokens (c :: rest) bodies
  | token {inner rest : List Char} {bodies : List (List Char)}
      (hinner : StringBody inner) (hrest : Tokens rest bodies) :
      Tokens ('\x22' :: (inner ++ '\x22' :: rest)) (inner :: bodies)

theorem Tokens.append
    {text more : List Char} {bodies bodies' : List (List Char)}
    (h : Tokens text bodies) (hmore : Tokens more bodies') :
    Tokens (text ++ more) (bodies ++ bodies') := by
  induction h with
  | nil => exact hmore
  | outside hquote hrest ih => exact .outside hquote ih
  | @token inner rest bodies hinner hrest ih =>
      rw [List.cons_append, List.append_assoc]
      exact .token hinner ih

theorem Tokens.unique
    {text : List Char} {bodies others : List (List Char)}
    (h : Tokens text bodies) (hothers : Tokens text others) : others = bodies := by
  induction h generalizing others with
  | nil =>
      cases hothers
      rfl
  | outside hquote hrest ih =>
      cases hothers with
      | outside _ hrest' => exact ih hrest'
      | token _ _ => exact absurd rfl hquote
  | @token inner rest bodies hinner hrest ih =>
      generalize htext : inner ++ '\x22' :: rest = text at hothers
      cases hothers with
      | outside hquote _ => exact absurd rfl hquote
      | @token inner' rest' bodies' hinner' hrest' =>
          -- A token ends where its body ends, so the two tokens are the same.
          have hfirst := Markup.token?_of_stringBody hinner rest
          rw [htext, Markup.token?_of_stringBody hinner' rest'] at hfirst
          cases hfirst
          rw [ih hrest']

/-- The quote between the two texts begins a string token. -/
def Opens (before after : List Char) : Prop :=
  ∃ inner rest earlier later,
    after = inner ++ '\x22' :: rest ∧ StringBody inner ∧
      Tokens before earlier ∧ Tokens rest later

/-- The quote between the two texts ends a string token. -/
def Closes (before after : List Char) : Prop :=
  ∃ start inner earlier later,
    before = start ++ '\x22' :: inner ∧ StringBody inner ∧
      Tokens start earlier ∧ Tokens after later

def Delimits (before after : List Char) : Prop := Opens before after ∨ Closes before after

theorem Delimits.behind
    {front before after : List Char} {bodies : List (List Char)}
    (hfront : Tokens front bodies) (h : Delimits before after) :
    Delimits (front ++ before) after := by
  rcases h with ⟨inner, rest, earlier, later, hafter, hinner, hbefore, hrest⟩ |
    ⟨start, inner, earlier, later, rfl, hinner, hstart, hafter⟩
  · exact Or.inl ⟨inner, rest, _, later, hafter, hinner, hfront.append hbefore, hrest⟩
  · exact Or.inr ⟨front ++ start, inner, _, later, (List.append_assoc _ _ _).symm, hinner,
      hfront.append hstart, hafter⟩

/-- The quotes around a body without quotes are the first two of a text. -/
theorem first_quotes
    {inner rest before after : List Char} (hinner : '\x22' ∉ inner)
    (htext : '\x22' :: (inner ++ '\x22' :: rest) = before ++ '\x22' :: after) :
    (before = [] ∧ after = inner ++ '\x22' :: rest) ∨
      (before = '\x22' :: inner ∧ after = rest) ∨
      ∃ between, before = '\x22' :: (inner ++ ['\x22']) ++ between ∧
        rest = between ++ '\x22' :: after := by
  cases before with
  | nil => exact Or.inl ⟨rfl, (List.cons.inj htext).2.symm⟩
  | cons b before =>
      obtain ⟨rfl, hbehind⟩ := List.cons.inj htext
      -- The quote in question stands behind the body, or it would have to be in it.
      rcases List.append_eq_append_iff.mp hbehind with
        ⟨between, rfl, hrest⟩ | ⟨between, rfl, hafter⟩
      · cases between with
        | nil =>
            obtain ⟨-, rfl⟩ := List.cons.inj hrest
            exact Or.inr (Or.inl ⟨by rw [List.append_nil], rfl⟩)
        | cons q between =>
            obtain ⟨rfl, rfl⟩ := List.cons.inj hrest
            exact Or.inr (Or.inr ⟨between, by simp, rfl⟩)
      · cases between with
        | nil =>
            obtain ⟨-, rfl⟩ := List.cons.inj hafter
            exact Or.inr (Or.inl ⟨by rw [List.append_nil], rfl⟩)
        | cons q between =>
            obtain ⟨rfl, -⟩ := List.cons.inj hafter
            exact absurd (List.mem_append_right _ List.mem_cons_self) hinner

theorem Tokens.delimits
    {text : List Char} {bodies : List (List Char)}
    (h : Tokens text bodies) (hbodies : ∀ inner ∈ bodies, '\x22' ∉ inner)
    {before after : List Char} (htext : text = before ++ '\x22' :: after) :
    Delimits before after := by
  induction h generalizing before with
  | nil => simp at htext
  | @outside c rest bodies hquote hrest ih =>
      cases before with
      | nil => exact absurd (List.cons.inj htext).1 hquote
      | cons b before =>
          obtain ⟨rfl, hrest'⟩ := List.cons.inj htext
          exact (ih hbodies hrest').behind (.outside hquote .nil)
  | @token inner rest bodies hinner hrest ih =>
      rw [List.forall_mem_cons] at hbodies
      rcases first_quotes hbodies.1 htext with ⟨rfl, rfl⟩ | ⟨rfl, rfl⟩ | ⟨between, rfl, hbetween⟩
      · exact Or.inl ⟨inner, rest, [], bodies, rfl, hinner, .nil, hrest⟩
      · exact Or.inr ⟨[], inner, [], bodies, rfl, hinner, .nil, hrest⟩
      · exact (ih hbodies.2 hbetween).behind (.token hinner .nil)

/-! ## Safe texts -/

theorem allMarks_unicodeEscape (capital : Bool) (code : Nat) :
    AllMarks (unicodeEscape capital code) := by
  unfold AllMarks unicodeEscape
  rw [List.forall_mem_cons, List.forall_mem_cons]
  refine ⟨by decide, by decide, fun c hc => ?_⟩
  obtain ⟨d, hd, rfl⟩ := Text.Hex.exists_of_mem_digits hc
  exact (isMark_digit capital d hd).1

theorem isMark_simpleEscape
    {e c : Char} (hread : simpleEscape? e = some c) (hquote : c ≠ '\x22') : IsMark e := by
  unfold simpleEscape? at hread
  split at hread
  · cases hread
    exact absurd rfl hquote
  all_goals first | decide | cases hread

theorem allMarks_escape (spread : Spread) (c : Char) :
    AllMarks ((Style.embeddable spread).escape c) := by
  have hescaped := (Style.embeddable spread).escaped_escape c
  generalize (Style.embeddable spread).escape c = text at hescaped
  cases hescaped with
  | simple e hguard hread =>
      have hquote : c ≠ '\x22' := by
        rintro rfl
        exact hguard (show '\x22' ∈ ['<', '>', '&', '\x27', '\x22'] by decide)
      exact List.forall_mem_cons.mpr
        ⟨by decide, List.forall_mem_singleton.mpr (isMark_simpleEscape hread hquote)⟩
  | unit capital hcode => exact allMarks_unicodeEscape capital c.toNat
  | ordinary hguard hquote hslash hprint =>
      exact List.forall_mem_singleton.mpr ⟨by omega, hguard⟩
  | pair hcode =>
      exact List.forall_mem_append.mpr
        ⟨allMarks_unicodeEscape false _, allMarks_unicodeEscape false _⟩

theorem Parallel.exists_tokens
    {spread : Spread} {text text' : List Char} (h : Parallel spread text text') :
    ∃ bodies, Tokens text' bodies ∧ ∀ inner ∈ bodies, '\x22' ∉ inner := by
  induction h with
  | nil => exact ⟨[], .nil, by simp⟩
  | @mark c text text' hc hrest ih =>
      obtain ⟨bodies, htokens, hbodies⟩ := ih
      have hquote : c ≠ '\x22' := by
        rintro rfl
        exact absurd hc (by decide)
      exact ⟨bodies, htokens.outside hquote, hbodies⟩
  | string s hrest ih =>
      obtain ⟨bodies, htokens, hbodies⟩ := ih
      rw [Style.string_append]
      refine ⟨_, htokens.token (stringBody_flatMap_escape _ s.toList), ?_⟩
      rw [List.forall_mem_cons]
      refine ⟨fun hmem => ?_, hbodies⟩
      obtain ⟨c, _, hc⟩ := List.mem_flatMap.mp hmem
      exact absurd (allMarks_escape spread c _ hc) (by decide)

theorem Parallel.isMark
    {spread : Spread} {text text' : List Char} (h : Parallel spread text text') :
    ∀ c ∈ text', IsMark c ∨ c = '\x22' := by
  induction h with
  | nil => simp
  | mark hc hrest ih =>
      rw [List.forall_mem_cons]
      exact ⟨Or.inl hc, ih⟩
  | string s hrest ih =>
      rw [Style.string_append, List.forall_mem_cons, List.forall_mem_append, List.forall_mem_cons]
      refine ⟨Or.inr rfl, fun d hd => ?_, Or.inr rfl, ih⟩
      obtain ⟨c, _, hc⟩ := List.mem_flatMap.mp hd
      exact Or.inl (allMarks_escape spread c d hc)

/-- A text that can stand inside markup: ASCII without the characters that markup reads, cut into
tokens in exactly one way, with quotes only at the two ends of string tokens. -/
structure Embeddable (text : List Char) : Prop where
  ascii : ∀ c ∈ text, c.toNat < 0x80
  unmarked : ∀ c ∈ ['<', '>', '&', '\x27'], c ∉ text
  cut : ∃! bodies, Tokens text bodies
  quoteless : ∀ bodies, Tokens text bodies → ∀ inner ∈ bodies, '\x22' ∉ inner
  delimits : ∀ before after, text = before ++ '\x22' :: after → Delimits before after

theorem Parallel.embeddable
    {spread : Spread} {text text' : List Char} (h : Parallel spread text text') :
    Embeddable text' := by
  obtain ⟨bodies, htokens, hbodies⟩ := h.exists_tokens
  refine ⟨?_, ?_, ⟨bodies, htokens, fun _ => htokens.unique⟩, ?_, ?_⟩
  · intro c hc
    rcases h.isMark c hc with hmark | rfl
    · exact hmark.1
    · decide
  · intro c hc hmem
    rcases h.isMark c hmem with hmark | rfl
    · exact hmark.2 (List.mem_append_left ['\x22'] hc)
    · exact absurd hc (by decide)
  · intro others hothers
    rw [htokens.unique hothers]
    exact hbodies
  · intro before after htext
    exact htokens.delimits hbodies htext

end TreeLint.Json

namespace TreeLint.Report

/-- The text of every report can stand inside markup.  A report has one when the indentation fits
and the integers of its violations can be written out. -/
theorem render_embeddable (report : Report) (format : Format) :
    ((∃ text, report.render format = .ok text) ↔
        format.spread.fits = true ∧
          ∀ v ∈ report.violations, (violationValue v).isWritable = true) ∧
      ∀ text, report.render format = .ok text → Json.Embeddable text.toList := by
  refine ⟨?_, fun text htext => ?_⟩
  · rw [← isWritable_document_iff report format]
    constructor
    · rintro ⟨text, htext⟩
      obtain ⟨hspread, hdocument, -⟩ := render_eq_ok_iff.mp htext
      exact ⟨hspread, hdocument⟩
    · rintro ⟨hspread, hdocument⟩
      exact ⟨_, render_eq_ok_iff.mpr ⟨hspread, hdocument, String.toList_ofList⟩⟩
  · obtain ⟨-, -, hlist⟩ := render_eq_ok_iff.mp htext
    have hdocument := Json.parallel_value format.spread 0 (report.document format)
    have hparallel := hdocument.append (.marks (show Json.AllMarks ['\n'] by decide))
    rw [hlist]
    exact hparallel.embeddable

theorem render_embeddable_sample :
    ∃ text, (after sampleSteps).render { timestamp := "", spread := .oneLine } = .ok text ∧
      Json.Embeddable text.toList := by
  obtain ⟨hiff, hsafe⟩ := render_embeddable (after sampleSteps)
    { timestamp := "", spread := .oneLine }
  have hwritable : ∀ v ∈ (after sampleSteps).violations, (violationValue v).isWritable = true :=
    fun v hv => isWritable_violationValue
      ((filed_after regular_sampleSteps).forall_mem_violations v hv) (by decide)
  obtain ⟨text, htext⟩ := hiff.mpr ⟨rfl, hwritable⟩
  exact ⟨text, htext, hsafe text htext⟩

end TreeLint.Report
