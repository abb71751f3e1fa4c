import TreeLint.Proofs.FileReading
import TreeLint.Settings.File

/-!
# Settings from the nearest project file

The search for a project file goes from a directory to the top and stops at the
first directory in which one stands.  Only that file counts.  If it cannot be
read, or if it is not TOML, the settings are empty, and so they are where the
file has no section for them.

Not every project file is dealt with in this way.  Bytes that are not UTF-8, an
integer of too many digits, values that are nested too deeply, and a value in the
place of the tools that counts as true but is no table end the search with a
failure, and so does a path that the file system does not take.  Nothing else does.
-/

namespace TreeLint.Settings

/-- The path of the project file of a directory. -/
def projectFile (directory : Place) : Path := ⟨.top, directory ++ [fileName]⟩

/-- The search from a place has come up to a directory: no project file stands nearer. -/
structure Reached (store : Store) (place directory : Place) : Prop where
  above : directory <+: place
  none_nearer : ∀ nearer, nearer <+: place → directory.length < nearer.length →
    store.isThere (projectFile nearer) = .ok false

/-- The project file that counts for a start directory is the one of this directory. -/
structure Nearest (store : Store) (start : Path) (directory : Place) : Prop
    extends Reached store (start.resolve store.working) directory where
  usable : start.hasNull = false
  there : store.isThere (projectFile directory) = .ok true

/-- The bytes of a project file are the text of a document. -/
def Parses (bytes : ByteArray) (document : Fields) : Prop :=
  ∃ text, Text.Utf8.decode bytes = .ok text ∧ Toml.read text = .ok document

/-- The section with the settings is there, and it is a table. -/
def HasSection (document fields : Fields) : Prop :=
  ∃ tools, document.get? toolName = some (.table tools) ∧
    Fields.get? tools sectionName = some (.table fields)

/-- The nearest project file can be read and parsed, and it has a section with these fields. -/
def Configures (store : Store) (start : Path) (fields : Fields) : Prop :=
  ∃ directory bytes document,
    Nearest store start directory ∧
      store.readBytes (projectFile directory) = .ok bytes ∧
      Parses bytes document ∧
      HasSection document fields

/-- What in a project file goes past the handling of files that cannot be used. -/
inductive Unhandled (bytes : ByteArray) : FileFault → Prop where
  | encoding {fault : Text.Utf8.Fault}
      (hdecode : Text.Utf8.decode bytes = .error fault) :
      Unhandled bytes (.encoding fault)
  | longInteger {text : List Char} {count : Nat}
      (hdecode : Text.Utf8.decode bytes = .ok text)
      (hread : Toml.read text = .error (.tooManyDigits count)) :
      Unhandled bytes (.tooManyDigits count)
  | deepNesting {text : List Char}
      (hdecode : Text.Utf8.decode bytes = .ok text)
      (hread : Toml.read text = .error .tooDeep) :
      Unhandled bytes .tooDeep
  | foreignTools {document : Fields} {v : Value}
      (hparses : Parses bytes document)
      (htool : document.get? toolName = some v)
      (htrue : v.truthy = true)
      (hforeign : ∀ tools, v ≠ .table tools) :
      Unhandled bytes (.notATable v.typeName)

/-- What ends a search with a failure. -/
inductive Escapes (store : Store) (start : Path) : FileFault → Prop where
  | nullByte
      (hnull : start.hasNull = true) :
      Escapes store start (.path ⟨.nullByte, start⟩)
  | longName {directory : Place} {error : FileError}
      (husable : start.hasNull = false)
      (hreached : Reached store (start.resolve store.working) directory)
      (herror : store.isThere (projectFile directory) = .error error) :
      Escapes store start (.path error)
  | content {directory : Place} {bytes : ByteArray} {fault : FileFault}
      (hnearest : Nearest store start directory)
      (hbytes : store.readBytes (projectFile directory) = .ok bytes)
      (hfault : Unhandled bytes fault) :
      Escapes store start fault

variable {store : Store}

/-! ## The search -/

/-- A search along paths ends at the first of them for which the answer is not that nothing stands
there. -/
theorem firstThere?_cases (store : Store) (paths : List Path) :
    (∃ before path after, paths = before ++ path :: after ∧
      (∀ earlier ∈ before, store.isThere earlier = .ok false) ∧
      store.isThere path ≠ .ok false ∧
      firstThere? store paths = (store.isThere path).map fun _ => some path) ∨
      (∀ path ∈ paths, store.isThere path = .ok false) ∧
        firstThere? store paths = .ok none := by
  fun_induction firstThere? store paths with
  | case1 => exact Or.inr ⟨by simp, rfl⟩
  | case2 path rest error hthere =>
      refine Or.inl ⟨[], path, rest, rfl, by simp, ?_, ?_⟩
      · simp [hthere]
      · rw [hthere]
        rfl
  | case3 path rest hthere =>
      refine Or.inl ⟨[], path, rest, rfl, by simp, ?_, ?_⟩
      · simp [hthere]
      · rw [hthere]
        rfl
  | case4 path rest hthere ih =>
      rcases ih with ⟨before, found, after, hrest, hbefore, hfound⟩ | ⟨hnone, hanswer⟩
      · refine Or.inl ⟨path :: before, found, after, ?_, ?_, hfound⟩
        · rw [hrest, List.cons_append]
        · exact List.forall_mem_cons.mpr ⟨hthere, hbefore⟩
      · exact Or.inr ⟨List.forall_mem_cons.mpr ⟨hthere, hnone⟩, hanswer⟩

theorem mem_upwards_iff {place directory : Place} :
    directory ∈ upwards place ↔ directory <+: place := by
  unfold upwards
  simp only [List.mem_map, List.mem_reverse, List.mem_range, Nat.lt_succ_iff]
  constructor
  · rintro ⟨n, _, rfl⟩
    exact List.take_prefix n place
  · intro hprefix
    exact ⟨directory.length, hprefix.length_le, (List.prefix_iff_eq_take.mp hprefix).symm⟩

theorem descending_upwards (place : Place) :
    (upwards place).Pairwise fun inner outer => outer.length < inner.length := by
  unfold upwards
  rw [List.pairwise_map, List.pairwise_reverse]
  apply List.pairwise_lt_range.imp_of_mem
  intro n m hn hm hlt
  rw [List.mem_range] at hn hm
  rw [List.length_take, List.length_take]
  omega

theorem reached_of_candidates
    {place : Place} {path : Path} {before after : List Path}
    (hcandidates : candidates place = before ++ path :: after)
    (hbefore : ∀ earlier ∈ before, store.isThere earlier = .ok false) :
    ∃ directory, Reached store place directory ∧ path = projectFile directory := by
  obtain ⟨inner, rest, hupwards, rfl, hrest⟩ := List.map_eq_append_iff.mp hcandidates
  obtain ⟨directory, outer, rfl, rfl, _⟩ := List.map_eq_cons_iff.mp hrest
  have hdescending := descending_upwards place
  rw [hupwards, List.pairwise_append, List.pairwise_cons] at hdescending
  have habove : directory <+: place := mem_upwards_iff.mp (by simp [hupwards])
  refine ⟨directory, ⟨habove, ?_⟩, rfl⟩
  intro nearer hnearer hlonger
  -- The list gets shorter from entry to entry, so a longer directory stands before this one.
  have hmem := mem_upwards_iff.mpr hnearer
  rw [hupwards] at hmem
  rcases List.mem_append.mp hmem with hinner | hrest
  · exact hbefore _ (List.mem_map_of_mem hinner)
  · exfalso
    rcases List.mem_cons.mp hrest with heq | houter
    · rw [heq] at hlonger
      exact Nat.lt_irrefl _ hlonger
    · have hshorter := hdescending.2.1.1 nearer houter
      omega

/-- The search can end at one directory only. -/
theorem Reached.unique
    {place directory other : Place}
    (h : Reached store place directory) (hother : Reached store place other)
    (hstop : store.isThere (projectFile directory) ≠ .ok false)
    (hotherStop : store.isThere (projectFile other) ≠ .ok false) :
    directory = other := by
  rcases Nat.lt_trichotomy directory.length other.length with hlt | heq | hgt
  · exact absurd (h.none_nearer other hother.above hlt) hotherStop
  · rw [List.prefix_iff_eq_take.mp h.above, heq, ← List.prefix_iff_eq_take.mp hother.above]
  · exact absurd (hother.none_nearer directory h.above hgt) hstop

theorem Reached.self (store : Store) (place : Place) : Reached store place place where
  above := List.prefix_rfl
  none_nearer _ hnearer hlonger := absurd hnearer.length_le (Nat.not_le.mpr hlonger)

theorem search_cases (store : Store) (place : Place) :
    (∃ directory, Reached store place directory ∧
      store.isThere (projectFile directory) ≠ .ok false ∧
      firstThere? store (candidates place) =
        (store.isThere (projectFile directory)).map fun _ => some (projectFile directory)) ∨
      (∀ directory, directory <+: place →
        store.isThere (projectFile directory) = .ok false) ∧
        firstThere? store (candidates place) = .ok none := by
  rcases firstThere?_cases store (candidates place) with
    ⟨before, path, after, hcandidates, hbefore, hstop, hanswer⟩ | ⟨hnone, hanswer⟩
  · obtain ⟨directory, hreached, rfl⟩ := reached_of_candidates hcandidates hbefore
    exact Or.inl ⟨directory, hreached, hstop, hanswer⟩
  · refine Or.inr ⟨?_, hanswer⟩
    intro directory habove
    exact hnone _ (List.mem_map_of_mem (mem_upwards_iff.mpr habove))

theorem Reached.firstThere?_eq
    {place directory : Place} (h : Reached store place directory)
    (hstop : store.isThere (projectFile directory) ≠ .ok false) :
    firstThere? store (candidates place) =
      (store.isThere (projectFile directory)).map fun _ => some (projectFile directory) := by
  rcases search_cases store place with ⟨other, hother, hotherStop, hanswer⟩ | ⟨hnone, _⟩
  · rw [h.unique hother hstop hotherStop]
    exact hanswer
  · exact absurd (hnone directory h.above) hstop

/-! ## The content of a project file -/

theorem HasSection.sectionOf_eq
    {document fields : Fields} (h : HasSection document fields) :
    sectionOf document = .ok fields := by
  obtain ⟨tools, htools, hfields⟩ := h
  unfold sectionOf
  simp only [htools, hfields, Option.map_some, Option.getD_some]

theorem sectionOf_of_foreign
    {document : Fields} {v : Value}
    (htool : document.get? toolName = some v)
    (htrue : v.truthy = true)
    (hforeign : ∀ tools, v ≠ .table tools) :
    sectionOf document = .error (.notATable v.typeName) := by
  unfold sectionOf
  rw [htool]
  cases v with
  | table tools => exact absurd rfl (hforeign tools)
  | _ => exact if_pos htrue

/-- A document without the section gives an empty one, unless something else that counts as true
stands in place of the tools. -/
theorem sectionOf_cases (document : Fields) :
    (∃ v, document.get? toolName = some v ∧ v.truthy = true ∧ ∀ tools, v ≠ .table tools) ∨
      (∃ fields, HasSection document fields) ∨
      sectionOf document = .ok [] := by
  unfold sectionOf
  split
  · exact Or.inr (Or.inr rfl)
  · next tools htools =>
    right
    cases hsection : Fields.get? tools sectionName with
    | none => exact Or.inr rfl
    | some v =>
        cases v with
        | table fields => exact Or.inl ⟨fields, tools, htools, hsection⟩
        | _ => exact Or.inr rfl
  · next v hforeign htool =>
    by_cases htrue : v.truthy = true
    · exact Or.inl ⟨v, htool, htrue, hforeign⟩
    · rw [if_neg htrue]
      exact Or.inr (Or.inr rfl)

theorem parses_encode
    {cs : List Char} {document : Fields}
    (hplain : ∀ c ∈ cs, c.toNat < 0x80) (hread : Toml.read cs = .ok document) :
    Parses (Text.Utf8.encode (String.ofList cs)) document :=
  ⟨cs, Text.Utf8.decode_encode hplain, hread⟩

theorem Parses.ofBytes_eq
    {bytes : ByteArray} {document : Fields} (h : Parses bytes document) (path : Path) :
    ofBytes path bytes = (sectionOf document).map fun fields => { settings := ⟨fields⟩ } := by
  obtain ⟨text, hdecode, hread⟩ := h
  simp only [ofBytes, hdecode, hread]

theorem Unhandled.ofBytes_eq
    {bytes : ByteArray} {fault : FileFault} (h : Unhandled bytes fault) (path : Path) :
    ofBytes path bytes = .error fault := by
  cases h with
  | encoding hdecode => simp only [ofBytes, hdecode]
  | longInteger hdecode hread => simp only [ofBytes, hdecode, hread]
  | deepNesting hdecode hread => simp only [ofBytes, hdecode, hread]
  | foreignTools hparses htool htrue hforeign =>
      rw [hparses.ofBytes_eq, sectionOf_of_foreign htool htrue hforeign]
      rfl

theorem ofBytes_cases (path : Path) (bytes : ByteArray) :
    (∃ fault, Unhandled bytes fault) ∨
      (∃ document fields, Parses bytes document ∧ HasSection document fields) ∨
      ∃ loaded, ofBytes path bytes = .ok loaded ∧ loaded.settings.table = [] := by
  cases hdecode : Text.Utf8.decode bytes with
  | error fault => exact Or.inl ⟨_, .encoding hdecode⟩
  | ok text =>
      cases hread : Toml.read text with
      | error fault =>
          cases fault with
          | malformed =>
              refine Or.inr (Or.inr ⟨{ unreadable := some path }, ?_, rfl⟩)
              simp only [ofBytes, hdecode, hread]
          | tooManyDigits count => exact Or.inl ⟨_, .longInteger hdecode hread⟩
          | tooDeep => exact Or.inl ⟨_, .deepNesting hdecode hread⟩
      | ok document =>
          have hparses : Parses bytes document := ⟨text, hdecode, hread⟩
          rcases sectionOf_cases document with
            ⟨v, htool, htrue, hforeign⟩ | ⟨fields, hsection⟩ | hempty
          · exact Or.inl ⟨_, .foreignTools hparses htool htrue hforeign⟩
          · exact Or.inr (Or.inl ⟨document, fields, hparses, hsection⟩)
          · refine Or.inr (Or.inr ⟨{}, ?_, rfl⟩)
            rw [hparses.ofBytes_eq, hempty]
            rfl

/-! ## Loading -/

variable {start : Path}

theorem Nearest.load_eq
    {directory : Place} (h : Nearest store start directory) :
    load store start =
      match store.readBytes (projectFile directory) with
      | .error _ => .ok { unreadable := some (projectFile directory) }
      | .ok bytes => ofBytes (projectFile directory) bytes := by
  have hfound := h.toReached.firstThere?_eq (by simp [h.there])
  unfold load
  rw [h.usable, hfound, h.there]
  rfl

theorem Configures.load_eq
    {fields : Fields} (h : Configures store start fields) :
    load store start = .ok { settings := ⟨fields⟩ } := by
  obtain ⟨directory, bytes, document, hnearest, hbytes, hparses, hsection⟩ := h
  rw [hnearest.load_eq, hbytes]
  simp only [hparses.ofBytes_eq, hsection.sectionOf_eq]
  rfl

theorem Escapes.load_eq
    {fault : FileFault} (h : Escapes store start fault) :
    load store start = .error fault := by
  cases h with
  | nullByte hnull => exact if_pos hnull
  | longName husable hreached herror =>
      unfold load
      rw [husable, hreached.firstThere?_eq (by simp [herror]), herror]
      rfl
  | content hnearest hbytes hfault =>
      rw [hnearest.load_eq, hbytes]
      exact hfault.ofBytes_eq _

theorem Nearest.load_cases
    {directory : Place} (h : Nearest store start directory) :
    (∃ fault, Escapes store start fault) ∨
      (∃ fields, Configures store start fields) ∨
      ∃ loaded, load store start = .ok loaded ∧ loaded.settings.table = [] := by
  rw [h.load_eq]
  cases hbytes : store.readBytes (projectFile directory) with
  | error error => exact Or.inr (Or.inr ⟨_, rfl, rfl⟩)
  | ok bytes =>
      rcases ofBytes_cases (projectFile directory) bytes with
        ⟨fault, hfault⟩ | ⟨document, fields, hparses, hsection⟩ | hempty
      · exact Or.inl ⟨fault, .content h hbytes hfault⟩
      · exact Or.inr (Or.inl ⟨fields, directory, bytes, document, h, hbytes, hparses, hsection⟩)
      · exact Or.inr (Or.inr hempty)

theorem load_cases (store : Store) (start : Path) :
    (∃ fault, Escapes store start fault) ∨
      (∃ fields, Configures store start fields) ∨
      ∃ loaded, load store start = .ok loaded ∧ loaded.settings.table = [] := by
  by_cases hnull : start.hasNull = true
  · exact Or.inl ⟨_, .nullByte hnull⟩
  have husable : start.hasNull = false := by simpa using hnull
  rcases search_cases store (start.resolve store.working) with
    ⟨directory, hreached, hstop, _⟩ | ⟨_, hnone⟩
  · cases hthere : store.isThere (projectFile directory) with
    | error error => exact Or.inl ⟨_, .longName husable hreached hthere⟩
    | ok found =>
        cases found with
        | false => exact absurd hthere hstop
        | true =>
            have hnearest : Nearest store start directory := ⟨hreached, husable, hthere⟩
            exact hnearest.load_cases
  · refine Or.inr (Or.inr ⟨{}, ?_, rfl⟩)
    unfold load
    rw [husable, hnone]
    rfl

/-- Loading fails in the listed cases and in no other.  The section of the nearest project file is
what it gives if that file can be read and parsed and has one, and the settings are empty if it has
none and no listed case applies. -/
theorem load_gives_section_unless_escapes (store : Store) (start : Path) :
    (∀ fault, load store start = .error fault ↔ Escapes store start fault) ∧
      (∀ fields, Configures store start fields →
        ∃ loaded, load store start = .ok loaded ∧ loaded.settings.table = fields) ∧
      ((∀ fields, ¬ Configures store start fields) →
        (∀ fault, ¬ Escapes store start fault) →
        ∃ loaded, load store start = .ok loaded ∧ loaded.settings.table = []) := by
  have hcases := load_cases store start
  refine ⟨fun fault => ⟨?_, Escapes.load_eq⟩, ?_, ?_⟩
  · intro hload
    rcases hcases with ⟨other, hescapes⟩ | ⟨fields, hconfigures⟩ | ⟨loaded, hother, _⟩
    · have hother := hescapes.load_eq
      rw [hload] at hother
      cases hother
      exact hescapes
    · rw [hconfigures.load_eq] at hload
      cases hload
    · rw [hload] at hother
      cases hother
  · intro fields hconfigures
    exact ⟨_, hconfigures.load_eq, rfl⟩
  · intro hnone hhandled
    rcases hcases with ⟨fault, hescapes⟩ | ⟨fields, hconfigures⟩ | hempty
    · exact absurd hescapes (hhandled fault)
    · exact absurd hconfigures (hnone fields)
    · exact hempty

/-- A number in place of the tools at the top, a section in one directory, a byte that is no
character in another, and a directory in place of the file in a third. -/
def sampleStore : Store where
  files := [
    (["pyproject.toml"], Text.Utf8.encode "tool=5"),
    (["app", "pyproject.toml"], Text.Utf8.encode "tool.mess-detector.jobs=2"),
    (["old", "pyproject.toml"], ⟨#[0xff]⟩)]
  directories := [["app"], ["old"], ["odd"], ["odd", "pyproject.toml"]]

theorem load_gives_section_unless_escapes_sample :
    load sampleStore ⟨.top, []⟩ = .error (.notATable "int") ∧
      load sampleStore ⟨.top, ["old"]⟩ = .error (.encoding ⟨0, 1, 0xff, .invalidStart⟩) ∧
      (∃ loaded, load sampleStore ⟨.top, ["app"]⟩ = .ok loaded ∧
        loaded.settings.table = [("jobs", .int 2)]) ∧
      ∃ loaded, load sampleStore ⟨.top, ["odd"]⟩ = .ok loaded ∧ loaded.settings.table = [] := by
  have htop : Nearest sampleStore ⟨.top, []⟩ [] :=
    ⟨.self _ [], by decide, by decide +kernel⟩
  have hold : Nearest sampleStore ⟨.top, ["old"]⟩ ["old"] :=
    ⟨.self _ ["old"], by decide, by decide +kernel⟩
  have happ : Nearest sampleStore ⟨.top, ["app"]⟩ ["app"] :=
    ⟨.self _ ["app"], by decide, by decide +kernel⟩
  have hodd : Nearest sampleStore ⟨.top, ["odd"]⟩ ["odd"] :=
    ⟨.self _ ["odd"], by decide, by decide +kernel⟩
  refine ⟨?_, ?_, ?_, ?_⟩
  · have hparses : Parses (Text.Utf8.encode "tool=5") [("tool", .int 5)] :=
      @parses_encode ['t', 'o', 'o', 'l', '=', '5'] _ (by simp) rfl
    apply ((load_gives_section_unless_escapes _ _).1 _).mpr
    exact .content htop rfl (.foreignTools (v := .int 5) hparses rfl rfl nofun)
  · have hdecode : Text.Utf8.decode ⟨#[0xff]⟩ = .error ⟨0, 1, 0xff, .invalidStart⟩ := by
      rw [Text.Utf8.decode, Text.Utf8.toList_eq_data]
      rfl
    apply ((load_gives_section_unless_escapes _ _).1 _).mpr
    exact .content hold rfl (.encoding hdecode)
  · have hparses : Parses (Text.Utf8.encode "tool.mess-detector.jobs=2")
        [("tool", .table [("mess-detector", .table [("jobs", .int 2)])])] :=
      @parses_encode ['t', 'o', 'o', 'l', '.', 'm', 'e', 's', 's', '-', 'd', 'e', 't', 'e', 'c',
        't', 'o', 'r', '.', 'j', 'o', 'b', 's', '=', '2'] _ (by simp) rfl
    apply (load_gives_section_unless_escapes _ _).2.1
    exact ⟨_, _, _, happ, rfl, hparses, _, rfl, rfl⟩
  · have hload : load sampleStore ⟨.top, ["odd"]⟩ =
        .ok { unreadable := some (projectFile ["odd"]) } :=
      hodd.load_eq
    apply (load_gives_section_unless_escapes _ _).2.2
    · intro fields hconfigures
      rw [hconfigures.load_eq] at hload
      cases hload
    · intro fault hescapes
      rw [hescapes.load_eq] at hload
      cases hload

end TreeLint.Settings
