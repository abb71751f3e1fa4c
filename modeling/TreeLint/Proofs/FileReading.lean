import Mathlib.Data.List.Basic
import TreeLint.Files.Store

/-!
# What reading a file answers

A path is unusable exactly when it has a null character: cutting it at the
slashes loses no other character, and following names never finds one.  A file
whose bytes are all below 0x80 is read as it was written.
-/

namespace TreeLint

/-! ## Null characters -/

namespace Path

/-- Cutting a text at a separator keeps every other character in some part. -/
theorem exists_mem_splitOn_iff
    {c separator : Char} (hne : c ≠ separator) (cs : List Char) :
    (∃ part ∈ cs.splitOn separator, c ∈ part) ↔ c ∈ cs := by
  induction cs with
  | nil => simp
  | cons x cs ih =>
      rw [List.splitOn_cons_eq_if_modifyHead, List.mem_cons, ← ih]
      split
      · next hx =>
        have hcx : c ≠ x := by
          rw [eq_of_beq hx]
          exact hne
        simp [hcx]
      · obtain ⟨part, parts, hparts⟩ :=
          List.exists_cons_of_ne_nil (List.splitOn_ne_nil separator cs)
        rw [hparts, List.modifyHead_cons]
        simp [or_assoc]

theorem hasNull_parse (path : String) :
    (parse path).hasNull = true ↔ '\x00' ∈ path.toList := by
  rw [← exists_mem_splitOn_iff (by decide : '\x00' ≠ '/')]
  unfold hasNull parse
  rw [List.any_eq_true]
  constructor
  · rintro ⟨name, hname, hnull⟩
    obtain ⟨part, hpart, rfl⟩ := List.mem_map.mp (List.mem_filter.mp hname).1
    exact ⟨part, hpart, by simpa using hnull⟩
  · rintro ⟨part, hpart, hnull⟩
    -- The names that are dropped have no null character in them.
    have hne (dropped : String) (hclean : '\x00' ∉ dropped.toList) :
        String.ofList part ≠ dropped := by
      intro heq
      rw [← heq, String.toList_ofList] at hclean
      exact hclean hnull
    have hkept : (String.ofList part != "" && String.ofList part != ".") = true := by
      rw [Bool.and_eq_true, bne_iff_ne, bne_iff_ne]
      exact ⟨hne "" (by decide), hne "." (by decide)⟩
    refine ⟨String.ofList part, List.mem_filter.mpr ⟨?_, hkept⟩, ?_⟩
    · exact List.mem_map_of_mem hpart
    · simpa using hnull

end Path

namespace Store

theorem follow_ne_nullByte
    (store : Store) (here : Place) (names : List String) :
    store.follow here names ≠ .error .nullByte := by
  fun_induction follow store here names with
  | case1 => nofun
  | case2 here rest ih => exact ih
  | case3 => nofun
  | case4 here name rest _ _ next _ ih => exact ih
  | case5 => nofun
  | case6 => nofun
  | case7 => nofun

theorem find_eq_nullByte_iff (store : Store) (path : Path) :
    store.find path = .error .nullByte ↔ path.hasNull = true := by
  unfold find
  constructor
  · intro h
    by_contra hnull
    rw [if_neg hnull] at h
    split at h
    · cases h
    · exact store.follow_ne_nullByte _ _ h
  · exact fun hnull => if_pos hnull

theorem readText_of_hasNull
    {path : Path} (store : Store) (h : path.hasNull = true) :
    store.readText path = .error (.file ⟨.nullByte, path⟩) := by
  unfold readText readBytes
  rw [(store.find_eq_nullByte_iff path).mpr h]

theorem hasNull_of_readText
    {store : Store} {path unusable : Path}
    (h : store.readText path = .error (.file ⟨.nullByte, unusable⟩)) :
    path.hasNull = true := by
  unfold readText readBytes at h
  cases hfind : store.find path with
  | ok found =>
      rw [hfind] at h
      cases found with
      | directory place => cases h
      | file place content =>
          simp only at h
          split at h <;> cases h
  | error problem =>
      rw [hfind] at h
      cases h
      exact (store.find_eq_nullByte_iff path).mp hfind

end Store

/-! ## Files of plain bytes -/

namespace Text

theorem unifyNewlines_eq_self
    {cs : List Char} (h : '\r' ∉ cs) : unifyNewlines cs = cs := by
  fun_induction unifyNewlines cs with
  | case1 => rfl
  | case2 => exact absurd List.mem_cons_self h
  | case3 => exact absurd List.mem_cons_self h
  | case4 c rest _ _ ih => rw [ih fun hrest => h (List.mem_cons_of_mem c hrest)]

namespace Utf8

theorem toList_eq_data (bytes : ByteArray) : bytes.toList = bytes.data.toList := by
  have hloop (i : Nat) (done : List UInt8) :
      ByteArray.toList.loop bytes i done = done.reverse ++ bytes.data.toList.drop i := by
    fun_induction ByteArray.toList.loop bytes i done with
    | case1 i done hi ih =>
        have hget : bytes.get! i = bytes.data.toList[i] := by
          simp [ByteArray.get!, getElem!_pos, hi]
        rw [ih, hget, List.reverse_cons, List.append_assoc, List.singleton_append,
          List.getElem_cons_drop]
    | case2 i done hi =>
        have hend : bytes.data.toList.drop i = [] :=
          List.drop_eq_nil_of_le (by simpa using hi)
        rw [hend, List.append_nil]
  rw [ByteArray.toList, hloop, List.reverse_nil, List.nil_append, List.drop_zero]

theorem encode_ofList
    {cs : List Char} (h : ∀ c ∈ cs, c.toNat < 0x80) :
    (encode (String.ofList cs)).toList = cs.map fun c => c.val.toUInt8 := by
  rw [encode, String.toUTF8, String.toByteArray_ofList, List.utf8Encode, toList_eq_data,
    List.data_toByteArray, ← List.flatMap_singleton' (cs.map _), List.flatMap_map]
  refine List.flatMap_congr fun c hc => ?_
  have hsize : c.val ≤ 127 := by
    rw [UInt32.le_iff_toNat_le]
    exact Nat.le_of_lt_succ (h c hc)
  exact String.utf8EncodeChar_eq_singleton (Char.utf8Size_eq_one_iff.mpr hsize)

theorem decodeFrom_map
    {cs : List Char} (h : ∀ c ∈ cs, c.toNat < 0x80) (position : Nat) (done : List Char) :
    decodeFrom position none done (cs.map fun c => c.val.toUInt8) = .ok (done.reverse ++ cs) := by
  induction cs generalizing position done with
  | nil => simp [decodeFrom]
  | cons c cs ih =>
      have hc := h c List.mem_cons_self
      have hbyte : c.val.toUInt8.toNat = c.toNat := by
        rw [UInt32.toNat_toUInt8, Char.toNat_val]
        exact Nat.mod_eq_of_lt (by omega)
      rw [List.map_cons, decodeFrom]
      simp only [hbyte, if_pos hc, Char.ofNat_toNat]
      rw [ih fun d hd => h d (List.mem_cons_of_mem c hd)]
      simp

theorem decode_encode
    {cs : List Char} (h : ∀ c ∈ cs, c.toNat < 0x80) :
    decode (encode (String.ofList cs)) = .ok cs := by
  rw [decode, encode_ofList h, decodeFrom_map h]
  rfl

end Utf8

end Text

theorem Store.readText_encode
    {store : Store} {path : Path} {cs : List Char}
    (hbytes : store.readBytes path = .ok (Text.Utf8.encode (String.ofList cs)))
    (hplain : ∀ c ∈ cs, c.toNat < 0x80) (hreturn : '\r' ∉ cs) :
    store.readText path = .ok cs := by
  unfold readText
  rw [hbytes]
  simp only [Text.Utf8.decode_encode hplain, Text.unifyNewlines_eq_self hreturn]

end TreeLint
