/- # Lines of bytes — decoding before or after the cut

A text can be decoded and then cut into lines, or its bytes can be cut and
each line decoded.  The two agree because of one property of UTF-8: a byte
below 128 is a character by itself, and no part of another one
(`eq_of_mem_utf8EncodeChar`).  A line feed among the bytes is therefore a line
feed of the text, and so is a carriage return before it: the pieces of an
encoded text are the encoded pieces (`splitOn_encode`).

Bytes that encode no text have a piece that encodes none
(`decode?_eq_none_iff`).  The first such piece is a line that cannot be
decoded, whether or not a carriage return is taken off it, and the bytes
before it are a text with its lines (`exists_byteLines`).
-/
import Mathlib.Data.List.Induction
import Mathlib.Data.Set.List
import ProductLine.Proofs.Text.Lines

namespace ProductLine.Text

variable {bytes : List UInt8} {cs : List Char}

/-! ## Texts and their bytes -/

theorem encode_append (cs ds : List Char) : encode (cs ++ ds) = encode cs ++ encode ds :=
  List.flatMap_append

theorem encode_singleton_ne_nil (c : Char) : encode [c] ≠ [] := by
  rw [encode, List.flatMap_singleton]
  exact String.utf8EncodeChar_ne_nil

theorem isEmpty_encode (cs : List Char) : (encode cs).isEmpty = cs.isEmpty := by
  cases cs with
  | nil => rfl
  | cons c cs =>
    rw [List.isEmpty_cons, ← List.singleton_append, encode_append, List.isEmpty_eq_false_iff]
    exact List.append_ne_nil_of_left_ne_nil (encode_singleton_ne_nil c) (encode cs)

theorem decode?_eq_some_iff : decode? bytes = some cs ↔ bytes = encode cs := by
  constructor
  · intro h
    obtain ⟨text, htext, rfl⟩ := Option.map_eq_some_iff.mp h
    rw [String.fromUTF8?] at htext
    split at htext
    case isFalse => cases htext
    case isTrue valid =>
      obtain rfl := Option.some.inj htext
      have same : (encode (String.fromUTF8 ⟨bytes.toArray⟩ valid).toList).toByteArray =
          ⟨bytes.toArray⟩ := String.utf8Encode_toList
      have data := congrArg ByteArray.data same
      rw [List.data_toByteArray] at data
      exact (List.toArray_inj data).symm
  · rintro rfl
    exact decode?_encode cs

/-- The bytes of a character that is not ASCII all have their first bit set. -/
theorem le_toNat_of_mem_utf8EncodeChar {b : UInt8} {c : Char} (long : ¬ c.val.toNat ≤ 127)
    (h : b ∈ String.utf8EncodeChar c) : 128 ≤ b.toNat := by
  have high (n : Nat) (low : 128 ≤ n) (small : n < 256) : 128 ≤ (UInt8.ofNat n).toNat := by
    rw [UInt8.toNat_ofNat', Nat.mod_eq_of_lt small]
    exact low
  rw [String.utf8EncodeChar, if_neg long] at h
  split_ifs at h
  all_goals simp only [List.mem_cons, List.not_mem_nil, or_false] at h
  · rcases h with rfl | rfl <;> exact high _ (by omega) (by omega)
  · rcases h with rfl | rfl | rfl <;> exact high _ (by omega) (by omega)
  · rcases h with rfl | rfl | rfl | rfl <;> exact high _ (by omega) (by omega)

/-- A byte below 128 is a character by itself, and no part of another one. -/
theorem eq_of_mem_utf8EncodeChar {b : UInt8} {c : Char} (ascii : b.toNat < 128)
    (h : b ∈ String.utf8EncodeChar c) : String.utf8EncodeChar c = [b] ∧ c.toNat = b.toNat := by
  by_cases short : c.val.toNat ≤ 127
  case neg => exact absurd (le_toNat_of_mem_utf8EncodeChar short h) (Nat.not_le_of_lt ascii)
  case pos =>
    rw [String.utf8EncodeChar, if_pos short] at h ⊢
    obtain rfl := List.mem_singleton.mp h
    refine ⟨rfl, ?_⟩
    rw [UInt8.toNat_ofNat', Nat.mod_eq_of_lt (by omega)]
    rfl

/-! ## Marks -/

/-- The byte is an ASCII character. -/
structure Stands (b : UInt8) (c : Char) : Prop where
  ascii : b.toNat < 128
  same : c.toNat = b.toNat

theorem stands_feed : Stands 0x0A '\n' := ⟨by decide, by decide⟩

theorem stands_return : Stands 0x0D '\r' := ⟨by decide, by decide⟩

section Marks

variable {b : UInt8} {c d : Char}

theorem Stands.eq_of_mem (h : Stands b c) (hd : b ∈ String.utf8EncodeChar d) : d = c := by
  obtain ⟨-, value⟩ := eq_of_mem_utf8EncodeChar h.ascii hd
  exact Char.toNat_inj.mp (value.trans h.same.symm)

theorem Stands.utf8EncodeChar_eq (h : Stands b c) : String.utf8EncodeChar c = [b] := by
  have short : c.val.toNat ≤ 127 := by
    have value : c.val.toNat = b.toNat := h.same
    have bound := h.ascii
    omega
  have value : c.val.toNat = b.toNat := h.same
  rw [String.utf8EncodeChar, if_pos short, value, UInt8.ofNat_toNat]

theorem Stands.encode_singleton (h : Stands b c) : encode [c] = [b] := by
  rw [encode, List.flatMap_singleton, h.utf8EncodeChar_eq]

theorem Stands.mem_encode (h : Stands b c) : b ∈ encode cs ↔ c ∈ cs := by
  rw [encode, List.mem_flatMap]
  constructor
  · rintro ⟨d, hd, hb⟩
    rwa [h.eq_of_mem hb] at hd
  · intro hc
    refine ⟨c, hc, ?_⟩
    rw [h.utf8EncodeChar_eq]
    exact List.mem_singleton_self b

/-- Taking a mark off the end of the bytes is taking it off the end of the text. -/
theorem Stands.dropFinal_encode (h : Stands b c) (cs : List Char) :
    dropFinal b (encode cs) = encode (dropFinal c cs) := by
  cases cs using List.reverseRecOn with
  | nil => rfl
  | append_singleton cs last =>
    unfold dropFinal
    rw [encode_append, List.getLast?_concat, List.dropLast_concat]
    by_cases mark : last = c
    case pos =>
      subst mark
      rw [h.encode_singleton, List.getLast?_concat, List.dropLast_concat,
        if_pos (beq_self_eq_true _), if_pos (beq_self_eq_true _)]
    case neg =>
      have other : (encode cs ++ encode [last]).getLast? ≠ some b := by
        rw [List.getLast?_append_of_ne_nil _ (encode_singleton_ne_nil last)]
        intro hlast
        have among := h.mem_encode.mp (List.mem_of_getLast? hlast)
        exact mark (List.mem_singleton.mp among).symm
      rw [if_neg (by simpa using other), if_neg (by simpa using mark), encode_append]

theorem Stands.encode_intercalate (h : Stands b c) (pieces : List (List Char)) :
    encode ([c].intercalate pieces) = [b].intercalate (pieces.map encode) := by
  induction pieces with
  | nil => rfl
  | cons piece pieces ih =>
    cases pieces with
    | nil => rw [List.map_singleton, List.intercalate_singleton, List.intercalate_singleton]
    | cons next pieces =>
      rw [List.map_cons, List.map_cons, List.intercalate_cons_cons, List.intercalate_cons_cons,
        encode_append, encode_append, h.encode_singleton, ih, List.map_cons]

/-- The pieces of an encoded text are the encoded pieces. -/
theorem Stands.splitOn_encode (h : Stands b c) (cs : List Char) :
    (encode cs).splitOn b = (cs.splitOn c).map encode := by
  have clean : ∀ piece ∈ (cs.splitOn c).map encode, b ∉ piece := by
    rw [List.forall_mem_map]
    intro piece hpiece hb
    exact notMem_of_mem_splitOn hpiece (h.mem_encode.mp hb)
  have some : (cs.splitOn c).map encode ≠ [] := by
    rw [ne_eq, List.map_eq_nil_iff]
    exact List.splitOn_ne_nil c cs
  have cut := List.splitOn_intercalate b clean some
  rwa [← h.encode_intercalate, List.intercalate_splitOn] at cut

end Marks

/-! ## Lines -/

theorem dropFinal_comp_encode : dropFinal 0x0D ∘ encode = encode ∘ dropFinal '\r' :=
  funext stands_return.dropFinal_encode

/-- The lines of an encoded text are the encoded lines. -/
theorem byteLines_encode (cs : List Char) : byteLines (encode cs) = (lines cs).map encode := by
  have unfinished : (fun piece => !piece.isEmpty) ∘ encode = fun piece => !piece.isEmpty :=
    funext fun piece => congrArg not (isEmpty_encode piece)
  rw [byteLines, lines, linesBy_eq, linesBy_eq, stands_feed.splitOn_encode, List.map_append,
    ← List.map_dropLast, List.map_map, List.map_map, dropFinal_comp_encode, List.getLast?_map,
    Option.toList_map, List.filter_map, unfinished]

/-! ## Bytes that cannot be decoded -/

theorem decode?_eq_none_iff_forall : decode? bytes = none ↔ ∀ cs, bytes ≠ encode cs := by
  rw [Option.eq_none_iff_forall_ne_some]
  exact forall_congr' fun cs => not_congr decode?_eq_some_iff

theorem exists_map_encode {pieces : List (List UInt8)}
    (h : ∀ piece ∈ pieces, decode? piece ≠ none) : ∃ texts : List (List Char), pieces = texts.map encode := by
  have encoded : pieces ∈ Set.range (List.map encode) := by
    rw [Set.range_list_map]
    intro piece hpiece
    obtain ⟨text, htext⟩ := Option.ne_none_iff_exists'.mp (h piece hpiece)
    exact ⟨text, (decode?_eq_some_iff.mp htext).symm⟩
  obtain ⟨texts, same⟩ := encoded
  exact ⟨texts, same.symm⟩

/-- Bytes encode no text if and only if one of their pieces encodes none. -/
theorem decode?_eq_none_iff : decode? bytes = none ↔
    ∃ piece ∈ bytes.splitOn 0x0A, decode? piece = none := by
  constructor
  · intro none
    by_contra all
    push Not at all
    obtain ⟨texts, pieces⟩ := exists_map_encode all
    have whole : bytes = encode (['\n'].intercalate texts) := by
      rw [stands_feed.encode_intercalate, ← pieces, List.intercalate_splitOn]
    rw [whole, decode?_encode] at none
    cases none
  · rintro ⟨piece, hpiece, none⟩
    rw [decode?_eq_none_iff_forall] at none ⊢
    rintro cs rfl
    rw [stands_feed.splitOn_encode] at hpiece
    obtain ⟨text, -, rfl⟩ := List.mem_map.mp hpiece
    exact none text rfl

/-- A carriage return at the end does not matter for whether bytes can be decoded. -/
theorem decode?_dropFinal_eq_none (h : decode? bytes = none) :
    decode? (dropFinal 0x0D bytes) = none := by
  unfold dropFinal
  split
  case isFalse => exact h
  case isTrue last =>
    rw [beq_iff_eq, List.getLast?_eq_some_iff] at last
    obtain ⟨front, rfl⟩ := last
    rw [List.dropLast_concat]
    rw [decode?_eq_none_iff_forall] at h ⊢
    rintro cs rfl
    refine h (cs ++ ['\r']) ?_
    rw [encode_append, stands_return.encode_singleton]

/-- What stands before the `k`-th piece of the bytes, each piece with its line feed. -/
def bytesBefore (k : Nat) (bytes : List UInt8) : List UInt8 :=
  ((bytes.splitOn 0x0A).take k).flatMap (· ++ [0x0A])

/-- The bytes before the first piece that cannot be decoded are a text.  Its lines are the first
lines of the bytes, and the next one cannot be decoded. -/
theorem exists_byteLines {k : Nat} {piece : List UInt8}
    (found : (bytes.splitOn 0x0A)[k]? = some piece) (undecodable : decode? piece = none)
    (first : ∀ piece ∈ (bytes.splitOn 0x0A).take k, decode? piece ≠ none) :
    ∃ text line more, decode? (bytesBefore k bytes) = some text ∧
      byteLines bytes = (lines text).map encode ++ line :: more ∧ decode? line = none := by
  obtain ⟨texts, front⟩ := exists_map_encode first
  have clean : ∀ text ∈ texts, '\n' ∉ text := by
    intro text htext feed
    have hmem : encode text ∈ (bytes.splitOn 0x0A).take k := by
      rw [front]
      exact List.mem_map_of_mem htext
    exact notMem_of_mem_splitOn (List.mem_of_mem_take hmem) (stands_feed.mem_encode.mpr feed)
  have before : bytesBefore k bytes = encode (texts.flatMap (· ++ ['\n'])) := by
    rw [bytesBefore, front, List.flatMap_map, encode, List.flatMap_assoc]
    refine congrArg (List.flatMap · texts) (funext fun text => ?_)
    rw [← encode, encode_append, stands_feed.encode_singleton]
  have nonempty : piece ≠ [] := by
    rintro rfl
    have empty : decode? [] = some [] := decode?_encode []
    rw [empty] at undecodable
    cases undecodable
  obtain ⟨hk, rfl⟩ := List.getElem?_eq_some_iff.mp found
  have cut : bytes.splitOn 0x0A = (bytes.splitOn 0x0A).take k ++
      (bytes.splitOn 0x0A)[k] :: (bytes.splitOn 0x0A).drop (k + 1) := by
    rw [← List.drop_eq_getElem_cons hk, List.take_append_drop]
  obtain ⟨line, more, whole, hline⟩ := exists_linesBy 0x0D cut nonempty
  refine ⟨texts.flatMap (· ++ ['\n']), line, more, ?_, ?_, ?_⟩
  · rw [before, decode?_encode]
  · rw [lines, linesBy_flatMap clean, byteLines, whole, front, List.map_map, List.map_map,
      dropFinal_comp_encode]
  · rcases hline with rfl | rfl
    · exact undecodable
    · exact decode?_dropFinal_eq_none undecodable

end ProductLine.Text
