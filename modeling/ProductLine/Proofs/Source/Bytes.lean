/- # Bytes and texts — the two ways a source comes in

A source is compiled as a text, or as bytes that are decoded line by line.
Bytes that encode a text compile to what the text compiles to, since the lines
of the bytes are those of the text.  Other bytes have a first piece that cannot
be decoded, and its turn comes after the lines before it: their fault goes
first, and without one the file is to blame and no line
(`Source.compileBytes_decode`).
-/
import ProductLine.Proofs.Source.FailFast
import ProductLine.Proofs.Text.Bytes

namespace ProductLine

/-- A run ends at a line that cannot be read, if it gets there. -/
theorem Compilation.feedLines_append_error {c : Compilation Id} {number : Nat}
    (lines : List (List Char)) (fault : FileFault) (more : List (Except FileFault (List Char))) :
    (c.feedLines number (lines.map .ok ++ .error fault :: more)).run =
      (c.feedLines number (lines.map .ok)).run >>= fun _ => .error (.unreadable fault) := by
  induction lines generalizing c number with
  | nil => rfl
  | cons line lines ih =>
    rw [List.map_cons, List.cons_append, feedLines, feedLines, Id.run_bind, Id.run_bind]
    obtain ⟨result, next⟩ := (c.feed line).run
    cases result with
    | error => rfl
    | ok => exact ih

namespace Source

open Text (encode decode? bytesBefore)

variable {answer : String → Except EngineFailure (List String)} {n n' : Normalizer Id}
  {name : String}

theorem compileLines_append_error (lines : List (List Char)) (fault : FileFault)
    (more : List (Except FileFault (List Char))) :
    (compileLines name n (lines.map .ok ++ .error fault :: more)).run =
      (compileLines name n (lines.map .ok)).run >>= fun _ => .error (.unreadable fault) := by
  unfold compileLines
  rw [Id.run_bind, Id.run_bind, Id.run_pure, Id.run_pure, Compilation.feedLines_append_error]
  cases ((Compilation.start name n).feedLines 1 (lines.map .ok)).run with
  | error => rfl
  | ok => rfl

/-- Encoded lines are decoded. -/
theorem map_decodeLine_encode (lines : List (List Char)) :
    (lines.map encode).map decodeLine = lines.map .ok := by
  rw [List.map_map]
  refine List.map_congr_left ?_
  intro line _
  rw [Function.comp_apply, decodeLine, Text.decode?_encode]

/-- Bytes that encode a text compile to what the text compiles to. -/
theorem compileBytes_encode (text : List Char) :
    compileBytes name n (encode text) = compileText name n (String.ofList text) := by
  rw [compileBytes, compileText, String.toList_ofList, Text.byteLines_encode, map_decodeLine_encode]

/-- Bytes that encode no text have the fault of the text before the first piece that encodes none,
or cannot be read. -/
theorem exists_compileBytes (name : String) (n : Normalizer Id) {bytes : List UInt8} {k : Nat}
    {piece : List UInt8} (found : (bytes.splitOn 0x0A)[k]? = some piece) (undecodable : decode? piece = none)
    (first : ∀ piece ∈ (bytes.splitOn 0x0A).take k, decode? piece ≠ none) :
    ∃ before, decode? (bytesBefore k bytes) = some before ∧
      (compileBytes name n bytes).run = (compileText name n (String.ofList before)).run >>=
        fun _ => .error (.unreadable .notUtf8) := by
  obtain ⟨before, line, more, hbefore, hlines, hline⟩ :=
    Text.exists_byteLines found undecodable first
  refine ⟨before, hbefore, ?_⟩
  have refused : decodeLine line = .error .notUtf8 := by
    rw [decodeLine, hline]
  rw [compileBytes, hlines, List.map_append, List.map_cons, map_decodeLine_encode, refused,
    compileLines_append_error, compileText, String.toList_ofList]

/-- The `k`-th piece between the line feeds of the bytes encodes no text. -/
def Undecodable (bytes : List UInt8) (k : Nat) : Prop :=
  ∃ piece, (bytes.splitOn 0x0A)[k]? = some piece ∧ decode? piece = none

instance {bytes : List UInt8} {k : Nat} : Decidable (Undecodable bytes k) :=
  decidable_of_iff ((bytes.splitOn 0x0A)[k]?.map decode? = some none) Option.map_eq_some_iff

theorem decode?_ne_none_of_mem_take {bytes : List UInt8} {k : Nat}
    (least : ∀ i, Undecodable bytes i → k ≤ i) :
    ∀ piece ∈ (bytes.splitOn 0x0A).take k, decode? piece ≠ none := by
  intro piece hpiece undecodable
  obtain ⟨i, hi, hget⟩ := List.mem_take_iff_getElem.mp hpiece
  have late := least i ⟨piece, List.getElem?_eq_some_iff.mpr ⟨by omega, hget⟩, undecodable⟩
  omega

theorem isLeast_undecodable {bytes : List UInt8} {k : Nat} (undecodable : Undecodable bytes k)
    (before : ∀ i < k, ¬ Undecodable bytes i) : IsLeast {k | Undecodable bytes k} k := by
  refine ⟨undecodable, ?_⟩
  intro i hi
  by_contra early
  exact before i (Nat.lt_of_not_le early) hi

/-- Bytes that encode a text compile to the same model or the same fault as the text.  Bytes that
encode none have a first piece that encodes none; they have the fault of the text before that piece
if there is one, and are refused with a fault of the file, at no line, if there is none. -/
theorem compileBytes_decode (answers : n.Answers answer) (answers' : n'.Answers answer)
    (name : String) (bytes : List UInt8) :
    (∀ text, decode? bytes = some text →
      (compileBytes name n' bytes).run = (compileText name n (String.ofList text)).run) ∧
    (decode? bytes = none → ∃ k, IsLeast {k | Undecodable bytes k} k) ∧
    ∀ k, IsLeast {k | Undecodable bytes k} k → ∃ before,
      decode? (bytesBefore k bytes) = some before ∧
      (∀ fault, (compileText name n (String.ofList before)).run = .error fault →
        (compileBytes name n' bytes).run = .error fault) ∧
      ∀ model, (compileText name n (String.ofList before)).run = .ok model →
        ∃ fault, (compileBytes name n' bytes).run = .error fault ∧ fault.category = .file ∧
          fault.lineNumber? = none := by
  have same (text : String) : (compileText name n' text).run = (compileText name n text).run :=
    compileLines_congr answers answers' (Text.lines text.toList)
  refine ⟨?decoded, ?first, ?refused⟩
  case decoded =>
    intro text htext
    obtain rfl := Text.decode?_eq_some_iff.mp htext
    rw [compileBytes_encode, same]
  case first =>
    intro none
    obtain ⟨piece, hpiece, undecodable⟩ := Text.decode?_eq_none_iff.mp none
    obtain ⟨k, hk⟩ := List.mem_iff_getElem?.mp hpiece
    have some : ∃ k, Undecodable bytes k := ⟨k, piece, hk, undecodable⟩
    exact ⟨Nat.find some, Nat.isLeast_find some⟩
  case refused =>
    rintro k ⟨⟨piece, found, undecodable⟩, least⟩
    obtain ⟨before, hbefore, hbytes⟩ := exists_compileBytes name n' found
      undecodable (decode?_ne_none_of_mem_take fun i hi => least hi)
    rw [same] at hbytes
    refine ⟨before, hbefore, ?_, ?_⟩
    · intro fault hfault
      rw [hbytes, hfault]
      rfl
    · intro model hmodel
      rw [hmodel] at hbytes
      exact ⟨_, hbytes, rfl, rfl⟩

namespace Sample

/-- Lines with each of the endings, a carriage return by itself, and none at the end. -/
def mixed : String := "%% ends\r\nmandatory A\n\roptional B\r"

/-- The second line ends in the middle of a character. -/
def truncated : List UInt8 :=
  encode "mandatory A\r\n".toList ++ [0x42, 0xC3, 0x0D, 0x0A] ++ encode "optional A".toList

/-- The sixth line cannot be decoded, and the fourth one is refused. -/
def overtaken : List UInt8 := encode repeated.toList ++ [0xFF]

end Sample

open ProductLine.Source.Sample in
theorem compileBytes_decode_sample :
    (compileBytes "m" second (encode mixed.toList)).run = (compileText "m" first mixed).run ∧
      (∃ fault, (compileBytes "m" second truncated).run = .error fault ∧ fault.category = .file ∧
        fault.lineNumber? = none) ∧
      (compileBytes "m" second overtaken).run = .error repeatedFault := by
  have builtin : (Engine.builtin Cnf.defaultMaxClauses {} : Engine Id).DependsOnExpression :=
    Engine.builtin_dependsOnExpression _ _
  obtain ⟨answer, answers⟩ := Normalizer.exists_answers builtin Normalizer.defaultTimeout
  have general := compileBytes_decode (answers first.tickets) (answers second.tickets) "m"
  refine ⟨?mixed, ?truncated, ?overtaken⟩
  case mixed =>
    have same := (general (encode mixed.toList)).1 _ (Text.decode?_encode _)
    rwa [String.ofList_toList] at same
  case truncated =>
    have least : IsLeast {k | Undecodable truncated k} 1 :=
      isLeast_undecodable (by decide) (by decide)
    obtain ⟨before, hbefore, -, unreadable⟩ := (general truncated).2.2 1 least
    have text : decode? (bytesBefore 1 truncated) = some "mandatory A\r\n".toList := by decide
    obtain rfl := Option.some.inj (hbefore.symm.trans text)
    exact unreadable once (by cbv)
  case overtaken =>
    have least : IsLeast {k | Undecodable overtaken k} 5 :=
      isLeast_undecodable (by decide) (by decide)
    obtain ⟨before, hbefore, earlier, -⟩ := (general overtaken).2.2 5 least
    have text : decode? (bytesBefore 5 overtaken) = some repeated.toList := by decide
    obtain rfl := Option.some.inj (hbefore.symm.trans text)
    exact earlier repeatedFault (by cbv)

end Source

end ProductLine
